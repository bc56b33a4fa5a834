import ObsidianSync.Server.ConflictBase
import ObsidianSync.Server.ExactRefs
import Mathlib.Logic.Function.Basic

/-!
# The encoding label of a row

A row says in `contentEncoding` whether its bytes are encrypted, and clients
decrypt by that label.  The hash and the label are written together but fall
back apart: an update takes the label of the op and may keep the hash, a restore
may keep either, and a resolution takes a hash and keeps the label of the row.

What the label should be is kept beside the store: for each row the encoding
that the op or resolution declared which brought the hash the row has.

## Main definitions

* `LabelEvent` — a call, with the encoding of bytes a resolution has uploaded.
* `declaredBy` — the encoding a call declares for the content it brings.
* `Labelled`, `labelStep` — the store with the declared encodings.
* `LabelsMatch` — every row has the label that was declared for its content.
* `KeepsLabel` — what a call has to meet to leave it so.

## Main results

* `labelsMatch_labelStep_iff` — one call.
* `labelsMatch_iff_keepsLabel` — the runs in which the labels match.
-/

namespace ObsidianSync

/-! ### Declared encodings -/

/-- A call on the server. -/
structure LabelEvent where
  call : ServerEvent
  /-- The encoding of the bytes a client has uploaded for a resolution.  The message names their
  hash only. -/
  uploaded : Option ContentEncryptionEncoding := none

/-- The encoding declared by the op that opened the conflict. -/
def theirsEncoding (s : Store) (conflict : ConflictRecord) : Option ContentEncryptionEncoding :=
  (s.ops.find? fun logged => logged.conflictId = some conflict.conflictId).bind
    fun logged => logged.payload.contentEncoding

/-- The encoding of what a resolution by hash brings: the other side, or uploaded bytes. -/
def chosenEncoding (s : Store) (input : ResolveInput) (conflict : ConflictRecord)
    (uploaded : Option ContentEncryptionEncoding) : Option ContentEncryptionEncoding :=
  if conflict.theirsHash = input.resolvedHash then theirsEncoding s conflict else uploaded

/-- The encoding a call declares for content it brings.  Merged text is plain. -/
def declaredBy (s : Store) (e : LabelEvent) : Option ContentEncryptionEncoding :=
  match e.call with
  | .process _ _ op _ => op.contentEncoding
  | .resolve _ input =>
    match s.getConflict input.conflictId with
    | some conflict =>
      if input.inlineText.isSome then none else chosenEncoding s input conflict e.uploaded
    | none => none
  | _ => none

/-- Whether the call makes rows from scratch. -/
def ServerEvent.isCreate : ServerEvent → Bool
  | .process _ _ op _ => op.kind = .create
  | _ => false

/-- The written row has its content hash from the call, not from the row before. -/
def Introduces (s : Store) (call : ServerEvent) (written : StoredFile) : Prop :=
  ∀ row ∈ s.getFile written.vaultId written.fileId,
    written.contentHash ≠ row.contentHash ∨ row.deleted = true ∧ call.isCreate = true

instance (s : Store) (call : ServerEvent) (written : StoredFile) :
    Decidable (Introduces s call written) := by
  unfold Introduces
  infer_instance

/-- A store with the encoding that was declared for the content of each row. -/
structure Labelled where
  store : Store
  declared : String × String → Option ContentEncryptionEncoding

/-- A call on the server, with what it declares. -/
def labelStep (P : Platform) (l : Labelled) (e : LabelEvent) : Labelled where
  store := serverStep P l.store e.call
  declared :=
    match writtenFile P l.store e.call with
    | none => l.declared
    | some written =>
      if Introduces l.store e.call written then
        Function.update l.declared written.key (declaredBy l.store e)
      else l.declared

/-- The label of every row is the encoding declared for its content. -/
def LabelsMatch (l : Labelled) : Prop :=
  ∀ row ∈ l.store.files.rows, row.contentEncoding = l.declared row.key

instance (l : Labelled) : Decidable (LabelsMatch l) := by
  unfold LabelsMatch
  infer_instance

/-! ### Calls that keep the labels -/

/-- The op overwrites the row. -/
def Overwrites (op : FileOp) (row : StoredFile) : Prop :=
  (op.kind = .create ∧ row.deleted = false ∨ op.kind = .update) ∧
    VersionVector.dominates (declaredVV op) row.contentVV = true

instance (op : FileOp) (row : StoredFile) : Decidable (Overwrites op row) := by
  unfold Overwrites
  infer_instance

/-- An op that leaves the row its hash leaves it its label, and one that brings a hash brings
the label with it. -/
def OpKeepsLabel (op : FileOp) (row : StoredFile) : Prop :=
  (Overwrites op row → (op.contentHash.or op.blobRef).or row.contentHash = row.contentHash →
    op.contentEncoding = row.contentEncoding) ∧
  (op.kind = .restore →
    if op.contentHash.or row.contentHash = row.contentHash then
      ∀ encoding ∈ op.contentEncoding, row.contentEncoding = some encoding
    else op.contentEncoding = none → row.contentEncoding = none)

instance (op : FileOp) (row : StoredFile) : Decidable (OpKeepsLabel op row) := by
  unfold OpKeepsLabel
  infer_instance

/-- The label of the row if the bytes are an uploaded blob, else none. -/
def blobLabel (s : Store) (hash : Option String) (row : StoredFile) :
    Option ContentEncryptionEncoding :=
  if (hash.bind s.getBlob).any fun blob => blob.state = .verified then row.contentEncoding
  else none

/-- The label of the row, or none for content without a blob, is that of the chosen content. -/
def ResolutionKeepsLabel (P : Platform) (s : Store) (input : ResolveInput)
    (conflict : ConflictRecord) (row : StoredFile)
    (uploaded : Option ContentEncryptionEncoding) : Prop :=
  (∀ text ∈ input.inlineText, row.contentHash = some (contentHashText P text) →
    row.contentEncoding = none) ∧
  (input.inlineText = none →
    blobLabel s input.resolvedHash row =
      if input.resolvedHash = row.contentHash then row.contentEncoding
      else chosenEncoding s input conflict uploaded)

instance (P : Platform) (s : Store) (input : ResolveInput) (conflict : ConflictRecord)
    (row : StoredFile) (uploaded : Option ContentEncryptionEncoding) :
    Decidable (ResolutionKeepsLabel P s input conflict row uploaded) := by
  unfold ResolutionKeepsLabel
  infer_instance

/-- What a call that goes through has to meet. -/
def KeepsLabel (P : Platform) (s : Store) : LabelEvent → Prop
  | ⟨.process now uuid op userId, _⟩ =>
    (accepted P now uuid op userId s).isSome = true → ∀ row ∈ opRow op s, OpKeepsLabel op row
  | ⟨.resolve _ input, uploaded⟩ =>
    ∀ r ∈ resolution P input s, ResolutionKeepsLabel P s input r.conflict r.file uploaded
  | _ => True

instance (P : Platform) (s : Store) : (e : LabelEvent) → Decidable (KeepsLabel P s e)
  | ⟨.process now uuid op userId, _⟩ =>
    inferInstanceAs (Decidable ((accepted P now uuid op userId s).isSome = true →
      ∀ row ∈ opRow op s, OpKeepsLabel op row))
  | ⟨.resolve _ input, uploaded⟩ =>
    inferInstanceAs (Decidable (∀ r ∈ resolution P input s,
      ResolutionKeepsLabel P s input r.conflict r.file uploaded))
  | ⟨.claim .., _⟩ | ⟨.release .., _⟩ | ⟨.saveDevice .., _⟩ | ⟨.setRole .., _⟩ |
    ⟨.saveBlob .., _⟩ | ⟨.putContent .., _⟩ => isTrue trivial

section

variable {P : Platform} {l : Labelled} {s : Store} {now : Time} {uuid : Uuid} {op : FileOp}
  {userId : Option String} {input : ResolveInput}

/-! ### The written row -/

/-- A call that writes no row leaves the labels and what was declared. -/
theorem labelsMatch_labelStep_of_none {e : LabelEvent}
    (hw : writtenFile P l.store e.call = none) :
    LabelsMatch (labelStep P l e) ↔ LabelsMatch l := by
  have hfiles := files_serverStep P l.store e.call
  rw [hw] at hfiles
  unfold LabelsMatch labelStep
  simp only [hw, hfiles]

/-- **The written row decides**: the others keep what they have. -/
theorem labelsMatch_labelStep_of_some (h : LabelsMatch l) {e : LabelEvent}
    {written : StoredFile} (hw : writtenFile P l.store e.call = some written) :
    LabelsMatch (labelStep P l e) ↔
      written.contentEncoding =
        if Introduces l.store e.call written then declaredBy l.store e
        else l.declared written.key := by
  have hfiles := files_serverStep P l.store e.call
  rw [hw] at hfiles
  have hself : (labelStep P l e).declared written.key =
      if Introduces l.store e.call written then declaredBy l.store e
      else l.declared written.key := by
    unfold labelStep
    simp only [hw]
    split
    · exact Function.update_self ..
    · rfl
  have hother : ∀ key, key ≠ written.key → (labelStep P l e).declared key = l.declared key := by
    intro key hkey
    unfold labelStep
    simp only [hw]
    split
    · exact Function.update_of_ne hkey ..
    · rfl
  have hrows : (labelStep P l e).store.files = l.store.files.set written := hfiles
  rw [← hself]
  constructor
  · intro hmatch
    exact hmatch written (by rw [hrows]; exact Table.mem_set_iff.mpr (Or.inl rfl))
  · intro hlabel row hrow
    rw [hrows] at hrow
    rcases Table.mem_set_iff.mp hrow with rfl | ⟨hold, hkey⟩
    · exact hlabel
    · rw [hother _ hkey]
      exact h row hold

/-- The same where the row replaces another one: the hash tells whether the call brings it. -/
theorem labelsMatch_labelStep_of_row (h : LabelsMatch l) {e : LabelEvent}
    {row written : StoredFile} (hw : writtenFile P l.store e.call = some written)
    (hrow : l.store.getFile written.vaultId written.fileId = some row)
    (hnew : row.deleted = true → e.call.isCreate = false) :
    LabelsMatch (labelStep P l e) ↔
      written.contentEncoding = if written.contentHash = row.contentHash then row.contentEncoding
        else declaredBy l.store e := by
  have hkey : row.key = written.key := Table.key_of_get? hrow
  have hintroduces : Introduces l.store e.call written ↔
      ¬ written.contentHash = row.contentHash := by
    unfold Introduces
    rw [hrow]
    constructor
    · intro hbrings hsame
      rcases hbrings row rfl with hne | ⟨hdead, hcreate⟩
      · exact hne hsame
      · rw [hnew hdead] at hcreate
        exact absurd hcreate (by decide)
    · rintro hne found hfound
      rw [← Option.some.inj hfound]
      exact Or.inl hne
  rw [labelsMatch_labelStep_of_some h hw, ← hkey, ← h row (Table.mem_of_get? hrow)]
  by_cases hsame : written.contentHash = row.contentHash
  · rw [if_pos hsame, if_neg (fun hbrings => hintroduces.mp hbrings hsame)]
  · rw [if_neg hsame, if_pos (hintroduces.mpr hsame)]

/-- A row with the hash and the label it had keeps its label. -/
theorem labelsMatch_labelStep_of_same (h : LabelsMatch l) {e : LabelEvent}
    {row written : StoredFile} (hw : writtenFile P l.store e.call = some written)
    (hrow : l.store.getFile written.vaultId written.fileId = some row)
    (hhash : written.contentHash = row.contentHash)
    (hlabel : written.contentEncoding = row.contentEncoding)
    (hnew : row.deleted = true → e.call.isCreate = false) : LabelsMatch (labelStep P l e) := by
  rw [labelsMatch_labelStep_of_row h hw hrow hnew, if_pos hhash]
  exact hlabel

/-! ### Ops -/

/-- A label that falls back to the stored one is right for the same content if it is the stored
one or none, and for new content if nothing is stored or it is some. -/
theorem or_eq_ite_iff {α : Type*} {label stored : Option α} {same : Prop} [Decidable same] :
    label.or stored = (if same then stored else label) ↔
      if same then ∀ a ∈ label, stored = some a else label = none → stored = none := by
  cases label with
  | none => by_cases hsame : same <;> simp [hsame]
  | some a => by_cases hsame : same <;> simp [hsame, eq_comm]

theorem opKeepsLabel_of_restore {row : StoredFile} (hkind : op.kind = .restore) :
    OpKeepsLabel op row ↔
      if op.contentHash.or row.contentHash = row.contentHash then
        ∀ encoding ∈ op.contentEncoding, row.contentEncoding = some encoding
      else op.contentEncoding = none → row.contentEncoding = none := by
  have hnot : ¬ Overwrites op row := by simp [Overwrites, hkind]
  exact ⟨fun hkeeps => hkeeps.2 hkind, fun hif => ⟨fun hw => absurd hw hnot, fun _ => hif⟩⟩

/-- **An accepted op keeps the labels** exactly if it keeps that of its row. -/
theorem labelsMatch_accepted_iff (h : LabelsMatch l) {applied : Applied}
    {uploaded : Option ContentEncryptionEncoding}
    (ha : accepted P now uuid op userId l.store = some applied) :
    LabelsMatch (labelStep P l ⟨.process now uuid op userId, uploaded⟩) ↔
      ∀ row ∈ opRow op l.store, OpKeepsLabel op row := by
  have hw : writtenFile P l.store (.process now uuid op userId) = some applied.file := by
    rw [writtenFile, ha]
    rfl
  have honly : ∀ {found : StoredFile}, opRow op l.store = some found →
      ((∀ row ∈ opRow op l.store, OpKeepsLabel op row) ↔ OpKeepsLabel op found) := by
    intro found hfound
    rw [hfound]
    simp
  have hother : ∀ {row : StoredFile}, ¬ Overwrites op row → op.kind ≠ .restore →
      OpKeepsLabel op row := fun hnot hkind => ⟨fun h => absurd h hnot, fun h => absurd h hkind⟩
  have hspec := accepted_spec ha
  have hkey := key_of_effect hspec.effect
  have hget : ∀ {found : StoredFile}, opRow op l.store = some found →
      l.store.getFile applied.file.vaultId applied.file.fileId = some found := by
    intro found hfound
    rw [show applied.file.vaultId = op.vaultId from congrArg Prod.fst hkey,
      show applied.file.fileId = op.fileId from congrArg Prod.snd hkey]
    exact hfound
  -- an op other than a create makes no row from scratch
  have hnew : op.kind ≠ .create → ∀ found : StoredFile, found.deleted = true →
      (ServerEvent.process now uuid op userId).isCreate = false :=
    fun hkind _ _ => decide_eq_false hkind
  cases hspec.effect with
  | @created desired path tx kind dead canonical unique conflicts =>
    have hintroduces : Introduces l.store (.process now uuid op userId)
        (newStoredFile P now op path
          (op.pathClock.getD { lamport := 1, deviceId := op.deviceId })) :=
      fun row hrow => Or.inr ⟨dead row hrow, decide_eq_true kind⟩
    refine iff_of_true ((labelsMatch_labelStep_of_some h hw).mpr ?_) fun row hrow => hother ?_ ?_
    · rw [if_pos hintroduces]
      rfl
    · rintro ⟨⟨-, hlive⟩ | hkind, -⟩
      · exact absurd (dead row hrow) (by rw [hlive]; decide)
      · exact absurd (kind.symm.trans hkind) (by decide)
    · rw [kind]
      decide
  | @updated row tx found kind dominates conflicts =>
    have hscratch : row.deleted = true →
        (ServerEvent.process now uuid op userId).isCreate = false := by
      intro hdead
      rcases kind with ⟨-, hlive⟩ | hkind
      · exact absurd hdead (by rw [hlive]; decide)
      · exact hnew (by rw [hkind]; decide) row hdead
    have hrestore : op.kind ≠ .restore := by
      rcases kind with ⟨hkind, -⟩ | hkind <;> rw [hkind] <;> decide
    rw [labelsMatch_labelStep_of_row h hw (hget found) hscratch, honly found]
    change op.contentEncoding = (if (op.contentHash.or op.blobRef).or row.contentHash
      = row.contentHash then row.contentEncoding else op.contentEncoding) ↔ _
    constructor
    · refine fun hlabel => ⟨fun _ hsame => ?_, fun hkind => absurd hkind hrestore⟩
      rwa [if_pos hsame] at hlabel
    · intro hkeeps
      split
      · next hsame => exact hkeeps.1 ⟨kind, dominates⟩ hsame
      · rfl
  | @conflicted row tx found kind concurrent conflicts =>
    refine iff_of_true (labelsMatch_labelStep_of_same h hw (hget found) rfl rfl ?_)
      ((honly found).mpr (hother ?_ ?_))
    · intro hdead
      rcases kind with ⟨-, hlive⟩ | hkind
      · exact absurd hdead (by rw [hlive]; decide)
      · exact hnew (by rw [hkind]; decide) row hdead
    · rintro ⟨-, hdom⟩
      rw [(VersionVector.isConcurrent_iff.mp concurrent).1] at hdom
      exact absurd hdom (by decide)
    · rcases kind with ⟨hkind, -⟩ | hkind <;> rw [hkind] <;> decide
  | lostRename found kind clock_eq loses conflicts =>
    exact iff_of_true
      (labelsMatch_labelStep_of_same h hw (hget found) rfl rfl (hnew (by simp [kind]) _))
      ((honly found).mpr (hother (by simp [Overwrites, kind]) (by simp [kind])))
  | renamed found kind clock_eq wins canonical unique conflicts =>
    exact iff_of_true
      (labelsMatch_labelStep_of_same h hw (hget found) rfl rfl (hnew (by simp [kind]) _))
      ((honly found).mpr (hother (by simp [Overwrites, kind]) (by simp [kind])))
  | deleted found kind conflicts =>
    exact iff_of_true
      (labelsMatch_labelStep_of_same h hw (hget found) rfl rfl (hnew (by simp [kind]) _))
      ((honly found).mpr (hother (by simp [Overwrites, kind]) (by simp [kind])))
  | restored found kind canonical unique conflicts =>
    rw [labelsMatch_labelStep_of_row h hw (hget found) (hnew (by simp [kind]) _), honly found,
      opKeepsLabel_of_restore kind]
    exact or_eq_ite_iff

/-! ### Resolutions -/

/-- The label a resolution by hash writes. -/
theorem contentEncoding_resolvedFile {conflict : ConflictRecord} {content : ResolvedContent}
    {row : StoredFile} (hinline : input.inlineText = none)
    (hcontent : ChosenContent P input conflict s content) :
    (resolvedFile now input conflict content row).contentEncoding
      = blobLabel s input.resolvedHash row := by
  cases hcontent with
  | text inline => exact absurd (inline.symm.trans hinline) (Option.some_ne_none _)
  | blob inline resolved ne allowed get verified =>
    simp [resolvedFile, blobLabel, resolved, get, verified, ne]
  | @kept hash bytes inline resolved ne allowed unverified get =>
    have hnone : ((s.getBlob hash).any fun blob => blob.state = .verified) = false := by
      cases hblob : s.getBlob hash with
      | none => rfl
      | some blob => simpa [hblob, Option.filter_some] using unverified
    simp [resolvedFile, blobLabel, resolved, hnone]

/-- **A resolution keeps the labels** exactly if the label it leaves on the row is that of the
chosen content. -/
theorem labelsMatch_resolution_iff (h : LabelsMatch l) {r : Resolution}
    {uploaded : Option ContentEncryptionEncoding} (hr : resolution P input l.store = some r) :
    LabelsMatch (labelStep P l ⟨.resolve now input, uploaded⟩) ↔
      ResolutionKeepsLabel P l.store input r.conflict r.file uploaded := by
  obtain ⟨hget, -, hfile, -⟩ := resolve_of_resolution now hr
  have hkey : r.file.key = (r.conflict.vaultId, r.conflict.fileId) := Table.key_of_get? hfile
  have hrow : l.store.getFile (resolvedFile now input r.conflict r.content r.file).vaultId
      (resolvedFile now input r.conflict r.content r.file).fileId = some r.file := by
    change l.store.getFile r.file.vaultId r.file.fileId = some r.file
    rw [show r.file.vaultId = r.conflict.vaultId from congrArg Prod.fst hkey,
      show r.file.fileId = r.conflict.fileId from congrArg Prod.snd hkey]
    exact hfile
  have hw : writtenFile P l.store (.resolve now input)
      = some (resolvedFile now input r.conflict r.content r.file) := by
    rw [writtenFile, hr]
    rfl
  have hcontent := chosen_of_checkResolvedContent (checked_of_resolution hr).2
  have hdeclared : declaredBy l.store ⟨.resolve now input, uploaded⟩ =
      if input.inlineText.isSome then none
      else chosenEncoding l.store input r.conflict uploaded := by
    unfold declaredBy
    simp only [hget]
  rw [labelsMatch_labelStep_of_row h hw hrow (fun _ => rfl), hdeclared]
  have hhash : (resolvedFile now input r.conflict r.content r.file).contentHash
      = some r.content.hash := rfl
  rw [hhash]
  unfold ResolutionKeepsLabel
  cases hinline : input.inlineText with
  | some text =>
    obtain ⟨hblob, htext⟩ := hcontent.of_text hinline
    have hlabel :
        (resolvedFile now input r.conflict r.content r.file).contentEncoding = none := by
      simp [resolvedFile, hblob]
    rw [hlabel, htext]
    by_cases hsame : r.file.contentHash = some (contentHashText P text)
    · simp [hsame, eq_comm]
    · simp [hsame, Ne.symm hsame]
  | none =>
    have hresolved := hcontent.of_hash hinline
    rw [contentEncoding_resolvedFile hinline hcontent, hresolved]
    simp

/-! ### Runs -/

/-- **A call keeps the labels** exactly if it meets the condition. -/
theorem labelsMatch_labelStep_iff (h : LabelsMatch l) (e : LabelEvent) :
    LabelsMatch (labelStep P l e) ↔ KeepsLabel P l.store e := by
  have hnone : writtenFile P l.store e.call = none → KeepsLabel P l.store e →
      (LabelsMatch (labelStep P l e) ↔ KeepsLabel P l.store e) :=
    fun hw hkeeps => iff_of_true ((labelsMatch_labelStep_of_none hw).mpr h) hkeeps
  obtain ⟨call, uploaded⟩ := e
  cases call with
  | process now uuid op userId =>
    cases ha : accepted P now uuid op userId l.store with
    | none =>
      refine hnone (by rw [writtenFile, ha]; rfl) fun haccepted => ?_
      rw [ha] at haccepted
      exact absurd haccepted (by decide)
    | some applied =>
      rw [labelsMatch_accepted_iff h ha]
      exact ⟨fun hkeeps _ => hkeeps, fun hkeeps => hkeeps (by rw [ha]; rfl)⟩
  | resolve now input =>
    cases hr : resolution P input l.store with
    | none =>
      refine hnone (by rw [writtenFile, hr]; rfl) fun r hsome => ?_
      rw [hr] at hsome
      exact absurd hsome (Option.not_mem_none r)
    | some r =>
      rw [labelsMatch_resolution_iff h hr]
      refine ⟨fun hkeeps r' hr' => ?_, fun hkeeps => hkeeps r hr⟩
      rwa [← Option.some.inj (hr.symm.trans hr')]
  | claim vaultId userId deviceId conflictId => exact hnone rfl trivial
  | release vaultId userId deviceId conflictId => exact hnone rfl trivial
  | saveDevice device => exact hnone rfl trivial
  | setRole vaultId userId role => exact hnone rfl trivial
  | saveBlob blob => exact hnone rfl trivial
  | putContent hash bytes => exact hnone rfl trivial

/-- **The labels match in every state of a run** exactly if every op of it that leaves the row
its hash leaves the label, every op that brings a hash brings the label, and every resolution
chooses content with the label it leaves. -/
theorem labelsMatch_iff_keepsLabel (h : LabelsMatch l) (es : List LabelEvent) :
    Run.Throughout (labelStep P) LabelsMatch l es ↔
      Run.EachStep (labelStep P) (fun l e => KeepsLabel P l.store e) l es :=
  Run.throughout_iff_eachStep (I := fun _ => True) (fun _ _ _ => trivial)
    (fun _ e _ hmatch => labelsMatch_labelStep_iff hmatch e) es trivial h

end

/-- Bytes a device has encrypted. -/
def sampleEncoding : ContentEncryptionEncoding :=
  { algorithm := "aes-256-gcm-pbkdf2-sha256-convergent-v1", version := 1 }

/-- A content op of an attachment from an uploaded blob. -/
def blobOp (kind : OpKind) (deviceId : String) (digit : Char)
    (encoding : Option ContentEncryptionEncoding) : FileOp :=
  { opId := deviceId, deviceId, deviceSeq := 1, fileId := "f", vaultId := "v", kind,
    type := .attachment, newPath := some "a.png", newContentVV := some (sampleVV deviceId 1),
    contentHash := some (sampleBlobHash digit), blobRef := some (sampleBlobHash digit),
    size := some 10, contentEncoding := encoding }

/-- An encrypted version of an attachment meets a plain one, and the first device chooses. -/
def choosesSide (digit : Char) : List LabelEvent :=
  [⟨.saveBlob { hash := sampleBlobHash 'a', size := 10, state := .verified }, none⟩,
   ⟨.saveBlob { hash := sampleBlobHash 'b', size := 10, state := .verified }, none⟩,
   ⟨.process 1 (sampleId 0) (blobOp .create "d1" 'a' (some sampleEncoding)) (some "u"), none⟩,
   ⟨.process 2 (sampleId 1) (blobOp .update "d2" 'b' none) (some "u"), none⟩,
   ⟨.claim "v" "u" "d1" (sampleId 1).1, none⟩,
   ⟨.resolve 3
      { vaultId := "v", userId := "u", conflictId := (sampleId 1).1, deviceId := "d1",
        resolvedHash := some (sampleBlobHash digit), resolvedVV := .empty }, none⟩]

/-- A vault without files. -/
def unlabelled : Labelled := { store := sampleStore, declared := fun _ => none }

/-- The side of the file keeps its label. -/
theorem labelsMatch_choosesSide_ours :
    Run.Throughout (labelStep samplePlatform) LabelsMatch unlabelled (choosesSide 'a') :=
  (labelsMatch_iff_keepsLabel (by decide +kernel) _).mpr (by decide +kernel)

/-- The other side gets the label of the file: plain bytes are marked as encrypted. -/
theorem not_labelsMatch_choosesSide_theirs :
    ¬ Run.Throughout (labelStep samplePlatform) LabelsMatch unlabelled (choosesSide 'b') := by
  intro h
  have hfinal : ∃ row ∈ (Run.final (labelStep samplePlatform) unlabelled
      (choosesSide 'b')).store.files.rows, row.contentHash = some (sampleBlobHash 'b') ∧
        row.contentEncoding = some sampleEncoding ∧
        (Run.final (labelStep samplePlatform) unlabelled (choosesSide 'b')).declared row.key
          = none := by
    decide +kernel
  obtain ⟨row, hrow, -, hlabel, hdeclared⟩ := hfinal
  have hmatch := h.final row hrow
  rw [hlabel, hdeclared] at hmatch
  exact absurd hmatch (by decide)

end ObsidianSync
