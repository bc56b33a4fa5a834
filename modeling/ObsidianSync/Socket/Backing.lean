import ObsidianSync.Socket.Hashes

/-!
# The bytes behind a row

A row names its content by hash, and the bytes are text that was kept inline or a verified
blob.  An op is checked for them only where it declares a content hash, and then only for its
blob, while the row takes the declared hash before the blob; and the collector looks at the
references, which follow the blob.

## Main definitions

* `Backed` — every row with a hash has bytes behind it.
* `BlobEvent`, `blobStep` — uploads, ops, resolutions and collections.
* `KeepsBacked` — the op names a hash that has bytes, or brings them; the collection
  touches no blob a row rests on.

## Main results

* `backed_blobStep_iff` — a step keeps rows backed exactly under the condition.
* `backed_iff_keepsBacked` — **rows are backed throughout a run exactly where every step
  meets it.**
-/

namespace ObsidianSync

/-! ### Bytes behind a hash -/

/-- There are bytes for the hash: kept text, or a verified blob. -/
def Store.backs (s : Store) (hash : String) : Bool :=
  (s.getContent hash).isSome || s.blobVerified hash

/-- Every row that names a hash has bytes behind it, live or in the trash. -/
def Backed (s : Store) : Prop :=
  ∀ file ∈ s.files.rows, ∀ hash ∈ file.contentHash, s.backs hash = true

instance (s : Store) : Decidable (Backed s) :=
  inferInstanceAs (Decidable (∀ file ∈ s.files.rows, ∀ hash ∈ file.contentHash,
    s.backs hash = true))

/-- What happens to blobs and rows: an announced and a completed upload, the latter with
whatever the bucket holds then, an op, a claim or resolution of a conflict, a collection. -/
inductive BlobEvent
  | initUpload (hash : String) (size : ℕ)
  | completeUpload (hash : String) (objects : Bucket)
  | process (now : Time) (uuid : Uuid) (op : FileOp) (userId : Option String)
  | claim (vaultId userId deviceId conflictId : String)
  | release (vaultId userId deviceId conflictId : String)
  | resolve (now : Time) (input : ResolveInput)
  | gcUnreferenced (minAgeMs : ℤ) (now : Time)

/-- The store after an event. -/
def blobStep (P : Platform) (s : Store) : BlobEvent → Store
  | .initUpload hash size => (initUpload hash size s).2
  | .completeUpload hash objects => (completeUpload P hash objects s).2
  | .process now uuid op userId => (process P now uuid op userId s).2
  | .claim vaultId userId deviceId conflictId => (claim vaultId userId deviceId conflictId s).2
  | .release vaultId userId deviceId conflictId =>
    (release vaultId userId deviceId conflictId s).2
  | .resolve now input => (resolve P now input s).2
  | .gcUnreferenced minAgeMs now => (gcUnreferenced minAgeMs now s).2

/-! ### The condition -/

/-- The hash under which an op writes the content of its row, where it writes it and names
one.  A restore takes no blob for a hash. -/
def writtenHash (op : FileOp) (row : Option StoredFile) : Option String :=
  let named := op.contentHash.or op.blobRef
  match op.kind, row with
  | .create, none => named
  | .create, some file =>
    if file.deleted || VersionVector.dominates (declaredVV op) file.contentVV then named else none
  | .update, some file =>
    if VersionVector.dominates (declaredVV op) file.contentVV then named else none
  | .restore, some _ => op.contentHash
  | _, _ => none

/-- Whether the op brings the text of the hash. -/
def FileOp.brings (op : FileOp) (hash : String) : Bool :=
  op.kind.isContent && op.inlineText.isSome && (op.contentHash = some hash && hash ≠ "")

/-- Whether a collection passes the blob of a hash by: it has references, or its mark is not
old enough. -/
def spares (minAgeMs : ℤ) (now : Time) (s : Store) (hash : String) : Bool :=
  !(s.listBlobRefs hash).isEmpty ||
    (s.getBlob hash).any fun blob => blob.unreferencedAt.any fun markTime =>
      (now : ℤ) - markTime < minAgeMs

/-- An op that goes through writes a hash with bytes behind it, or brings them; a collection
passes by the blobs of the rows without kept text. -/
def KeepsBacked (P : Platform) (s : Store) : BlobEvent → Prop
  | .process now uuid op userId => (accepted P now uuid op userId s).isSome = true →
    ∀ hash ∈ writtenHash op (opRow op s), s.backs hash = true ∨ op.brings hash = true
  | .gcUnreferenced minAgeMs now => ∀ file ∈ s.files.rows, ∀ hash ∈ file.contentHash,
    s.getContent hash = none → spares minAgeMs now s hash = true
  | _ => True

instance (P : Platform) (s : Store) : (e : BlobEvent) → Decidable (KeepsBacked P s e)
  | .process now uuid op userId =>
    inferInstanceAs (Decidable ((accepted P now uuid op userId s).isSome = true →
      ∀ hash ∈ writtenHash op (opRow op s), s.backs hash = true ∨ op.brings hash = true))
  | .gcUnreferenced minAgeMs now =>
    inferInstanceAs (Decidable (∀ file ∈ s.files.rows, ∀ hash ∈ file.contentHash,
      s.getContent hash = none → spares minAgeMs now s hash = true))
  | .initUpload .. | .completeUpload .. | .claim .. | .release .. | .resolve .. =>
    isTrue trivial

/-! ### Uploads and claims -/

section

variable {P : Platform} {s t : Store} {hash : String}

theorem backs_congr (hcontent : t.content = s.content) (hblobs : t.blobs = s.blobs)
    (hash : String) : t.backs hash = s.backs hash := by
  simp only [Store.backs, Store.getContent, Store.blobVerified, Store.getBlob, hcontent, hblobs]

/-- The rows stay backed where they are the same and no bytes are lost. -/
theorem Backed.of_files (h : Backed s) (hfiles : t.files = s.files)
    (hbacks : ∀ hash, s.backs hash = true → t.backs hash = true) : Backed t := by
  intro file hfile hash hhash
  rw [hfiles] at hfile
  exact hbacks hash (h file hfile hash hhash)

/-- Saving a blob loses no bytes if it is verified or the one before was not. -/
theorem backs_saveBlob {blob : BlobRecord}
    (hblob : blob.state = .verified ∨ s.blobVerified blob.hash = false)
    (h : s.backs hash = true) : (s.saveBlob blob).backs hash = true := by
  rw [Store.backs, Bool.or_eq_true] at h ⊢
  rcases h with hkept | hverified
  · exact Or.inl hkept
  refine Or.inr ?_
  rw [Store.blobVerified, Store.getBlob, Store.saveBlob, Table.get?_set]
  split
  next hkey =>
    rcases hblob with hblob | hblob
    · simp [hblob]
    · rw [hkey, hverified] at hblob
      simp at hblob
  next => exact hverified

theorem backed_initUpload (h : Backed s) (hash : String) (size : ℕ) :
    Backed (initUpload hash size s).2 := by
  unfold initUpload
  split
  · exact h
  split
  · exact h
  next hverified =>
  have hverified : s.blobVerified hash = false := by simpa using hverified
  dsimp only
  split
  · exact h
  -- the record of the hash, or a new one
  have hhash : ((s.getBlob hash).getD { hash, size, state := .pending }).hash = hash := by
    cases hblob : s.getBlob hash with
    | none => rfl
    | some blob =>
      have hkey : blob.hash = hash := Table.key_of_get? hblob
      exact hkey
  refine h.of_files rfl fun other hother => backs_saveBlob (Or.inr ?_) hother
  rw [hhash]
  exact hverified

theorem backed_completeUpload (h : Backed s) (hash : String) (objects : Bucket) :
    Backed (completeUpload P hash objects s).2 := by
  unfold completeUpload
  split
  · exact h
  split
  · exact h
  split
  · exact h
  split
  · exact h
  split
  · exact h
  · exact h.of_files rfl fun other hother => backs_saveBlob (Or.inl rfl) hother

theorem backed_claim (h : Backed s) (vaultId userId deviceId conflictId : String) :
    Backed (claim vaultId userId deviceId conflictId s).2 := by
  rcases claim_cases vaultId userId deviceId conflictId s with hs | ⟨_, _, -, -, -, hs⟩ <;> rw [hs]
  · exact h
  · exact h.of_files rfl fun _ => id

theorem backed_release (h : Backed s) (vaultId userId deviceId conflictId : String) :
    Backed (release vaultId userId deviceId conflictId s).2 := by
  rcases release_cases vaultId userId deviceId conflictId s with hs | ⟨_, _, -, -, -, hs⟩ <;>
    rw [hs]
  · exact h
  · exact h.of_files rfl fun _ => id

/-! ### Collections -/

/-- A collection changes the blobs only, each by itself. -/
theorem gcUnreferenced_eq (minAgeMs : ℤ) (now : Time) (s : Store) :
    (gcUnreferenced minAgeMs now s).2 = { s with
      blobs := s.blobs.rows.foldl
        (fun blobs blob => (collected minAgeMs now s blob).elim blobs blobs.set) s.blobs } := by
  -- the saved records come out of the list of removed ones
  have hsaved : (gcUnreferenced minAgeMs now s).2 = s.blobs.rows.foldl
      (fun data blob => (collected minAgeMs now data blob).elim data data.saveBlob) s := by
    unfold gcUnreferenced
    rw [← List.foldl_hom Prod.snd]
    intro result blob
    dsimp only
    cases collected minAgeMs now result.2 blob <;> rfl
  rw [hsaved]
  -- the references a collection looks at stay as they are
  refine List.foldl_hom (fun blobs : Table BlobRecord.hash => { s with blobs }) ?_
  intro blobs blob
  have hsame : collected minAgeMs now { s with blobs } blob = collected minAgeMs now s blob := rfl
  rw [hsame]
  cases collected minAgeMs now s blob <;> rfl

theorem hash_of_collected {minAgeMs : ℤ} {now : Time} (blob saved : BlobRecord)
    (h : collected minAgeMs now s blob = some saved) :
    saved.hash = blob.hash ∧ saved.state ≠ .verified := by
  unfold collected at h
  split at h
  · simp at h
  split at h
  · obtain rfl := Option.some.inj h
    simp
  · split at h
    · obtain rfl := Option.some.inj h
      simp
    · simp at h

/-- A blob is verified after a collection if it was and is passed by. -/
theorem blobVerified_gcUnreferenced (minAgeMs : ℤ) (now : Time) (s : Store) (hash : String) :
    (gcUnreferenced minAgeMs now s).2.blobVerified hash
      = (s.blobVerified hash && spares minAgeMs now s hash) := by
  rw [gcUnreferenced_eq, Store.blobVerified, Store.getBlob,
    Table.get?_foldl_set_rows fun blob saved h => (hash_of_collected blob saved h).1,
    Store.blobVerified, spares, Store.getBlob]
  cases hblob : s.blobs.get? hash with
  | none => rfl
  | some blob =>
    have hhash : blob.hash = hash := Table.key_of_get? hblob
    simp only [Option.map_some, Option.any_some, collected, hhash]
    cases hrefs : (s.listBlobRefs hash).isEmpty with
    | false => simp
    | true =>
      by_cases hdeleted : blob.state = .deleted
      · simp [hdeleted]
      cases hmark : blob.unreferencedAt with
      | none => simp [hdeleted]
      | some markTime =>
        by_cases hage : (now : ℤ) - markTime ≥ minAgeMs
        · simp [hdeleted, hage, not_lt.mpr hage]
        · simp [hdeleted, hage, not_le.mp hage]

theorem backed_gcUnreferenced_iff (h : Backed s) (minAgeMs : ℤ) (now : Time) :
    Backed (gcUnreferenced minAgeMs now s).2 ↔
      ∀ file ∈ s.files.rows, ∀ hash ∈ file.contentHash, s.getContent hash = none →
        spares minAgeMs now s hash = true := by
  have hfiles : (gcUnreferenced minAgeMs now s).2.files = s.files := by rw [gcUnreferenced_eq]
  have hcontent : ∀ hash,
      (gcUnreferenced minAgeMs now s).2.getContent hash = s.getContent hash := by
    intro hash
    rw [gcUnreferenced_eq]
    rfl
  rw [Backed, hfiles]
  refine forall₂_congr fun file hfile => forall₂_congr fun hash hhash => ?_
  have hbacks := h file hfile hash hhash
  rw [Store.backs] at hbacks
  rw [Store.backs, hcontent, blobVerified_gcUnreferenced]
  cases hget : s.getContent hash with
  | some bytes => simp
  | none =>
    have hverified : s.blobVerified hash = true := by simpa [hget] using hbacks
    simp [hverified]

/-! ### Ops and resolutions -/

section

variable {now : Time} {uuid : Uuid} {op : FileOp} {userId : Option String} {applied : Applied}

theorem backs_putContent (declared : String) (bytes : Bytes) :
    (s.putContent declared bytes).backs hash = true ↔ s.backs hash = true ∨ declared = hash := by
  have hget : (s.putContent declared bytes).getContent hash
      = if declared = hash then some bytes else s.getContent hash := by
    rw [Store.getContent, Store.putContent, Table.get?_set]
    split <;> rfl
  have hverified : (s.putContent declared bytes).blobVerified hash = s.blobVerified hash := rfl
  rw [Store.backs, hget, hverified, Store.backs]
  by_cases hkey : declared = hash <;> simp [hkey]

/-- The text of a payload is kept under its hash. -/
theorem backs_checkedContent :
    (checkedContent op s).backs hash = true ↔ s.backs hash = true ∨ op.brings hash = true := by
  unfold checkedContent FileOp.brings
  cases htext : op.inlineText with
  | none => simp
  | some text =>
    cases hdeclared : op.contentHash with
    | none => simp
    | some declared =>
      cases hkind : op.kind.isContent with
      | false => simp
      | true =>
        by_cases hempty : declared = ""
        · subst hempty
          rcases eq_or_ne hash "" with rfl | hne
          · simp
          · simp [hne.symm]
        · simp only [truthy_some, ne_eq, hempty, not_false_eq_true, decide_true, Bool.and_self,
            if_true, Option.getD_some, backs_putContent, Option.isSome_some, Bool.true_and,
            Option.some.injEq, Bool.and_eq_true, decide_eq_true_eq]
          refine or_congr_right ⟨?_, fun h => h.1⟩
          rintro rfl
          exact ⟨rfl, hempty⟩

/-- The hash an op writes is the hash of its row then. -/
theorem contentHash_of_writtenHash (h : Effect P now uuid op s applied)
    (hhash : hash ∈ writtenHash op (opRow op s)) : applied.file.contentHash = some hash := by
  cases h with
  | created kind dead =>
    have hnamed : op.contentHash.or op.blobRef = some hash := by
      cases hrow : opRow op s with
      | none => simpa [writtenHash, kind, hrow] using hhash
      | some row => simpa [writtenHash, kind, hrow, dead row hrow] using hhash
    exact hnamed
  | updated row kind hdom =>
    have hnamed : op.contentHash.or op.blobRef = some hash := by
      rcases kind with ⟨kind, -⟩ | kind <;> simpa [writtenHash, kind, row, hdom] using hhash
    simp [updatedFile, hnamed]
  | conflicted row kind hconcurrent =>
    obtain ⟨hbelow, -⟩ := VersionVector.isConcurrent_iff.mp hconcurrent
    rcases kind with ⟨kind, hlive⟩ | kind
    · simp [writtenHash, kind, row, hbelow, hlive] at hhash
    · simp [writtenHash, kind, row, hbelow] at hhash
  | lostRename row kind | renamed row kind | deleted row kind =>
    simp [writtenHash, kind] at hhash
  | restored row kind =>
    have hnamed : op.contentHash = some hash := by simpa [writtenHash, kind, row] using hhash
    simp [restoredFile, hnamed]

/-- Where an op writes no hash, its row has none or keeps its own. -/
theorem contentHash_of_effect (h : Effect P now uuid op s applied)
    (hnone : writtenHash op (opRow op s) = none) (hhash : applied.file.contentHash = some hash) :
    ∃ row ∈ opRow op s, row.contentHash = some hash := by
  cases h with
  | created kind dead =>
    have hnamed : op.contentHash.or op.blobRef = none := by
      cases hrow : opRow op s with
      | none => simpa [writtenHash, kind, hrow] using hnone
      | some row => simpa [writtenHash, kind, hrow, dead row hrow] using hnone
    simp [newStoredFile, hnamed] at hhash
  | updated row kind hdom =>
    have hnamed : op.contentHash.or op.blobRef = none := by
      rcases kind with ⟨kind, -⟩ | kind <;> simpa [writtenHash, kind, row, hdom] using hnone
    exact ⟨_, row, by simpa [updatedFile, hnamed] using hhash⟩
  | conflicted row | lostRename row | renamed row | deleted row => exact ⟨_, row, hhash⟩
  | restored row kind =>
    have hnamed : op.contentHash = none := by simpa [writtenHash, kind, row] using hnone
    exact ⟨_, row, by simpa [restoredFile, hnamed] using hhash⟩

theorem blobs_checkedContent (op : FileOp) (s : Store) : (checkedContent op s).blobs = s.blobs :=
  (frame_checkedContent op s).1.blobs

/-- **An op leaves the rows backed exactly where the hash it writes has bytes behind it, or
the op brings them.** -/
theorem backed_process_iff (h : Backed s) :
    Backed (process P now uuid op userId s).2 ↔
      ((accepted P now uuid op userId s).isSome = true →
        ∀ hash ∈ writtenHash op (opRow op s), s.backs hash = true ∨ op.brings hash = true) := by
  cases ha : accepted P now uuid op userId s with
  | none =>
    refine iff_of_true ?_ (by simp)
    have hfiles := (frame_of_not_accepted ha).1.files
    refine h.of_files hfiles fun hash hhash => ?_
    rcases process_of_not_accepted ha with hs | ⟨hs, -⟩
    · rwa [hs]
    · rw [hs, backs_checkedContent]
      exact Or.inl hhash
  | some applied =>
    have hspec := accepted_spec ha
    have hbacks : ∀ hash, (commit now op (opDevice op s) applied).2.backs hash = true ↔
        s.backs hash = true ∨ op.brings hash = true := by
      intro hash
      rw [← backs_checkedContent]
      refine Bool.eq_iff_iff.mp (backs_congr ?_ ?_ hash)
      · rw [commit_content, hspec.content]
      · rw [commit_blobs, hspec.frame.blobs, blobs_checkedContent]
    rw [process_of_accepted ha]
    constructor
    · intro hafter _ hash hhash
      refine (hbacks hash).mp (hafter applied.file ?_ hash ?_)
      · exact (mem_files_commit _ hspec.effect hspec.frame).mpr (Or.inl rfl)
      · exact contentHash_of_writtenHash hspec.effect hhash
    · intro hwritten file hfile hash hhash
      rw [hbacks]
      rcases (mem_files_commit _ hspec.effect hspec.frame).mp hfile with rfl | ⟨hfile, -⟩
      · cases hw : writtenHash op (opRow op s) with
        | some written =>
          have hsame := contentHash_of_writtenHash hspec.effect hw
          obtain rfl : written = hash := Option.some.inj (hsame.symm.trans hhash)
          exact hwritten rfl written hw
        | none =>
          obtain ⟨row, hrow, hrowHash⟩ := contentHash_of_effect hspec.effect hw hhash
          exact Or.inl (h row (Table.mem_of_get? hrow) hash hrowHash)
      · exact Or.inl (h file hfile hash hhash)

/-- What a resolution writes has bytes behind it: its text, a verified blob or kept text. -/
theorem backs_of_checkResolvedContent {input : ResolveInput} {conflict : ConflictRecord}
    {content : ResolvedContent} (hcheck : checkResolvedContent P input conflict s = .ok content) :
    (resolutionText input content s).backs content.hash = true := by
  unfold resolutionText
  cases chosen_of_checkResolvedContent hcheck with
  | text inline =>
    rw [inline]
    exact (backs_putContent _ _).mpr (Or.inr rfl)
  | blob inline resolved ne allowed get verified =>
    rw [inline]
    simp only [Store.backs, Store.blobVerified, get, Option.any_some, verified, decide_true,
      Bool.or_true]
  | kept inline resolved ne allowed unverified get =>
    rw [inline]
    simp only [Store.backs, get, Option.isSome_some, Bool.true_or]

theorem backed_resolve (h : Backed s) (now : Time) (input : ResolveInput) :
    Backed (resolve P now input s).2 := by
  cases hr : resolution P input s with
  | none => rwa [resolve_of_no_resolution hr]
  | some r =>
    obtain ⟨-, -, -, hs⟩ := resolve_of_resolution now hr
    have hrefs := refsOnly_resolutionRefs input r.conflict r.content r.file s
    have hbacks : ∀ hash, (resolve P now input s).2.backs hash
        = (resolutionText input r.content s).backs hash := by
      intro hash
      rw [hs]
      exact backs_congr hrefs.content hrefs.frame.blobs hash
    intro file hfile hash hhash
    rw [hbacks]
    rw [hs] at hfile
    rcases Table.mem_set_iff.mp hfile with rfl | ⟨hfile, -⟩
    · obtain rfl : r.content.hash = hash := Option.some.inj hhash
      exact backs_of_checkResolvedContent (checked_of_resolution hr).2
    · have hbefore := h file hfile hash hhash
      unfold resolutionText
      split
      · exact (backs_putContent _ _).mpr (Or.inl hbefore)
      · exact hbefore

end

/-! ### Runs -/

/-- A step keeps the rows backed exactly under the condition. -/
theorem backed_blobStep_iff (h : Backed s) (e : BlobEvent) :
    Backed (blobStep P s e) ↔ KeepsBacked P s e := by
  cases e with
  | initUpload hash size => exact iff_of_true (backed_initUpload h hash size) trivial
  | completeUpload hash objects => exact iff_of_true (backed_completeUpload h hash objects) trivial
  | process now uuid op userId => exact backed_process_iff h
  | claim vaultId userId deviceId conflictId =>
    exact iff_of_true (backed_claim h vaultId userId deviceId conflictId) trivial
  | release vaultId userId deviceId conflictId =>
    exact iff_of_true (backed_release h vaultId userId deviceId conflictId) trivial
  | resolve now input => exact iff_of_true (backed_resolve h now input) trivial
  | gcUnreferenced minAgeMs now => exact backed_gcUnreferenced_iff h minAgeMs now

/-- **Rows have bytes behind them in every state of a run exactly where every op of it writes a
hash that has, and every collection passes by the blobs the rows rest on.** -/
theorem backed_iff_keepsBacked (P : Platform) (hs : Backed s) (es : List BlobEvent) :
    Run.Throughout (blobStep P) Backed s es ↔ Run.EachStep (blobStep P) (KeepsBacked P) s es :=
  Run.throughout_iff_eachStep (I := fun _ => True) (fun _ _ _ => trivial)
    (fun _ e _ h => backed_blobStep_iff h e) es trivial hs

end

/-! ### A blob that was never uploaded -/

/-- The hash of the attachment of the sample runs. -/
def attachmentHash : String := contentHashText samplePlatform "one"

/-- The create of an attachment. -/
def attachmentCreate : FileOp :=
  { opId := "o1", deviceId := "d1", deviceSeq := 1, fileId := "f1", vaultId := "v"
    kind := .create, type := .attachment, newContentVV := some (sampleVV "d1" 1)
    size := some 3, blobRef := some attachmentHash, newPath := some "a.bin" }

/-- An attachment is uploaded and created with its hash, and collections leave it until an
update by text has taken its place. -/
def attachmentRun : List BlobEvent :=
  [.initUpload attachmentHash 3,
   .completeUpload attachmentHash (Table.empty.set (attachmentHash, encodeText "one")),
   .process 1 sampleUuid { attachmentCreate with contentHash := some attachmentHash } (some "u"),
   .gcUnreferenced 5 2,
   .process 3 sampleUuid
     (sampleContentOp .update "o2" "d1" "f1" 2 none (sampleVV "d1" 2) "two") (some "u"),
   .gcUnreferenced 5 4,
   .gcUnreferenced 5 9]

theorem backed_attachmentRun : Run.Throughout (blobStep samplePlatform) Backed sampleStore
    attachmentRun :=
  (backed_iff_keepsBacked samplePlatform (show Backed sampleStore by decide) attachmentRun).mpr
    (by decide +kernel)

/-- The upload is announced only, and the op names the blob without a content hash. -/
def pendingRun : List BlobEvent :=
  [.initUpload attachmentHash 3, .process 1 sampleUuid attachmentCreate (some "u")]

/-- The create is acknowledged, and the row names a hash without bytes. -/
theorem not_backed_pendingRun :
    Backed sampleStore ∧
      ¬ Run.Throughout (blobStep samplePlatform) Backed sampleStore pendingRun := by
  refine ⟨by decide, fun h => ?_⟩
  exact absurd h.final (by decide +kernel)

end ObsidianSync
