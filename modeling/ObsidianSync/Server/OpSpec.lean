import ObsidianSync.Server.OpProcessor

/-!
# What the op processor can do

`process` has one interesting outcome: a new op that passes every check is
applied to its file and committed.  `accepted` computes that outcome, `Effect`
says case by case what it did to the file, and everything proved about the
server starts from these two.

## Main definitions

* `accepted` — the result of applying a new op that passes the checks.
* `Effect` — the seven things an accepted op may do.
* `Frame` — what the op leaves alone besides its file.

## Main results

* `effect_of_accepted` — an accepted op has one of the seven effects.
* `frame_of_accepted` — it changes no other row.
* `process_of_accepted`, `process_of_not_accepted` — `process` by its outcome.
-/

namespace ObsidianSync

/-! ### Free paths -/

/-- Whether a lookup of the path finds no live file but this one. -/
def PathFree (P : Platform) (s : Store) (vaultId path fileId : String) : Prop :=
  ∀ collision, s.findLiveFileByPath vaultId (P.toLowerCase path) = some collision →
    collision.fileId = fileId

instance (P : Platform) (s : Store) (vaultId path fileId : String) :
    Decidable (PathFree P s vaultId path fileId) :=
  match h : s.findLiveFileByPath vaultId (P.toLowerCase path) with
  | none => isTrue (by intro c hc; simp [h] at hc)
  | some collision =>
    if hid : collision.fileId = fileId then
      isTrue (by intro c hc; rw [h, Option.some.injEq] at hc; exact hc ▸ hid)
    else isFalse fun hfree => hid (hfree collision h)

theorem pathFree_of_uniquePathFrom {P : Platform} {s : Store}
    {vaultId desired fileId path : String} {fuel n : ℕ} {candidate : String}
    (h : uniquePathFrom P s vaultId desired fileId fuel n candidate = .ok path) :
    PathFree P s vaultId path fileId := by
  induction fuel generalizing n candidate with
  | zero => simp [uniquePathFrom, fail] at h
  | succ fuel ih =>
    rw [uniquePathFrom] at h
    split at h
    · next hnone =>
      obtain rfl : candidate = path := by simpa using h
      intro c hc
      simp [hnone] at hc
    · next c hsome =>
      split at h
      · next hid =>
        obtain rfl : candidate = path := by simpa using h
        intro c' hc'
        rw [hsome, Option.some.injEq] at hc'
        exact hc' ▸ hid
      · exact ih h

/-- The path `uniquePath` gives is free. -/
theorem pathFree_of_uniquePath {P : Platform} {s : Store} {vaultId desired fileId path : String}
    (h : uniquePath P s vaultId desired fileId = .ok path) : PathFree P s vaultId path fileId :=
  pathFree_of_uniquePathFrom h

/-- A free path is given as it is. -/
theorem uniquePath_of_pathFree {P : Platform} {s : Store} {vaultId desired fileId : String}
    (h : PathFree P s vaultId desired fileId) :
    uniquePath P s vaultId desired fileId = .ok desired := by
  rw [uniquePath, uniquePathFrom]
  cases hc : s.findLiveFileByPath vaultId (P.toLowerCase desired) with
  | none => rfl
  | some c => simp [h c hc]

theorem uniquePathFrom_congr {P : Platform} {s tx : Store} (hfiles : tx.files = s.files)
    {vaultId desired fileId : String} (fuel n : ℕ) (candidate : String) :
    uniquePathFrom P tx vaultId desired fileId fuel n candidate
      = uniquePathFrom P s vaultId desired fileId fuel n candidate := by
  induction fuel generalizing n candidate with
  | zero => rfl
  | succ fuel ih =>
    simp only [uniquePathFrom, Store.findLiveFileByPath, hfiles, ih]

/-- `uniquePath` depends on the files only. -/
theorem uniquePath_congr {P : Platform} {s tx : Store} (hfiles : tx.files = s.files)
    (vaultId desired fileId : String) :
    uniquePath P tx vaultId desired fileId = uniquePath P s vaultId desired fileId :=
  uniquePathFrom_congr hfiles _ _ _

theorem normalized_ok_iff {P : Platform} {raw path : String} :
    normalized P raw = .ok path ↔ normalizePath P raw = .ok path := by
  unfold normalized
  cases normalizePath P raw <;> simp [Except.mapError]

theorem eq_of_requiredPathClock {clock : Option PathClock} {incoming : PathClock}
    (h : requiredPathClock clock = .ok incoming) : clock = some incoming := by
  unfold requiredPathClock at h
  split at h
  · simp [fail] at h
  · split at h
    · simp [fail] at h
    · rw [Except.ok.injEq] at h
      rw [h]

/-! ### Frames -/

/-- The tables an applier does not touch. -/
structure Frame (s tx : Store) : Prop where
  devices : tx.devices = s.devices
  roles : tx.roles = s.roles
  files : tx.files = s.files
  ops : tx.ops = s.ops
  blobs : tx.blobs = s.blobs
  outbox : tx.outbox = s.outbox
  seqs : tx.seqs = s.seqs

theorem Frame.refl (s : Store) : Frame s s := ⟨rfl, rfl, rfl, rfl, rfl, rfl, rfl⟩

theorem Frame.trans {s t u : Store} (hst : Frame s t) (htu : Frame t u) : Frame s u where
  devices := htu.devices.trans hst.devices
  roles := htu.roles.trans hst.roles
  files := htu.files.trans hst.files
  ops := htu.ops.trans hst.ops
  blobs := htu.blobs.trans hst.blobs
  outbox := htu.outbox.trans hst.outbox
  seqs := htu.seqs.trans hst.seqs

theorem Frame.getFile {s tx : Store} (h : Frame s tx) (vaultId fileId : String) :
    tx.getFile vaultId fileId = s.getFile vaultId fileId := by
  rw [Store.getFile, Store.getFile, h.files]

/-- A store that differs in its blob references only. -/
def RefsOnly (s tx : Store) : Prop := ∃ refs, tx = { s with blobRefs := refs }

namespace RefsOnly

variable {s tx ty : Store}

theorem refl (s : Store) : RefsOnly s s := ⟨s.blobRefs, rfl⟩

theorem addBlobRef (h : RefsOnly s tx) (ref : BlobRef) : RefsOnly s (tx.addBlobRef ref) := by
  obtain ⟨refs, rfl⟩ := h
  exact ⟨_, rfl⟩

theorem removeBlobRef (h : RefsOnly s tx) (hash : String) (refType : BlobRefType)
    (refId : String) : RefsOnly s (tx.removeBlobRef hash refType refId) := by
  obtain ⟨refs, rfl⟩ := h
  exact ⟨_, rfl⟩

theorem ite {c : Prop} [Decidable c] (hx : RefsOnly s tx) (hy : RefsOnly s ty) :
    RefsOnly s (if c then tx else ty) := by
  split
  · exact hx
  · exact hy

theorem frame (h : RefsOnly s tx) : Frame s tx := by
  obtain ⟨refs, rfl⟩ := h
  exact ⟨rfl, rfl, rfl, rfl, rfl, rfl, rfl⟩

theorem conflicts (h : RefsOnly s tx) : tx.conflicts = s.conflicts := by
  obtain ⟨refs, rfl⟩ := h
  rfl

theorem content (h : RefsOnly s tx) : tx.content = s.content := by
  obtain ⟨refs, rfl⟩ := h
  rfl

end RefsOnly

theorem refsOnly_updateBlobRefs (tx : Store) (oldFile : Option StoredFile)
    (newFile : StoredFile) : RefsOnly tx (updateBlobRefs tx oldFile newFile) := by
  cases oldFile with
  | none => exact .ite (.addBlobRef (.refl tx) _) (.refl tx)
  | some old =>
    have hold : RefsOnly tx
        (if truthy old.blobRef && old.blobRef ≠ newFile.blobRef then
          tx.removeBlobRef (old.blobRef.getD "") .fileLive old.fileId
        else tx) := .ite (.removeBlobRef (.refl tx) _ _ _) (.refl tx)
    exact .ite (.addBlobRef hold _) hold

theorem refsOnly_addConflictRefs (tx : Store) (conflictId : String)
    (ours theirs : Option String) : RefsOnly tx (addConflictRefs tx conflictId ours theirs) := by
  have hours : RefsOnly tx (if truthy ours then tx.addBlobRef
      { hash := ours.getD "", refType := .conflictSide, refId := conflictId ++ ":ours" }
      else tx) := .ite (.addBlobRef (.refl tx) _) (.refl tx)
  exact .ite (.addBlobRef hours _) hours

/-! ### Validation -/

/-- The store after a payload was validated: the inline text of a content op is
kept under its hash. -/
def checkedContent (op : FileOp) (s : Store) : Store :=
  match op.inlineText with
  | none => s
  | some inlineText =>
    if op.kind.isContent && truthy op.contentHash then
      s.putContent (op.contentHash.getD "") (encodeText inlineText)
    else s

/-- What the validation of a payload establishes. -/
structure ValidPayload (P : Platform) (op : FileOp) : Prop where
  opId : op.opId ≠ ""
  deviceId : op.deviceId ≠ ""
  vaultId : op.vaultId ≠ ""
  fileId : op.fileId ≠ ""
  deviceSeq : 1 ≤ op.deviceSeq
  newPath : op.kind = .create ∨ op.kind = .rename → truthy op.newPath = true
  canonical : truthy op.newPath = true → ∃ path, normalizePath P (op.newPath.getD "") = .ok path
  hash : op.kind.isContent = true → truthy op.contentHash = true →
    isValidContentHash (op.contentHash.getD "") = true
  inlineText : op.kind.isContent = true → truthy op.contentHash = true →
    ∀ text, op.inlineText = some text → contentHashText P text = op.contentHash.getD ""

theorem frame_checkedContent (op : FileOp) (s : Store) :
    Frame s (checkedContent op s) ∧ (checkedContent op s).conflicts = s.conflicts := by
  unfold checkedContent
  constructor
  · constructor <;> repeat' (first | rfl | split)
  · repeat' (first | rfl | split)

theorem validateContent_ok {P : Platform} {op : FileOp} {hash : String} {s tx : Store} {u : Unit}
    (h : validateContent P op hash s = (.ok u, tx)) :
    isValidContentHash hash = true
      ∧ (∀ text, op.inlineText = some text → contentHashText P text = hash)
      ∧ tx = (match op.inlineText with
          | none => s
          | some inlineText => s.putContent hash (encodeText inlineText)) := by
  unfold validateContent at h
  split at h
  · simp [fail] at h
  next hvalid =>
  split at h
  · simp [fail] at h
  split at h
  · simp [fail] at h
  refine ⟨by simpa using hvalid, ?_⟩
  cases hinline : op.inlineText with
  | none =>
    rw [hinline] at h
    obtain ⟨-, rfl⟩ := Prod.mk.inj h
    exact ⟨nofun, rfl⟩
  | some text =>
    rw [hinline] at h
    dsimp only at h
    split at h
    · simp [fail] at h
    · next hhash =>
      obtain ⟨-, rfl⟩ := Prod.mk.inj h
      refine ⟨?_, rfl⟩
      intro text' htext'
      exact Option.some.inj htext' ▸ not_not.mp hhash

/-- Validation keeps the inline text and establishes `ValidPayload`. -/
theorem validatePayload_ok {P : Platform} {op : FileOp} {s tx : Store} {u : Unit}
    (h : validatePayload P op s = (.ok u, tx)) :
    ValidPayload P op ∧ tx = checkedContent op s := by
  unfold validatePayload at h
  split at h
  · simp [fail] at h
  next hid =>
  simp only [Bool.or_eq_true, decide_eq_true_eq, Bool.not_eq_true', not_or, Nat.not_lt,
    Bool.not_eq_false] at hid
  obtain ⟨⟨⟨⟨⟨hopId, hdeviceId⟩, hvaultId⟩, hfileId⟩, -⟩, hseq⟩ := hid
  split at h
  · simp [fail] at h
  next hpath =>
  have hnewPath : op.kind = .create ∨ op.kind = .rename → truthy op.newPath = true := by
    intro hkind
    by_contra hne
    exact hpath (by simpa [hne] using hkind)
  cases hcanon : (if truthy op.newPath = true then normalized P (op.newPath.getD "")
      else .ok "") with
  | error e => rw [hcanon] at h; simp at h
  | ok p =>
    rw [hcanon] at h
    have hcanonical : truthy op.newPath = true →
        ∃ path, normalizePath P (op.newPath.getD "") = .ok path := by
      intro ht
      rw [if_pos ht] at hcanon
      exact ⟨p, normalized_ok_iff.mp hcanon⟩
    dsimp only at h
    split at h
    · next hcontent =>
      obtain ⟨hhash, htext, htx⟩ := validateContent_ok h
      refine ⟨⟨hopId, hdeviceId, hvaultId, hfileId, hseq, hnewPath, hcanonical,
        fun _ _ => hhash, fun _ _ => htext⟩, ?_⟩
      rw [htx, checkedContent]
      simp only [hcontent, if_true]
    · next hcontent =>
      obtain rfl : s = tx := by simpa using h
      refine ⟨⟨hopId, hdeviceId, hvaultId, hfileId, hseq, hnewPath, hcanonical, ?_, ?_⟩, ?_⟩
      · intro hk ht
        exact absurd (by simp [hk, ht]) hcontent
      · intro hk ht
        exact absurd (by simp [hk, ht]) hcontent
      · rw [checkedContent]
        cases op.inlineText <;> simp [hcontent]

/-! ### Effects -/

/-- The vector a content op declares. -/
def declaredVV (op : FileOp) : VersionVector := op.newContentVV.getD VersionVector.emptyVV

/-- The row a dominating content op writes. -/
def updatedFile (now : Time) (op : FileOp) (file : StoredFile) : StoredFile :=
  { file with
    contentVV := declaredVV op
    contentHash := (op.contentHash.or op.blobRef).or file.contentHash
    size := op.size.or file.size
    blobRef := op.blobRef
    contentEncoding := op.contentEncoding
    deleted := false
    deletedAt := none
    conflictId := none
    updatedAt := now }

/-- The row a winning rename writes. -/
def renamedFile (P : Platform) (now : Time) (file : StoredFile) (path : String)
    (clock : PathClock) : StoredFile :=
  { file with path, pathNormalized := P.toLowerCase path, pathClock := clock, updatedAt := now }

/-- The vector of a restored file. -/
def restoredVV (op : FileOp) (file : StoredFile) : VersionVector :=
  VersionVector.join (file.deleteVV.getD VersionVector.emptyVV)
    (op.newContentVV.getD file.contentVV)

/-- The row a restore writes. -/
def restoredFile (P : Platform) (now : Time) (op : FileOp) (file : StoredFile) (path : String) :
    StoredFile :=
  { file with
    path
    pathNormalized := P.toLowerCase path
    contentVV := restoredVV op file
    contentHash := op.contentHash.or file.contentHash
    size := op.size.or file.size
    blobRef := op.blobRef.or file.blobRef
    contentEncoding := op.contentEncoding.or file.contentEncoding
    deleteVV := none
    deleted := false
    deletedAt := none
    epoch := file.epoch + 1
    conflictId := none
    updatedAt := now }

/-- The record a concurrent content op opens, or finds open, and the store with it. -/
def conflictOf (uuid : Uuid) (op : FileOp) (file : StoredFile) (s : Store) :
    ConflictRecord × Store :=
  s.createConflict uuid op.vaultId op.fileId
    (if op.type = .attachment then .attachment else .content)
    op.contentHash file.contentHash (op.contentHash.or op.blobRef)
    (some file.contentVV) (some (declaredVV op))

/-- The row of an op. -/
def opRow (op : FileOp) (s : Store) : Option StoredFile := s.getFile op.vaultId op.fileId

/-- What an accepted op does to its file: the row before is `opRow op s`. -/
inductive Effect (P : Platform) (now : Time) (uuid : Uuid) (op : FileOp) (s : Store) :
    Applied → Prop
  /-- A create without a live row makes a new one. -/
  | created {desired path : String} {tx : Store}
      (kind : op.kind = .create)
      (dead : ∀ file, opRow op s = some file → file.deleted = true)
      (canonical : normalizePath P (op.newPath.getD op.fileId) = .ok desired)
      (unique : uniquePath P s op.vaultId desired op.fileId = .ok path)
      (conflicts : tx.conflicts = s.conflicts) :
      Effect P now uuid op s
        { file := newStoredFile P now op path
            (op.pathClock.getD { lamport := 1, deviceId := op.deviceId }), tx }
  /-- An update, or a create on a live row, whose vector dominates the stored one. -/
  | updated {file : StoredFile} {tx : Store}
      (row : opRow op s = some file)
      (kind : op.kind = .create ∧ file.deleted = false ∨ op.kind = .update)
      (dominates : VersionVector.dominates (declaredVV op) file.contentVV = true)
      (conflicts : tx.conflicts = s.conflicts) :
      Effect P now uuid op s { file := updatedFile now op file, tx }
  /-- The same with a concurrent vector: the content stays, a conflict is opened. -/
  | conflicted {file : StoredFile} {tx : Store}
      (row : opRow op s = some file)
      (kind : op.kind = .create ∧ file.deleted = false ∨ op.kind = .update)
      (concurrent : VersionVector.isConcurrent (declaredVV op) file.contentVV = true)
      (conflicts : tx.conflicts = (conflictOf uuid op file s).2.conflicts) :
      Effect P now uuid op s
        { file := { file with
            conflictId := some (conflictOf uuid op file s).1.conflictId, updatedAt := now }
          conflictId := some (conflictOf uuid op file s).1.conflictId, tx }
  /-- A rename whose clock loses leaves the row as it is. -/
  | lostRename {file : StoredFile} {clock : PathClock} {tx : Store}
      (row : opRow op s = some file)
      (kind : op.kind = .rename)
      (clock_eq : requiredPathClock op.pathClock = .ok clock)
      (loses : pathClockWins clock file.pathClock = false)
      (conflicts : tx.conflicts = s.conflicts) :
      Effect P now uuid op s { file, tx }
  /-- A rename whose clock wins moves the file. -/
  | renamed {file : StoredFile} {clock : PathClock} {desired path : String} {tx : Store}
      (row : opRow op s = some file)
      (kind : op.kind = .rename)
      (clock_eq : requiredPathClock op.pathClock = .ok clock)
      (wins : pathClockWins clock file.pathClock = true)
      (canonical : normalizePath P (op.newPath.getD file.path) = .ok desired)
      (unique : uniquePath P s op.vaultId desired op.fileId = .ok path)
      (conflicts : tx.conflicts = s.conflicts) :
      Effect P now uuid op s { file := renamedFile P now file path clock, tx }
  /-- A delete marks the row. -/
  | deleted {file : StoredFile} {tx : Store}
      (row : opRow op s = some file)
      (kind : op.kind = .delete)
      (conflicts : tx.conflicts = s.conflicts) :
      Effect P now uuid op s { file := applyDelete now op file, tx }
  /-- A restore makes the row live under a new epoch. -/
  | restored {file : StoredFile} {desired path : String} {tx : Store}
      (row : opRow op s = some file)
      (kind : op.kind = .restore)
      (canonical : normalizePath P (op.newPath.getD file.path) = .ok desired)
      (unique : uniquePath P s op.vaultId desired op.fileId = .ok path)
      (conflicts : tx.conflicts = s.conflicts) :
      Effect P now uuid op s { file := restoredFile P now op file path, tx }

theorem conflictOf_congr {uuid : Uuid} {op : FileOp} {file : StoredFile} {s tx : Store}
    (h : tx.conflicts = s.conflicts) :
    (conflictOf uuid op file tx).1 = (conflictOf uuid op file s).1
      ∧ (conflictOf uuid op file tx).2.conflicts = (conflictOf uuid op file s).2.conflicts := by
  simp only [conflictOf, Store.createConflict, h]
  split <;> simp [h]

theorem frame_conflictOf (uuid : Uuid) (op : FileOp) (file : StoredFile) (s : Store) :
    Frame s (conflictOf uuid op file s).2
      ∧ (conflictOf uuid op file s).2.content = s.content := by
  unfold conflictOf
  -- the kind of the record does not matter
  generalize (if op.type = .attachment then ConflictKind.attachment else .content) = kind
  unfold Store.createConflict
  dsimp only
  split
  · exact ⟨Frame.refl s, rfl⟩
  · exact ⟨⟨rfl, rfl, rfl, rfl, rfl, rfl, rfl⟩, rfl⟩

section Appliers

variable {P : Platform} {now : Time} {uuid : Uuid} {op : FileOp} {s tx : Store}

/-- What an applier establishes when it runs on the store `tx`, which has the
files and conflicts of `s`. -/
def Establishes (P : Platform) (now : Time) (uuid : Uuid) (op : FileOp) (s tx : Store)
    (applied : Applied) : Prop :=
  Effect P now uuid op s applied ∧ Frame tx applied.tx ∧ applied.tx.content = tx.content

theorem applyUpdate_ok {file : StoredFile} {applied : Applied}
    (hconflicts : tx.conflicts = s.conflicts) (hrow : opRow op s = some file)
    (hkind : op.kind = .create ∧ file.deleted = false ∨ op.kind = .update)
    (h : applyUpdate now uuid op file tx = .ok applied) :
    Establishes P now uuid op s tx applied := by
  unfold applyUpdate at h
  dsimp only at h
  split at h
  · split at h
    · next hconc =>
      rw [Except.ok.injEq] at h
      obtain ⟨hrec, htab⟩ := conflictOf_congr hconflicts
      obtain ⟨hframe, hcontent⟩ := frame_conflictOf uuid op file tx
      have hrefs := refsOnly_addConflictRefs (conflictOf uuid op file tx).2
        (conflictOf uuid op file tx).1.conflictId file.blobRef op.blobRef
      subst h
      refine ⟨?_, hframe.trans hrefs.frame, hrefs.content.trans hcontent⟩
      have hopened := @Effect.conflicted P now uuid op s file _ hrow hkind hconc
        (hrefs.conflicts.trans htab)
      rw [← hrec] at hopened
      exact hopened
    · simp [fail] at h
  · next hdom =>
    rw [Except.ok.injEq] at h
    have hrefs := refsOnly_updateBlobRefs tx (some file) (updatedFile now op file)
    subst h
    exact ⟨.updated hrow hkind (by simpa [declaredVV] using hdom)
      (hrefs.conflicts.trans hconflicts), hrefs.frame, hrefs.content⟩

/-- Without a live row a create makes a new one under a free path. -/
theorem applyCreate_ok_of_dead {applied : Applied}
    (hfiles : tx.files = s.files) (hconflicts : tx.conflicts = s.conflicts)
    (hkind : op.kind = .create) (hdead : ∀ file, opRow op s = some file → file.deleted = true)
    (h : applyCreate P now uuid op none tx = .ok applied) :
    Establishes P now uuid op s tx applied := by
  unfold applyCreate at h
  dsimp only at h
  split at h
  · simp at h
  next desired hcanon =>
  split at h
  · simp at h
  next path hunique =>
  rw [Except.ok.injEq] at h
  have hrefs := refsOnly_updateBlobRefs tx none
    (newStoredFile P now op path (op.pathClock.getD { lamport := 1, deviceId := op.deviceId }))
  subst h
  refine ⟨.created hkind hdead (normalized_ok_iff.mp hcanon) ?_
    (hrefs.conflicts.trans hconflicts), hrefs.frame, hrefs.content⟩
  rw [← uniquePath_congr hfiles]
  exact hunique

theorem applyCreate_ok {applied : Applied}
    (hfiles : tx.files = s.files) (hconflicts : tx.conflicts = s.conflicts)
    (hkind : op.kind = .create)
    (h : applyCreate P now uuid op (opRow op s) tx = .ok applied) :
    Establishes P now uuid op s tx applied := by
  cases hrow : opRow op s with
  | none =>
    rw [hrow] at h
    exact applyCreate_ok_of_dead hfiles hconflicts hkind (by simp [hrow]) h
  | some file =>
    rw [hrow] at h
    cases hlive : file.deleted with
    | false =>
      simp only [applyCreate, hlive, Bool.not_false, if_true] at h
      exact applyUpdate_ok hconflicts hrow (Or.inl ⟨hkind, hlive⟩) h
    | true =>
      have hsame : applyCreate P now uuid op (some file) tx
          = applyCreate P now uuid op none tx := by
        simp [applyCreate, hlive]
      rw [hsame] at h
      refine applyCreate_ok_of_dead hfiles hconflicts hkind ?_ h
      intro file' hfile'
      rw [hrow, Option.some.injEq] at hfile'
      exact hfile' ▸ hlive

theorem applyRename_ok {file : StoredFile} {applied : Applied}
    (hfiles : tx.files = s.files) (hconflicts : tx.conflicts = s.conflicts)
    (hrow : opRow op s = some file) (hkind : op.kind = .rename)
    (h : applyRename P now op file tx = .ok applied) :
    Establishes P now uuid op s tx applied := by
  unfold applyRename at h
  split at h
  · simp at h
  next clock hclock =>
  split at h
  · next hloses =>
    rw [Except.ok.injEq] at h
    subst h
    exact ⟨.lostRename hrow hkind hclock (by simpa using hloses) hconflicts, Frame.refl tx, rfl⟩
  next hwins =>
  split at h
  · simp at h
  next desired hcanon =>
  split at h
  · simp at h
  next path hunique =>
  rw [Except.ok.injEq] at h
  subst h
  refine ⟨.renamed hrow hkind hclock (by simpa using hwins) (normalized_ok_iff.mp hcanon) ?_
    hconflicts, Frame.refl tx, rfl⟩
  rw [← uniquePath_congr hfiles]
  exact hunique

theorem applyRestore_ok {file : StoredFile} {applied : Applied}
    (hfiles : tx.files = s.files) (hconflicts : tx.conflicts = s.conflicts)
    (hrow : opRow op s = some file) (hkind : op.kind = .restore)
    (h : applyRestore P now op file tx = .ok applied) :
    Establishes P now uuid op s tx applied := by
  unfold applyRestore at h
  dsimp only at h
  split at h
  · simp at h
  next desired hcanon =>
  split at h
  · simp at h
  next path hunique =>
  rw [Except.ok.injEq] at h
  have hrefs := refsOnly_updateBlobRefs tx (some file) (restoredFile P now op file path)
  subst h
  refine ⟨.restored hrow hkind (normalized_ok_iff.mp hcanon) ?_
    (hrefs.conflicts.trans hconflicts), hrefs.frame, hrefs.content⟩
  rw [← uniquePath_congr hfiles]
  exact hunique

/-- The guards a content op passes. -/
structure Unguarded (now : Time) (op : FileOp) (s : Store) : Prop where
  notActive : op.kind.isContent = true → syntheticCollab op = false →
    ∀ file, opRow op s = some file → isActive now file = false
  notFrozen : op.kind.isContent = true →
    ∀ file, opRow op s = some file → truthy file.conflictId = false

theorem applyOp_ok {applied : Applied}
    (hfiles : tx.files = s.files) (hconflicts : tx.conflicts = s.conflicts)
    (h : applyOp P now uuid op (opRow op s) tx = .ok applied) :
    Establishes P now uuid op s tx applied ∧ Unguarded now op s := by
  unfold applyOp at h
  split at h
  · simp [fail] at h
  next hactive =>
  split at h
  · simp [fail] at h
  next hfrozen =>
  refine ⟨?_, ?_, ?_⟩
  · -- the dispatch on the kind
    have hreq : ∀ {file}, requiredFile (opRow op s) = .ok file → opRow op s = some file := by
      intro file hfile
      cases hrow : opRow op s with
      | none => simp [hrow, requiredFile, fail] at hfile
      | some f => simpa [hrow, requiredFile] using hfile
    split at h
    · next hkind => exact applyCreate_ok hfiles hconflicts hkind h
    · next hkind =>
      split at h
      · simp at h
      · next file hfile => exact applyUpdate_ok hconflicts (hreq hfile) (Or.inr hkind) h
    · next hkind =>
      split at h
      · simp at h
      · next file hfile => exact applyRename_ok hfiles hconflicts (hreq hfile) hkind h
    · next hkind =>
      split at h
      · simp at h
      · next file hfile =>
        rw [Except.ok.injEq] at h
        subst h
        exact ⟨.deleted (hreq hfile) hkind hconflicts, Frame.refl tx, rfl⟩
    · next hkind =>
      split at h
      · simp at h
      · next file hfile => exact applyRestore_ok hfiles hconflicts (hreq hfile) hkind h
  · intro hcontent hcollab file hrow
    simpa [hcontent, hcollab, hrow] using hactive
  · intro hcontent file hrow
    simpa [hcontent, hrow] using hfrozen

end Appliers

/-! ### The outcome of processing -/

/-- The result of applying the op, if it is new and passes every check. -/
def accepted (P : Platform) (now : Time) (uuid : Uuid) (op : FileOp) (userId : Option String)
    (s : Store) : Option Applied :=
  if (s.getOpById op.opId).isSome || (checkDevice op userId s).isSome then none
  else
    match validatePayload P op s with
    | (.error _, _) => none
    | (.ok _, tx) => (applyOp P now uuid op (tx.getFile op.vaultId op.fileId) tx).toOption

/-- What is known of an accepted op. -/
structure Accepted (P : Platform) (now : Time) (uuid : Uuid) (op : FileOp)
    (userId : Option String) (s : Store) (applied : Applied) : Prop where
  fresh : s.getOpById op.opId = none
  device : checkDevice op userId s = none
  payload : ValidPayload P op
  unguarded : Unguarded now op s
  effect : Effect P now uuid op s applied
  frame : Frame s applied.tx
  content : applied.tx.content = (checkedContent op s).content

section Outcome

variable {P : Platform} {now : Time} {uuid : Uuid} {op : FileOp} {userId : Option String}
  {s : Store} {applied : Applied}

/-- An accepted op has passed the checks and has one of the seven effects. -/
theorem accepted_spec (h : accepted P now uuid op userId s = some applied) :
    Accepted P now uuid op userId s applied := by
  unfold accepted at h
  split at h
  · simp at h
  next hnew =>
  simp only [Bool.or_eq_true, not_or, Bool.not_eq_true, Option.isSome_eq_false_iff,
    Option.isNone_iff_eq_none] at hnew
  obtain ⟨hfresh, hdevice⟩ := hnew
  split at h
  · simp at h
  next tx hvalid =>
  obtain ⟨hpayload, rfl⟩ := validatePayload_ok hvalid
  obtain ⟨hframe, hconflicts⟩ := frame_checkedContent op s
  have hrow : (checkedContent op s).getFile op.vaultId op.fileId = opRow op s :=
    hframe.getFile op.vaultId op.fileId
  rw [hrow] at h
  cases happly : applyOp P now uuid op (opRow op s) (checkedContent op s) with
  | error e => simp [happly, Except.toOption] at h
  | ok a =>
    obtain rfl : a = applied := by simpa [happly, Except.toOption] using h
    obtain ⟨⟨heffect, hframe', hcontent⟩, hguards⟩ := applyOp_ok hframe.files hconflicts happly
    exact ⟨hfresh, hdevice, hpayload, hguards, heffect, hframe.trans hframe', hcontent⟩

/-- An accepted op is committed and acknowledged. -/
theorem process_of_accepted (h : accepted P now uuid op userId s = some applied) :
    process P now uuid op userId s =
      (.ok (.ack (commit now op (opDevice op s) applied).1),
        (commit now op (opDevice op s) applied).2) := by
  unfold accepted at h
  split at h
  · simp at h
  next hnew =>
  simp only [Bool.or_eq_true, not_or, Bool.not_eq_true, Option.isSome_eq_false_iff,
    Option.isNone_iff_eq_none] at hnew
  split at h
  · simp at h
  next tx hvalid =>
  cases happly : applyOp P now uuid op (tx.getFile op.vaultId op.fileId) tx with
  | error e => simp [happly, Except.toOption] at h
  | ok a =>
    obtain rfl : a = applied := by simpa [happly, Except.toOption] using h
    simp only [process, hnew.1, hnew.2, hvalid, happly]

/-- Where validation fails it has written at most the inline text, after checking
its hash. -/
theorem validatePayload_error {e : Failure} {tx : Store}
    (h : validatePayload P op s = (.error e, tx)) :
    tx = s ∨ (tx = checkedContent op s ∧ op.kind.isContent = true ∧
      truthy op.contentHash = true ∧
      ∀ text, op.inlineText = some text → contentHashText P text = op.contentHash.getD "") := by
  unfold validatePayload at h
  split at h
  · exact Or.inl (Prod.mk.inj h).2.symm
  split at h
  · exact Or.inl (Prod.mk.inj h).2.symm
  split at h
  · exact Or.inl (Prod.mk.inj h).2.symm
  split at h
  · next hcontent =>
    rw [Bool.and_eq_true] at hcontent
    unfold validateContent at h
    split at h
    · exact Or.inl (Prod.mk.inj h).2.symm
    split at h
    · exact Or.inl (Prod.mk.inj h).2.symm
    split at h
    · exact Or.inl (Prod.mk.inj h).2.symm
    split at h
    · exact Or.inl (Prod.mk.inj h).2.symm
    · next text htext =>
      split at h
      · exact Or.inl (Prod.mk.inj h).2.symm
      · next hhash =>
        refine Or.inr ⟨?_, hcontent.1, hcontent.2, ?_⟩
        · rw [← (Prod.mk.inj h).2]
          simp [checkedContent, htext, hcontent.1, hcontent.2]
        · intro text' htext'
          rw [htext, Option.some.injEq] at htext'
          exact htext' ▸ not_not.mp hhash
  · exact Or.inl (Prod.mk.inj h).2.symm

/-- An op that is not accepted leaves the store as it was, up to an inline text
kept under its own hash. -/
theorem process_of_not_accepted (h : accepted P now uuid op userId s = none) :
    (process P now uuid op userId s).2 = s
      ∨ ((process P now uuid op userId s).2 = checkedContent op s ∧
        op.kind.isContent = true ∧ truthy op.contentHash = true ∧
        ∀ text, op.inlineText = some text → contentHashText P text = op.contentHash.getD "") := by
  unfold accepted at h
  unfold process
  cases hfresh : s.getOpById op.opId with
  | some existing => exact Or.inl rfl
  | none =>
    cases hdevice : checkDevice op userId s with
    | some answer => exact Or.inl rfl
    | none =>
      simp only [hfresh, hdevice, Option.isSome_none, Bool.or_self, Bool.false_eq_true,
        if_false] at h
      rcases hvalid : validatePayload P op s with ⟨e | u, tx⟩
      · exact validatePayload_error hvalid
      · obtain ⟨hpayload, rfl⟩ := validatePayload_ok hvalid
        simp only [hvalid] at h
        cases happly : applyOp P now uuid op
            ((checkedContent op s).getFile op.vaultId op.fileId) (checkedContent op s) with
        | ok a => simp [happly, Except.toOption] at h
        | error e =>
          simp only [happly]
          by_cases hcontent : op.kind.isContent = true ∧ truthy op.contentHash = true
          · exact Or.inr ⟨trivial, hcontent.1, hcontent.2,
              hpayload.inlineText hcontent.1 hcontent.2⟩
          · refine Or.inl ?_
            unfold checkedContent
            split
            · rfl
            · rw [if_neg (by simpa using hcontent)]

/-- The files, conflicts and log stay as they are when an op is not accepted. -/
theorem frame_of_not_accepted (h : accepted P now uuid op userId s = none) :
    Frame s (process P now uuid op userId s).2
      ∧ (process P now uuid op userId s).2.conflicts = s.conflicts := by
  rcases process_of_not_accepted h with hs | ⟨hs, -⟩
  · rw [hs]
    exact ⟨Frame.refl s, rfl⟩
  · rw [hs]
    exact frame_checkedContent op s

/-- An ack without a commit repeats one from the log: of the op itself, or of the
op its device sent under the same sequence. -/
theorem logged_of_ack (h : accepted P now uuid op userId s = none) {result : OpApplyResult}
    (hack : (process P now uuid op userId s).1 = .ok result) :
    (∃ e : OpRejectResult, result = .reject e ∧ e.opId = some op.opId) ∨
    ∃ logged ∈ s.ops, logged.result = result ∧ (logged.opId = op.opId ∨
      logged.deviceId = op.deviceId ∧ logged.deviceSeq = op.deviceSeq) := by
  have hfailure : ∀ e, answerFailure op e = .ok result →
      ∃ e : OpRejectResult, result = .reject e ∧ e.opId = some op.opId := by
    intro e he
    cases e with
    | sync error =>
      simp only [answerFailure, reject, Except.ok.injEq] at he
      exact ⟨_, he.symm, rfl⟩
    | path error => simp [answerFailure] at he
  unfold accepted at h
  unfold process at hack
  cases hfresh : s.getOpById op.opId with
  | some existing =>
    simp only [hfresh, Except.ok.injEq] at hack
    obtain ⟨hmem, hid⟩ := Store.mem_of_getOpById hfresh
    exact Or.inr ⟨existing, hmem, hack, Or.inl hid⟩
  | none =>
    cases hdevice : checkDevice op userId s with
    | some answer =>
      simp only [hfresh, hdevice, Except.ok.injEq] at hack
      subst hack
      -- one branch answers from the log, the others refuse
      unfold checkDevice at hdevice
      dsimp only at hdevice
      split at hdevice
      · simp at hdevice
      repeat' split at hdevice
      all_goals
        first
        | exact Or.inl ⟨_, (Option.some.inj hdevice).symm, rfl⟩
        | simp at hdevice
      next prior hprior =>
        have hmem := List.mem_reverse.mp (List.mem_of_find?_eq_some hprior)
        have hkey := List.find?_some hprior
        exact Or.inr ⟨prior, hmem, hdevice, Or.inr (by simpa using hkey)⟩
    | none =>
      simp only [hfresh, hdevice, Option.isSome_none, Bool.or_self, Bool.false_eq_true,
        if_false] at h hack
      rcases hvalid : validatePayload P op s with ⟨e | u, tx⟩
      · simp only [hvalid] at hack
        exact Or.inl (hfailure e hack)
      · simp only [hvalid] at h hack
        cases happly : applyOp P now uuid op (tx.getFile op.vaultId op.fileId) tx with
        | ok a => simp [happly, Except.toOption] at h
        | error e =>
          simp only [happly] at hack
          exact Or.inl (hfailure e hack)

end Outcome

/-! ### Commits -/

section Commit

variable (now : Time) (op : FileOp) (device : Option StoredDevice) (applied : Applied)

/-- The log entry of a committed op. -/
def loggedOp (seq : ℕ) : StoredOp :=
  { vaultId := op.vaultId, seq, opId := op.opId, deviceId := op.deviceId,
    deviceSeq := op.deviceSeq, fileId := op.fileId, kind := op.kind, payload := op,
    result := .ack (ackOf op seq applied), createdAt := now }

@[simp] theorem commit_ack :
    (commit now op device applied).1 = ackOf op (applied.tx.nextSeq op.vaultId) applied := by
  cases device <;> rfl

@[simp] theorem commit_files :
    (commit now op device applied).2.files = applied.tx.files.set applied.file := by
  cases device <;> rfl

@[simp] theorem commit_ops :
    (commit now op device applied).2.ops
      = applied.tx.ops ++ [loggedOp now op applied (applied.tx.nextSeq op.vaultId)] := by
  cases device <;> rfl

@[simp] theorem commit_conflicts :
    (commit now op device applied).2.conflicts = applied.tx.conflicts := by
  cases device <;> rfl

@[simp] theorem commit_content :
    (commit now op device applied).2.content = applied.tx.content := by
  cases device <;> rfl

@[simp] theorem commit_roles : (commit now op device applied).2.roles = applied.tx.roles := by
  cases device <;> rfl

@[simp] theorem commit_blobs : (commit now op device applied).2.blobs = applied.tx.blobs := by
  cases device <;> rfl

theorem commit_seqs :
    (commit now op device applied).2.seqs
      = applied.tx.seqs.set (op.vaultId, applied.tx.nextSeq op.vaultId + 1) := by
  cases device <;> rfl

/-- The next sequence of a vault after a commit. -/
theorem commit_nextSeq (vaultId : String) :
    (commit now op device applied).2.nextSeq vaultId
      = if op.vaultId = vaultId then applied.tx.nextSeq vaultId + 1
        else applied.tx.nextSeq vaultId := by
  unfold Store.nextSeq
  rw [commit_seqs, Table.get?_set]
  split
  · next h => subst h; rfl
  · rfl

theorem commit_devices :
    (commit now op device applied).2.devices
      = match device with
        | none => applied.tx.devices
        | some device => applied.tx.devices.set { device with
            lastDeviceSeq := op.deviceSeq, lastSeq := applied.tx.nextSeq op.vaultId,
            lastSeen := some now } := by
  cases device <;> rfl

end Commit

theorem Frame.nextSeq {s tx : Store} (h : Frame s tx) (vaultId : String) :
    tx.nextSeq vaultId = s.nextSeq vaultId :=
  Store.nextSeq_congr h.seqs vaultId

section Key

variable {P : Platform} {now : Time} {uuid : Uuid} {op : FileOp} {s : Store} {applied : Applied}

theorem key_of_opRow {file : StoredFile} (h : opRow op s = some file) :
    file.key = (op.vaultId, op.fileId) :=
  Table.key_of_get? h

/-- An accepted op writes its own row. -/
theorem key_of_effect (h : Effect P now uuid op s applied) :
    applied.file.key = (op.vaultId, op.fileId) := by
  cases h with
  | created => rfl
  | updated row | conflicted row | lostRename row | renamed row | deleted row | restored row =>
    have hkey : (_, _) = (op.vaultId, op.fileId) := key_of_opRow row
    exact hkey

/-- A row of the files after an accepted op: the written one, or an old one of
another file. -/
theorem mem_files_commit (device : Option StoredDevice) (heffect : Effect P now uuid op s applied)
    (hframe : Frame s applied.tx) {file : StoredFile} :
    file ∈ (commit now op device applied).2.files.rows ↔
      file = applied.file ∨ (file ∈ s.files.rows ∧ file.key ≠ (op.vaultId, op.fileId)) := by
  rw [commit_files, Table.mem_set_iff, hframe.files, key_of_effect heffect]

end Key

end ObsidianSync
