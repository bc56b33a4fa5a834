import ObsidianSync.Server.ConflictLifecycle

/-!
# Blob references

The references that keep a blob from collection are added and removed one by
one, by the processor from the old row and the new one, and by a resolution from
the hashes of the conflict.  They are exact if they are those of the rows with a
blob and of the sides with a blob of the unresolved conflicts.

## Main definitions

* `ExactRefs` — no reference is missing and none is left over.
* `BlobNamed` — the content is the blob, if there is one.
* `refsAfter` — the references an accepted op leaves.

## Main results

* `mem_updateBlobRefs`, `mem_addConflictRefs`, `mem_resolutionRefs` — the references after
  each of the writes.
* `blobRefs_of_accepted` — those after an accepted op.
-/

namespace ObsidianSync

/-! ### Exact references -/

/-- The conflict a logged op opened. -/
def StoredOp.conflictId (op : StoredOp) : Option String :=
  match op.result with
  | .ack result => result.conflictId
  | .reject _ => none

/-- The blob of the side a conflict's file is on. -/
def oursBlob (s : Store) (conflict : ConflictRecord) : Option String :=
  (s.getFile conflict.vaultId conflict.fileId).bind StoredFile.blobRef

/-- The blob of the op that opened a conflict. -/
def theirsBlob (s : Store) (conflict : ConflictRecord) : Option String :=
  (s.ops.find? fun op => op.conflictId = some conflict.conflictId).bind fun op =>
    op.payload.blobRef

/-- The reference is of a side with a blob of the conflict. -/
def SideRef (s : Store) (conflict : ConflictRecord) (hash refId : String) : Prop :=
  oursBlob s conflict = some hash ∧ refId = conflict.conflictId ++ ":ours" ∨
    theirsBlob s conflict = some hash ∧ refId = conflict.conflictId ++ ":theirs"

instance (s : Store) (conflict : ConflictRecord) (hash refId : String) :
    Decidable (SideRef s conflict hash refId) := by
  unfold SideRef
  infer_instance

/-- The references of rows and conflict sides are those that there should be. -/
structure ExactRefs (s : Store) : Prop where
  live : ∀ hash refId, { hash, refType := .fileLive, refId } ∈ s.blobRefs.rows ↔
    ∃ file ∈ s.files.rows, file.blobRef = some hash ∧ file.fileId = refId
  sides : ∀ hash refId, { hash, refType := .conflictSide, refId } ∈ s.blobRefs.rows ↔
    ∃ conflict ∈ s.conflicts.rows, conflict.status ≠ .resolved ∧ SideRef s conflict hash refId

/-- The hash of the content is that of the blob, if there is one. -/
def BlobNamed (contentHash blobRef : Option String) : Prop :=
  ∀ blob, blobRef = some blob → blob ≠ "" ∧ contentHash = some blob

instance (contentHash blobRef : Option String) : Decidable (BlobNamed contentHash blobRef) := by
  unfold BlobNamed
  cases blobRef with
  | none => exact isTrue nofun
  | some blob =>
    exact decidable_of_iff (blob ≠ "" ∧ contentHash = some blob) (by simp)

theorem BlobNamed.truthy_eq {contentHash blobRef : Option String}
    (h : BlobNamed contentHash blobRef) : truthy blobRef = blobRef.isSome := by
  cases blobRef with
  | none => rfl
  | some blob => simp [(h blob rfl).1]

/-! ### Adding and removing -/

section Refs

variable {s : Store} {ref : BlobRef}

theorem mem_addBlobRef {added : BlobRef} :
    ref ∈ (s.addBlobRef added).blobRefs.rows ↔ ref = added ∨ ref ∈ s.blobRefs.rows := by
  rw [Store.addBlobRef, Table.mem_set_iff]
  by_cases h : ref = added <;> simp [h]

theorem mem_removeBlobRef {hash : String} {refType : BlobRefType} {refId : String} :
    ref ∈ (s.removeBlobRef hash refType refId).blobRefs.rows ↔
      ref ∈ s.blobRefs.rows ∧ ref ≠ { hash, refType, refId } :=
  Table.mem_erase_iff

/-- The references after an optional blob got one. -/
theorem mem_add_if {blob : Option String} (hne : truthy blob = blob.isSome)
    {refType : BlobRefType} {refId : String} :
    ref ∈ (if truthy blob then s.addBlobRef { hash := blob.getD "", refType, refId }
      else s).blobRefs.rows ↔
      (∃ hash, blob = some hash ∧ ref = { hash, refType, refId }) ∨ ref ∈ s.blobRefs.rows := by
  rw [hne]
  cases blob with
  | none => simp
  | some hash => simp [mem_addBlobRef]

/-- The references after an optional blob lost its own. -/
theorem mem_remove_if {blob : Option String} {c : Bool} {refType : BlobRefType}
    {refId : String} :
    ref ∈ (if truthy blob && c then s.removeBlobRef (blob.getD "") refType refId
      else s).blobRefs.rows ↔
      ref ∈ s.blobRefs.rows ∧
        ∀ hash, blob = some hash → hash ≠ "" → c = true → ref ≠ { hash, refType, refId } := by
  cases blob with
  | none => simp
  | some hash =>
    by_cases hne : hash = ""
    · simp [hne]
    · cases c <;> simp [mem_removeBlobRef, hne]

/-- The references after a row was written: that of the new blob, and all but that of the old
one. -/
theorem mem_updateBlobRefs {old : Option StoredFile} {new : StoredFile}
    (hold : ∀ file ∈ old, BlobNamed file.contentHash file.blobRef)
    (hnew : BlobNamed new.contentHash new.blobRef) :
    ref ∈ (updateBlobRefs s old new).blobRefs.rows ↔
      (∃ hash, new.blobRef = some hash ∧
        ref = { hash, refType := .fileLive, refId := new.fileId }) ∨
      ref ∈ s.blobRefs.rows ∧ ∀ file ∈ old, ∀ hash, file.blobRef = some hash →
        file.blobRef ≠ new.blobRef →
          ref ≠ { hash, refType := .fileLive, refId := file.fileId } := by
  unfold updateBlobRefs
  dsimp only
  rw [mem_add_if hnew.truthy_eq]
  refine or_congr_right ?_
  cases old with
  | none => simp
  | some file =>
    simp only [Option.mem_def, Option.some.injEq, forall_eq']
    rw [mem_remove_if]
    refine and_congr_right fun _ => forall_congr' fun hash => ?_
    constructor
    · intro h hblob hmoved
      exact h hblob (hold file rfl hash hblob).1 (by simpa using hmoved)
    · intro h hblob _ hmoved
      exact h hblob (by simpa using hmoved)

/-- The references after a conflict was opened: those of its sides in addition. -/
theorem mem_addConflictRefs {conflictId : String} {ours theirs : Option String}
    (hours : truthy ours = ours.isSome) (htheirs : truthy theirs = theirs.isSome) :
    ref ∈ (addConflictRefs s conflictId ours theirs).blobRefs.rows ↔
      (∃ hash, ours = some hash ∧
        ref = { hash, refType := .conflictSide, refId := conflictId ++ ":ours" }) ∨
      (∃ hash, theirs = some hash ∧
        ref = { hash, refType := .conflictSide, refId := conflictId ++ ":theirs" }) ∨
      ref ∈ s.blobRefs.rows := by
  unfold addConflictRefs
  dsimp only
  rw [mem_add_if htheirs, mem_add_if hours]
  exact or_left_comm

end Refs

/-- The references after a resolution: that of the chosen blob, and all but those of the sides
and of the blob of the row. -/
theorem mem_resolutionRefs {input : ResolveInput} {conflict : ConflictRecord}
    {content : ResolvedContent} {file : StoredFile}
    (hchosen : truthy content.blobRef = content.blobRef.isSome) :
    ref ∈ (resolutionRefs input conflict content file s).blobRefs.rows ↔
      (∃ hash, content.blobRef = some hash ∧
        ref = { hash, refType := .fileLive, refId := file.fileId }) ∨
      ref ∈ s.blobRefs.rows ∧
        (∀ hash, conflict.oursHash = some hash → hash ≠ "" →
          ref ≠ { hash, refType := .conflictSide, refId := conflict.conflictId ++ ":ours" }) ∧
        (∀ hash, conflict.theirsHash = some hash → hash ≠ "" →
          ref ≠ { hash, refType := .conflictSide, refId := conflict.conflictId ++ ":theirs" }) ∧
        ∀ hash, file.blobRef = some hash → hash ≠ "" → file.blobRef ≠ content.blobRef →
          ref ≠ { hash, refType := .fileLive, refId := file.fileId } := by
  have hside : ∀ (tx : Store) (blob : Option String) (refId : String),
      ref ∈ (if truthy blob then tx.removeBlobRef (blob.getD "") .conflictSide refId
        else tx).blobRefs.rows ↔
        ref ∈ tx.blobRefs.rows ∧ ∀ hash, blob = some hash → hash ≠ "" →
          ref ≠ { hash, refType := .conflictSide, refId } := by
    intro tx blob refId
    have h : ref ∈ (if truthy blob && true then
        tx.removeBlobRef (blob.getD "") .conflictSide refId else tx).blobRefs.rows ↔ _ :=
      mem_remove_if
    simpa using h
  have htext : (resolutionText input content s).blobRefs = s.blobRefs := by
    unfold resolutionText
    split <;> rfl
  unfold resolutionRefs
  dsimp only
  rw [mem_add_if hchosen, mem_remove_if, hside, hside]
  change _ ∨ ((ref ∈ (resolutionText input content s).blobRefs.rows ∧ _) ∧ _) ∧ _ ↔ _
  rw [htext]
  simp only [decide_eq_true_eq, and_assoc]

/-- The ids of the references of sides tell the conflicts and the sides apart. -/
theorem sideId_inj {a b : String} :
    (a ++ ":ours" = b ++ ":ours" ↔ a = b) ∧ (a ++ ":theirs" = b ++ ":theirs" ↔ a = b) ∧
      a ++ ":ours" ≠ b ++ ":theirs" := by
  refine ⟨⟨?_, congrArg (· ++ ":ours")⟩, ⟨?_, congrArg (· ++ ":theirs")⟩, ?_⟩
  · intro h
    have hlist := congrArg String.toList h
    rw [String.toList_append, String.toList_append] at hlist
    exact String.toList_inj.mp (List.append_cancel_right hlist)
  · intro h
    have hlist := congrArg String.toList h
    rw [String.toList_append, String.toList_append] at hlist
    exact String.toList_inj.mp (List.append_cancel_right hlist)
  · intro h
    have hlist := congrArg (fun id : String => id.toList.reverse.take 5) h
    simp at hlist

/-! ### Accepted ops -/

/-- The store with the references an accepted op leaves. -/
def refsAfter (op : FileOp) (row : Option StoredFile) (applied : Applied) (s : Store) : Store :=
  match applied.conflictId with
  | some conflictId =>
    addConflictRefs s conflictId (row.bind StoredFile.blobRef) op.blobRef
  | none =>
    match op.kind with
    | .create => updateBlobRefs s (row.filter fun file => !file.deleted) applied.file
    | .update => updateBlobRefs s row applied.file
    | .rename => s
    | .delete => s
    | .restore => updateBlobRefs s row applied.file

section Accepted

variable {P : Platform} {now : Time} {uuid : Uuid} {op : FileOp} {userId : Option String}
  {s tx : Store} {applied : Applied}

theorem updateBlobRefs_congr (h : tx.blobRefs = s.blobRefs) (old : Option StoredFile)
    (new : StoredFile) :
    (updateBlobRefs tx old new).blobRefs = (updateBlobRefs s old new).blobRefs := by
  cases old with
  | none =>
    simp only [updateBlobRefs, Store.addBlobRef, h]
    split
    · rfl
    · exact h
  | some file =>
    simp only [updateBlobRefs, Store.addBlobRef, Store.removeBlobRef, h]
    split <;> split <;> simp only [h]

theorem addConflictRefs_congr (h : tx.blobRefs = s.blobRefs) (conflictId : String)
    (ours theirs : Option String) :
    (addConflictRefs tx conflictId ours theirs).blobRefs
      = (addConflictRefs s conflictId ours theirs).blobRefs := by
  simp only [addConflictRefs, Store.addBlobRef]
  split <;> split <;> simp only [h]

theorem blobRefs_checkedContent (op : FileOp) (s : Store) :
    (checkedContent op s).blobRefs = s.blobRefs := by
  unfold checkedContent
  repeat' (first | rfl | split)

theorem blobRefs_conflictOf (uuid : Uuid) (op : FileOp) (file : StoredFile) (s : Store) :
    (conflictOf uuid op file s).2.blobRefs = s.blobRefs := by
  unfold conflictOf
  -- the kind of the record does not matter
  generalize (if op.type = .attachment then ConflictKind.attachment else .content) = kind
  unfold Store.createConflict
  dsimp only
  split <;> rfl

/-- The references after an update. -/
theorem blobRefs_applyUpdate {file : StoredFile}
    (h : applyUpdate now uuid op file tx = .ok applied) :
    applied.tx.blobRefs = (match applied.conflictId with
      | some conflictId => addConflictRefs tx conflictId file.blobRef op.blobRef
      | none => updateBlobRefs tx (some file) applied.file).blobRefs := by
  unfold applyUpdate at h
  dsimp only at h
  split at h
  · split at h
    · rw [Except.ok.injEq] at h
      subst h
      exact addConflictRefs_congr (blobRefs_conflictOf uuid op file tx) _ _ _
    · simp [fail] at h
  · rw [Except.ok.injEq] at h
    subst h
    rfl

/-- The references after a create of a row that is not live. -/
theorem blobRefs_applyCreate (h : applyCreate P now uuid op none tx = .ok applied) :
    applied.conflictId = none ∧
      applied.tx.blobRefs = (updateBlobRefs tx none applied.file).blobRefs := by
  unfold applyCreate at h
  dsimp only at h
  split at h
  · simp at h
  split at h
  · simp at h
  rw [Except.ok.injEq] at h
  subst h
  exact ⟨rfl, rfl⟩

/-- A rename leaves the references. -/
theorem blobRefs_applyRename {file : StoredFile}
    (h : applyRename P now op file tx = .ok applied) :
    applied.conflictId = none ∧ applied.tx.blobRefs = tx.blobRefs := by
  unfold applyRename at h
  split at h
  · simp at h
  split at h
  · rw [Except.ok.injEq] at h
    subst h
    exact ⟨rfl, rfl⟩
  split at h
  · simp at h
  split at h
  · simp at h
  rw [Except.ok.injEq] at h
  subst h
  exact ⟨rfl, rfl⟩

/-- The references after a restore. -/
theorem blobRefs_applyRestore {file : StoredFile}
    (h : applyRestore P now op file tx = .ok applied) :
    applied.conflictId = none ∧
      applied.tx.blobRefs = (updateBlobRefs tx (some file) applied.file).blobRefs := by
  unfold applyRestore at h
  dsimp only at h
  split at h
  · simp at h
  split at h
  · simp at h
  rw [Except.ok.injEq] at h
  subst h
  exact ⟨rfl, rfl⟩

theorem applyCreate_of_deleted {file : StoredFile} (h : file.deleted = true) :
    applyCreate P now uuid op (some file) tx = applyCreate P now uuid op none tx := by
  simp [applyCreate, h]

theorem row_of_requiredFile {row : Option StoredFile} {file : StoredFile}
    (h : requiredFile row = .ok file) : row = some file := by
  cases row with
  | none => simp [requiredFile, fail] at h
  | some row => simpa [requiredFile] using h

/-- An accepted op was applied to its row. -/
theorem applyOp_of_accepted (h : accepted P now uuid op userId s = some applied) :
    applyOp P now uuid op (opRow op s) (checkedContent op s) = .ok applied := by
  unfold accepted at h
  split at h
  · simp at h
  split at h
  · simp at h
  next tx hvalid =>
  obtain ⟨-, rfl⟩ := validatePayload_ok hvalid
  rw [(frame_checkedContent op s).1.getFile] at h
  cases happly : applyOp P now uuid op (s.getFile op.vaultId op.fileId) (checkedContent op s) with
  | error e => simp [happly, Except.toOption] at h
  | ok a =>
    rw [opRow, happly]
    simpa [happly, Except.toOption] using h

/-- **The references after an accepted op.** -/
theorem blobRefs_of_accepted (h : accepted P now uuid op userId s = some applied) :
    applied.tx.blobRefs = (refsAfter op (opRow op s) applied s).blobRefs := by
  have happly := applyOp_of_accepted h
  have hrefs := blobRefs_checkedContent op s
  -- an update moves the reference of its row, or keeps both sides of a conflict
  have hupdate : ∀ file, applyUpdate now uuid op file (checkedContent op s) = .ok applied →
      applied.tx.blobRefs = (match applied.conflictId with
        | some conflictId => addConflictRefs s conflictId file.blobRef op.blobRef
        | none => updateBlobRefs s (some file) applied.file).blobRefs := by
    intro file hfile
    rw [blobRefs_applyUpdate hfile]
    cases applied.conflictId with
    | none => exact updateBlobRefs_congr hrefs _ _
    | some conflictId => exact addConflictRefs_congr hrefs _ _ _
  unfold applyOp at happly
  split at happly
  · simp [fail] at happly
  split at happly
  · simp [fail] at happly
  unfold refsAfter
  cases hkind : op.kind with
  | create =>
    simp only [hkind] at happly
    -- a create over a tombstone adds a reference and removes none
    have hcreate : applyCreate P now uuid op none (checkedContent op s) = .ok applied →
        applied.tx.blobRefs = (match applied.conflictId with
          | some conflictId =>
            addConflictRefs s conflictId ((opRow op s).bind StoredFile.blobRef) op.blobRef
          | none => updateBlobRefs s none applied.file).blobRefs := by
      intro hok
      obtain ⟨hnone, hafter⟩ := blobRefs_applyCreate hok
      rw [hnone, hafter]
      exact updateBlobRefs_congr hrefs _ _
    cases hrow : opRow op s with
    | none =>
      rw [hrow] at happly hcreate
      exact hcreate happly
    | some file =>
      rw [hrow] at happly hcreate
      cases hlive : file.deleted with
      | false =>
        simp only [applyCreate, hlive, Bool.not_false, if_true] at happly
        rw [Option.filter_some, if_pos (by simp [hlive])]
        exact hupdate file happly
      | true =>
        rw [applyCreate_of_deleted hlive] at happly
        rw [Option.filter_some, if_neg (by simp [hlive])]
        exact hcreate happly
  | update =>
    simp only [hkind] at happly
    split at happly
    · simp at happly
    next file hfile =>
    rw [row_of_requiredFile hfile]
    exact hupdate file happly
  | rename =>
    simp only [hkind] at happly
    split at happly
    · simp at happly
    obtain ⟨hnone, hafter⟩ := blobRefs_applyRename happly
    rw [hnone, hafter]
    exact hrefs
  | delete =>
    simp only [hkind] at happly
    split at happly
    · simp at happly
    rw [Except.ok.injEq] at happly
    subst happly
    exact hrefs
  | restore =>
    simp only [hkind] at happly
    split at happly
    · simp at happly
    next file hfile =>
    obtain ⟨hnone, hafter⟩ := blobRefs_applyRestore happly
    rw [hnone, hafter, row_of_requiredFile hfile]
    exact updateBlobRefs_congr hrefs _ _

end Accepted

end ObsidianSync
