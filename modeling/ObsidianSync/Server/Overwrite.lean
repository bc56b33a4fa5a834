import ObsidianSync.Lib.Run
import ObsidianSync.Server.System

/-!
# Silent overwrites

An op that takes a content version out of service should descend from it, or
leave it in an open conflict.  Updates compare vectors; deletes, restores and
creates over a deleted row do not.

## Main definitions

* `Displaces` — the version a row held is no longer its live content.
* `KeptByConflict` — an unresolved conflict has the version as a side.
* `NoSilentOverwrite` — a displaced version is kept or descended from.
* `ChecksCausality` — what an op has to meet for that.

## Main results

* `noSilentOverwrite_iff_checksCausality` — the ops that overwrite nothing
  silently.
-/

namespace ObsidianSync

open VersionVector

/-- The vector an op declares; for a delete without one, its base vector. -/
def opVV (op : FileOp) : VersionVector :=
  if op.kind = .delete then (op.newContentVV.or op.baseContentVV).getD emptyVV
  else op.newContentVV.getD emptyVV

/-- The content version of `file` is no longer live in `file'`: it was replaced by
another hash or vector, or deleted. -/
def Displaces (file file' : StoredFile) : Prop :=
  file'.contentHash ≠ file.contentHash ∨ equals file'.contentVV file.contentVV = false ∨
    (file.deleted = false ∧ file'.deleted = true)

/-- An unresolved conflict of the file has its content version as a side. -/
def KeptByConflict (s : Store) (file : StoredFile) : Prop :=
  ∃ conflict ∈ s.conflicts.rows, conflict.vaultId = file.vaultId ∧
    conflict.fileId = file.fileId ∧ conflict.status ≠ .resolved ∧
    ((conflict.oursHash = file.contentHash ∧
        conflict.oursVV.any (equals file.contentVV) = true) ∨
      (conflict.theirsHash = file.contentHash ∧
        conflict.theirsVV.any (equals file.contentVV) = true))

instance (s : Store) (file : StoredFile) : Decidable (KeptByConflict s file) := by
  unfold KeptByConflict
  infer_instance

instance (file file' : StoredFile) : Decidable (Displaces file file') := by
  unfold Displaces
  infer_instance

/-- If an op, taking the store from `s` to `s'`, displaces the content version of
its file, the version is kept by a conflict or the op's vector dominates it. -/
def NoSilentOverwrite (op : FileOp) (s s' : Store) : Prop :=
  ∀ file ∈ opRow op s, file.contentHash ≠ none →
    ∀ file' ∈ opRow op s', Displaces file file' → ¬ KeptByConflict s' file →
      dominates (opVV op) file.contentVV = true

instance (op : FileOp) (s s' : Store) : Decidable (NoSilentOverwrite op s s') := by
  unfold NoSilentOverwrite
  infer_instance

/-- Whether an op leaves the version of the row in service: a create only acts on
a deleted row, a delete on a live one, and a restore may bring the version back. -/
def LeavesVersion (op : FileOp) (file : StoredFile) : Prop :=
  match op.kind with
  | .create => file.deleted = false
  | .update => True
  | .rename => True
  | .delete => file.deleted = true
  | .restore => op.contentHash.or file.contentHash = file.contentHash ∧
      equals (restoredVV op file) file.contentVV = true

instance (op : FileOp) (file : StoredFile) : Decidable (LeavesVersion op file) := by
  unfold LeavesVersion
  exact OpKind.casesOn op.kind inferInstance inferInstance inferInstance inferInstance inferInstance

/-- The op meets a version it leaves in service, one its vector dominates, or one
an unresolved conflict keeps; or there is no content to lose. -/
def ChecksCausality (op : FileOp) (s : Store) : Prop :=
  ∀ file ∈ opRow op s, file.contentHash ≠ none →
    LeavesVersion op file ∨ dominates (opVV op) file.contentVV = true ∨ KeptByConflict s file

instance (op : FileOp) (s : Store) : Decidable (ChecksCausality op s) := by
  unfold ChecksCausality
  infer_instance

/-! ### Vectors that are not dominated -/

theorem equals_refl (v : VersionVector) : equals v v = true := by
  simp [equals, dominates_refl]

/-- A vector that does not dominate is not an equal one. -/
theorem equals_eq_false_of_dominates {v w : VersionVector} (h : dominates v w = false) :
    equals v w = false := by
  simp [equals, h]

/-! ### Accepted ops -/

section Step

variable {P : Platform} {now : Time} {uuid : Uuid} {op : FileOp} {userId : Option String}
  {s : Store} {applied : Applied}

/-- The row of an accepted op afterwards. -/
theorem opRow_commit (device : Option StoredDevice) (h : Effect P now uuid op s applied) :
    opRow op (commit now op device applied).2 = some applied.file := by
  have hkey := key_of_effect h
  rw [opRow, Store.getFile, commit_files, ← hkey]
  exact Table.get?_set_self applied.tx.files applied.file

/-- An op displaces the version of its row unless it leaves it in service; an
update or a create on a live row then dominates it. -/
theorem displaces_iff_of_effect (h : Effect P now uuid op s applied) {file : StoredFile}
    (hrow : opRow op s = some file) (hdom : dominates (opVV op) file.contentVV = false) :
    Displaces file applied.file ↔ ¬ LeavesVersion op file := by
  have hopVV : op.kind ≠ .delete → opVV op = declaredVV op := fun hkind => by
    simp [opVV, declaredVV, hkind]
  cases h with
  | created kind dead =>
    rw [hopVV (by simp [kind])] at hdom
    have hleaves : ¬ LeavesVersion op file := by simp [LeavesVersion, kind, dead file hrow]
    exact iff_of_true (Or.inr (Or.inl (equals_eq_false_of_dominates hdom))) hleaves
  | @updated row tx hrow' kind dominates =>
    -- this branch has checked domination
    obtain rfl : row = file := by simpa [hrow] using hrow'.symm
    have hkind : op.kind ≠ .delete := by rcases kind with ⟨h, -⟩ | h <;> simp [h]
    rw [hopVV hkind] at hdom
    simp [hdom] at dominates
  | @conflicted row tx hrow' kind =>
    obtain rfl : row = file := by simpa [hrow] using hrow'.symm
    have hleaves : LeavesVersion op row := by
      rcases kind with ⟨h, hlive⟩ | h <;> simp [LeavesVersion, *]
    refine iff_of_false ?_ (not_not.mpr hleaves)
    simp [Displaces, equals_refl]
  | @lostRename row clock tx hrow' kind =>
    obtain rfl : row = file := by simpa [hrow] using hrow'.symm
    exact iff_of_false (by simp [Displaces, equals_refl]) (by simp [LeavesVersion, kind])
  | @renamed row clock desired path tx hrow' kind =>
    obtain rfl : row = file := by simpa [hrow] using hrow'.symm
    exact iff_of_false (by simp [Displaces, renamedFile, equals_refl])
      (by simp [LeavesVersion, kind])
  | @deleted row tx hrow' kind =>
    obtain rfl : row = file := by simpa [hrow] using hrow'.symm
    simp [Displaces, LeavesVersion, kind, applyDelete, equals_refl]
  | @restored row desired path tx hrow' kind =>
    obtain rfl : row = file := by simpa [hrow] using hrow'.symm
    simp only [Displaces, LeavesVersion, kind, restoredFile, Bool.false_eq_true, and_false,
      or_false, not_and, Bool.not_eq_true]
    constructor
    · rintro (hne | hne) heq
      · exact absurd heq hne
      · exact hne
    · intro himp
      by_cases heq : op.contentHash.or row.contentHash = row.contentHash
      · exact Or.inr (himp heq)
      · exact Or.inl heq

/-- Where an op displaces a version it does not dominate, it opened no conflict. -/
theorem conflicts_of_displaces (h : Effect P now uuid op s applied) {file : StoredFile}
    (hrow : opRow op s = some file) (hdisp : Displaces file applied.file) :
    applied.tx.conflicts = s.conflicts := by
  cases h with
  | created kind dead canonical unique conflicts => exact conflicts
  | updated row kind dominates conflicts => exact conflicts
  | @conflicted row tx hrow' =>
    obtain rfl : row = file := by simpa [hrow] using hrow'.symm
    simp [Displaces, equals_refl] at hdisp
  | lostRename row kind clock_eq loses conflicts => exact conflicts
  | renamed row kind clock_eq wins canonical unique conflicts => exact conflicts
  | deleted row kind conflicts => exact conflicts
  | restored row kind canonical unique conflicts => exact conflicts

/-- **Silent overwrites.**  In any store, an accepted op overwrites nothing
silently exactly if it leaves the version it meets in service, dominates it, or
finds it in an unresolved conflict. -/
theorem noSilentOverwrite_iff_checksCausality
    (h : accepted P now uuid op userId s = some applied) :
    NoSilentOverwrite op s (process P now uuid op userId s).2 ↔ ChecksCausality op s := by
  have heffect := (accepted_spec h).effect
  have hrow' : opRow op (process P now uuid op userId s).2 = some applied.file := by
    rw [process_of_accepted h]
    exact opRow_commit _ heffect
  have hconflicts : (process P now uuid op userId s).2.conflicts = applied.tx.conflicts := by
    rw [process_of_accepted h, commit_conflicts]
  have hkept : ∀ {file}, opRow op s = some file → Displaces file applied.file →
      (KeptByConflict (process P now uuid op userId s).2 file ↔ KeptByConflict s file) := by
    intro file hrow hdisp
    simp only [KeptByConflict, hconflicts, conflicts_of_displaces heffect hrow hdisp]
  constructor
  · intro hno file hrow hhash
    by_contra hcon
    simp only [not_or, Bool.not_eq_true] at hcon
    obtain ⟨hleaves, hdom, hnot⟩ := hcon
    have hdisp := (displaces_iff_of_effect heffect hrow hdom).mpr hleaves
    have := hno file hrow hhash applied.file hrow' hdisp
      (fun hk => hnot ((hkept hrow hdisp).mp hk))
    simp [hdom] at this
  · intro hchecks file hrow hhash file' hfile' hdisp hnot
    obtain rfl : applied.file = file' := by simpa [hrow'] using hfile'
    by_contra hdom
    rw [Bool.not_eq_true] at hdom
    rcases hchecks file hrow hhash with hleaves | hdom' | hk
    · exact (displaces_iff_of_effect heffect hrow hdom).mp hdisp hleaves
    · simp [hdom] at hdom'
    · exact hnot ((hkept hrow hdisp).mpr hk)

end Step

/-! ### A deleted edit -/

/-- A note of device `d1`. -/
def oneNote : Store :=
  Run.final (serverStep samplePlatform) sampleStore
    [.process 1 sampleUuid
      (sampleContentOp .create "o1" "d1" "f1" 1 (some "a.md") (sampleVV "d1" 1) "one")
      (some "u")]

/-- The delete of a device that has not seen it. -/
def blindDelete : FileOp := sampleDelete "o2" "d2" "f1" 1

/-- The delete of a device that has seen it, and says so. -/
def seenDelete : FileOp := { blindDelete with baseContentVV := some (sampleVV "d1" 1) }

/-- A delete that declares the vector it has seen overwrites nothing silently. -/
theorem noSilentOverwrite_seenDelete :
    NoSilentOverwrite seenDelete oneNote
      (process samplePlatform 2 sampleUuid seenDelete (some "u") oneNote).2 :=
  (noSilentOverwrite_iff_checksCausality
    (Option.some_get (show (accepted samplePlatform 2 sampleUuid seenDelete (some "u")
      oneNote).isSome by decide)).symm).mpr (by decide)

/-- A delete without a vector is accepted and overwrites the note silently. -/
theorem silentOverwrite_blindDelete :
    (accepted samplePlatform 2 sampleUuid blindDelete (some "u") oneNote).isSome ∧
      ¬ NoSilentOverwrite blindDelete oneNote
        (process samplePlatform 2 sampleUuid blindDelete (some "u") oneNote).2 := by
  decide

end ObsidianSync
