import ObsidianSync.Client.Reconcile

/-!
# What a reconciliation plan does

The loop that plans the renames remembers the entries it used by their paths.  Where two
entries of the index have one path, using one of them hides the other, which is then
neither renamed nor deleted.

## Main definitions

* `applyReconciliation` — the entries of the index after a plan.
* `Reconciles` — the plan puts each entry and each file in one class, and turns the index
  into the disk.
* `Separable` — an entry that is on disk or would be renamed has its path for itself.

## Main results

* `mem_firstFit_of_mem_take`, `alone_of_mem_firstFit` — which entries are renamed.
* `reconciles_iff_separable` — **the plan turns the index into the disk exactly where the
  entries are separable.**
-/

namespace ObsidianSync

/-! ### Carrying out a plan -/

/-- What a plan is about of an entry; a created one has no id yet. -/
structure PlannedFile where
  fileId : Option String
  path : String
  contentHash : Option String
  deriving DecidableEq

/-- An entry of the index as a file of a plan. -/
def FileIndexEntry.toPlanned (entry : FileIndexEntry) : PlannedFile :=
  { fileId := some entry.fileId, path := entry.path, contentHash := entry.contentHash }

/-- A file of the disk as a file of a plan. -/
def DiskFile.toPlanned (file : DiskFile) : PlannedFile :=
  { fileId := none, path := file.path, contentHash := some file.contentHash }

/-- A file after an update of the plan. -/
def applyPlannedUpdate (update : FileIndexEntry × DiskFile) (file : PlannedFile) : PlannedFile :=
  if file.fileId = some update.1.fileId then
    { file with contentHash := some update.2.contentHash }
  else file

/-- A file after a rename of the plan. -/
def applyPlannedRename (rename : PlannedRename) (file : PlannedFile) : PlannedFile :=
  if file.fileId = some rename.fileId then { file with path := rename.newPath } else file

/-- The entries after the updates, the renames, the deletes and the creates. -/
def applyReconciliation (indexed : List FileIndexEntry) (plan : ReconciliationPlan) :
    List PlannedFile :=
  let updated := plan.updates.foldl (fun files update => files.map (applyPlannedUpdate update))
    (indexed.map FileIndexEntry.toPlanned)
  let renamed := plan.renames.foldl (fun files rename => files.map (applyPlannedRename rename))
    updated
  let kept := plan.deletes.foldl
    (fun files entry => files.filter fun file => file.fileId ≠ some entry.fileId) renamed
  kept ++ plan.creates.map DiskFile.toPlanned

/-- Each entry is on disk, or renamed once, or deleted; each file of the disk is indexed, or the
target of one rename, or created; a rename is between equal hashes; and what the plan leaves has
the paths and hashes of the disk. -/
structure Reconciles (indexed : List FileIndexEntry) (disk : List DiskFile)
    (plan : ReconciliationPlan) : Prop where
  entries : ∀ entry ∈ indexed,
    (disk.any fun file => file.path = entry.path).toNat +
      (plan.renames.countP fun rename => rename.fileId = entry.fileId) +
      (plan.deletes.countP fun deleted => deleted.fileId = entry.fileId) = 1
  files : ∀ file ∈ disk,
    (indexed.any fun entry => entry.path = file.path).toNat +
      (plan.renames.countP fun rename => rename.newPath = file.path) +
      (plan.creates.countP fun created => created.path = file.path) = 1
  hashes : ∀ rename ∈ plan.renames,
    (∃ entry ∈ indexed, entry.fileId = rename.fileId ∧ entry.path = rename.oldPath ∧
      entry.contentHash = some rename.contentHash) ∧
    ∃ file ∈ disk, file.path = rename.newPath ∧ file.contentHash = rename.contentHash
  applied : ((applyReconciliation indexed plan).map fun file => (file.path, file.contentHash)).Perm
    (disk.map fun file => (file.path, some file.contentHash))

/-- The entries of a hash that are not on disk, in the order of the index. -/
def goneEntries (indexed : List FileIndexEntry) (disk : List DiskFile) (hash : String) :
    List FileIndexEntry :=
  indexed.filter fun entry =>
    entry.contentHash = some hash && !(disk.any fun file => file.path = entry.path)

/-- How many files of a hash are not indexed. -/
def newFiles (indexed : List FileIndexEntry) (disk : List DiskFile) (hash : String) : ℕ :=
  disk.countP fun file =>
    file.contentHash = hash && !(indexed.any fun entry => entry.path = file.path)

/-- No two entries share a path that is on disk; and of the entries of a hash that are not on disk,
the first ones, as many as there are new files of the hash, share their path with none. -/
structure Separable (indexed : List FileIndexEntry) (disk : List DiskFile) : Prop where
  present : ∀ entry ∈ indexed, ∀ other ∈ indexed, other.path = entry.path →
    (∃ file ∈ disk, file.path = entry.path) → other = entry
  gone : ∀ hash, hash ≠ "" →
    ∀ entry ∈ (goneEntries indexed disk hash).take (newFiles indexed disk hash),
      ∀ other ∈ indexed, other.path = entry.path → other = entry

/-! ### The pairs -/

/-- No other of the entries has its path. -/
def Alone (missing : List FileIndexEntry) (entry : FileIndexEntry) : Prop :=
  ∀ other ∈ missing, other.path = entry.path → other = entry

section

variable {missing : List FileIndexEntry} {files : List DiskFile} {hash : String}

/-- The number of the files with a hash. -/
def countHash (files : List DiskFile) (hash : String) : ℕ :=
  files.countP fun file => file.contentHash = hash

/-- Without an entry that is alone, the bucket of its hash loses its first element, and the others
are what they were. -/
theorem missingByHash_without {entry : FileIndexEntry} {rest : List FileIndexEntry}
    (hnodup : missing.Nodup) (halone : Alone missing entry)
    (hbucket : missingByHash missing hash = entry :: rest) (hash' : String) :
    missingByHash (missing.filter fun other => other.path ≠ entry.path) hash' =
      if hash' = hash then rest else missingByHash missing hash' := by
  have hmem : entry ∈ missingByHash missing hash := by rw [hbucket]; exact List.mem_cons_self
  obtain ⟨hmissing, hentry⟩ := List.mem_filter.mp hmem
  have hhash : entry.contentHash = some hash := by simpa using (Bool.and_eq_true_iff.mp hentry).2
  have hfilter : (missing.filter fun other => other.path ≠ entry.path) =
      missing.filter fun other => other ≠ entry := by
    refine List.filter_congr fun other hother => decide_eq_decide.mpr (not_congr ⟨?_, ?_⟩)
    · exact halone other hother
    · exact fun h => congrArg _ h
  have hswap : missingByHash (missing.filter fun other => other ≠ entry) hash' =
      (missingByHash missing hash').filter fun other => other ≠ entry := by
    rw [missingByHash, missingByHash, List.filter_filter, List.filter_filter]
    exact List.filter_congr fun other _ => Bool.and_comm _ _
  rw [hfilter, hswap]
  split
  · next heq =>
    rw [heq, hbucket]
    have hnotMem : entry ∉ rest := by
      have hnodup' : (missingByHash missing hash).Nodup := hnodup.filter _
      rw [hbucket] at hnodup'
      exact (List.nodup_cons.mp hnodup').1
    rw [List.filter_cons_of_neg (by simp), List.filter_eq_self]
    intro other hother
    exact decide_eq_true fun h => hnotMem (h ▸ hother)
  · next hne =>
    rw [List.filter_eq_self]
    intro other hother
    refine decide_eq_true fun h => hne ?_
    have hother' := (List.mem_filter.mp hother).2
    rw [h, hhash] at hother'
    simpa [eq_comm] using (Bool.and_eq_true_iff.mp hother').2

/-- The first entries of a bucket, after one was taken for a file of the hash. -/
theorem take_without {entry : FileIndexEntry} {rest : List FileIndexEntry} {file : DiskFile}
    (hnodup : missing.Nodup) (halone : Alone missing entry)
    (hbucket : missingByHash missing file.contentHash = entry :: rest) :
    (missingByHash missing hash).take (countHash (file :: files) hash) =
      (if hash = file.contentHash then [entry] else []) ++
        (missingByHash (missing.filter fun other => other.path ≠ entry.path) hash).take
          (countHash files hash) := by
  rw [missingByHash_without hnodup halone hbucket]
  by_cases heq : hash = file.contentHash
  · simp [heq, hbucket, countHash]
  · simp [heq, countHash, Ne.symm heq]

theorem take_of_nil {file : DiskFile} (hbucket : missingByHash missing file.contentHash = []) :
    (missingByHash missing hash).take (countHash (file :: files) hash) =
      (missingByHash missing hash).take (countHash files hash) := by
  by_cases heq : hash = file.contentHash
  · simp [heq, hbucket]
  · simp [countHash, Ne.symm heq]

/-- **Where every entry that is taken is alone, the first entries of each bucket are taken.**  By
induction on the files. -/
theorem mem_firstFit_of_mem_take (hnodup : missing.Nodup)
    (h : ∀ pair ∈ firstFit missing files, Alone missing pair.2) {entry : FileIndexEntry}
    (hentry : entry ∈ (missingByHash missing hash).take (countHash files hash)) :
    ∃ pair ∈ firstFit missing files, pair.2 = entry := by
  induction files generalizing missing with
  | nil => simp [countHash] at hentry
  | cons file files ih =>
    rw [firstFit] at h ⊢
    cases hbucket : missingByHash missing file.contentHash with
    | nil =>
      simp only [hbucket, List.head?_nil] at h ⊢
      exact ih hnodup h (take_of_nil hbucket ▸ hentry)
    | cons first rest =>
      simp only [hbucket, List.head?_cons] at h ⊢
      have halone := h _ List.mem_cons_self
      rw [take_without hnodup halone hbucket] at hentry
      rcases List.mem_append.mp hentry with hfirst | hrest
      · refine ⟨_, List.mem_cons_self, ?_⟩
        split at hfirst
        · exact (List.mem_singleton.mp hfirst).symm
        · simp at hfirst
      · obtain ⟨pair, hpair, heq⟩ := ih (hnodup.filter _) (fun pair hpair other hother =>
          h pair (List.mem_cons_of_mem _ hpair) other (List.mem_of_mem_filter hother)) hrest
        exact ⟨pair, List.mem_cons_of_mem _ hpair, heq⟩

/-- **Where the first entries of each bucket are alone, so is every entry that is taken.** -/
theorem alone_of_mem_firstFit (hnodup : missing.Nodup)
    (h : ∀ hash, ∀ entry ∈ (missingByHash missing hash).take (countHash files hash),
      Alone missing entry) :
    ∀ pair ∈ firstFit missing files, Alone missing pair.2 := by
  induction files generalizing missing with
  | nil => simp [firstFit]
  | cons file files ih =>
    rw [firstFit]
    cases hbucket : missingByHash missing file.contentHash with
    | nil =>
      simp only [List.head?_nil]
      exact ih hnodup fun hash entry hentry =>
        h hash entry (by rw [take_of_nil hbucket]; exact hentry)
    | cons first rest =>
      simp only [List.head?_cons]
      have halone : Alone missing first := h file.contentHash first (by
        simp [hbucket, countHash])
      have hrest := ih (hnodup.filter _) fun hash entry hentry other hother =>
        h hash entry (by
          rw [take_without hnodup halone hbucket]
          exact List.mem_append_right _ hentry) other (List.mem_of_mem_filter hother)
      intro pair hpair
      rcases List.mem_cons.mp hpair with rfl | hpair
      · exact halone
      · -- one with the path of the entry is left as well
        intro other hother hpath
        refine hrest pair hpair other (List.mem_filter.mpr ⟨hother, ?_⟩) hpath
        rw [hpath]
        exact (List.mem_filter.mp (mem_of_mem_firstFit hpair)).2

/-- A file takes an entry of its bucket, each file one at most, and no two one of the same path. -/
theorem firstFit_spec (missing : List FileIndexEntry) (files : List DiskFile) :
    ((firstFit missing files).map Prod.fst).Sublist files ∧
      ((firstFit missing files).map fun pair => pair.2.path).Nodup ∧
      ∀ pair ∈ firstFit missing files, pair.2 ∈ missingByHash missing pair.1.contentHash := by
  induction files generalizing missing with
  | nil => simp [firstFit]
  | cons file files ih =>
    rw [firstFit]
    split
    · obtain ⟨hfiles, hpaths, hbucket⟩ := ih missing
      exact ⟨hfiles.cons _, hpaths, hbucket⟩
    · next entry hentry =>
      obtain ⟨hfiles, hpaths, hbucket⟩ :=
        ih (missing.filter fun other => other.path ≠ entry.path)
      refine ⟨hfiles.cons_cons _, List.nodup_cons.mpr ⟨?_, hpaths⟩, ?_⟩
      · intro hmem
        obtain ⟨pair, hpair, hpath⟩ := List.mem_map.mp hmem
        simpa [hpath] using (List.mem_filter.mp (mem_of_mem_firstFit hpair)).2
      · intro pair hpair
        rcases List.mem_cons.mp hpair with rfl | hpair
        · exact List.mem_of_mem_head? hentry
        · obtain ⟨hmem, hhash⟩ := List.mem_filter.mp (hbucket pair hpair)
          exact List.mem_filter.mpr ⟨List.mem_of_mem_filter hmem, hhash⟩

end

/-! ### The parts of the plan -/

section

variable {indexed : List FileIndexEntry} {disk : List DiskFile}

/-- The paths that appear and were used are the targets of the renames. -/
theorem consumedAppearing_foldl (missing : List FileIndexEntry) (files : List DiskFile)
    (loop : RenameLoop)
    (h : loop.consumedAppearing = loop.renames.map PlannedRename.newPath) :
    (files.foldl (planRename missing) loop).consumedAppearing =
      (files.foldl (planRename missing) loop).renames.map PlannedRename.newPath := by
  induction files generalizing loop with
  | nil => exact h
  | cons file files ih =>
    refine ih _ ?_
    unfold planRename
    dsimp only
    split
    · exact h
    · simp [h, renameTo]

/-- What is created appears, and no pair has it. -/
theorem mem_creates_iff {file : DiskFile} :
    file ∈ (planReconciliation indexed disk).creates ↔
      file ∈ appearingFiles indexed disk ∧
        ∀ pair ∈ planPairs indexed disk, pair.1.path ≠ file.path := by
  have hrenames := renames_planReconciliation indexed disk
  have hconsumed := consumedAppearing_foldl (missingEntries indexed disk)
    (appearingFiles indexed disk) {} rfl
  simp only [planReconciliation] at hrenames ⊢
  rw [List.mem_filter, hconsumed, hrenames]
  simp [renameTo]

theorem mem_missingEntries {entry : FileIndexEntry} : entry ∈ missingEntries indexed disk ↔
    entry ∈ indexed ∧ ∀ file ∈ disk, file.path ≠ entry.path := by
  simp [missingEntries]

theorem mem_appearingFiles {file : DiskFile} : file ∈ appearingFiles indexed disk ↔
    file ∈ disk ∧ ∀ entry ∈ indexed, entry.path ≠ file.path := by
  simp [appearingFiles]

/-- What a pair is made of. -/
theorem of_mem_planPairs {pair : DiskFile × FileIndexEntry} (h : pair ∈ planPairs indexed disk) :
    pair.2 ∈ missingEntries indexed disk ∧ pair.1 ∈ appearingFiles indexed disk ∧
      pair.2.contentHash = some pair.1.contentHash := by
  obtain ⟨hfiles, -, hbucket⟩ :=
    firstFit_spec (missingEntries indexed disk) (appearingFiles indexed disk)
  obtain ⟨hmissing, hhash⟩ := List.mem_filter.mp (hbucket pair h)
  exact ⟨hmissing, hfiles.subset (List.mem_map_of_mem h),
    by simpa using (Bool.and_eq_true_iff.mp hhash).2⟩

/-- A file is in one pair at most. -/
theorem pair_eq_of_path (hpaths : (disk.map DiskFile.path).Nodup)
    {pair pair' : DiskFile × FileIndexEntry} (h : pair ∈ planPairs indexed disk)
    (h' : pair' ∈ planPairs indexed disk) (hpath : pair.1.path = pair'.1.path) : pair = pair' := by
  have hfiles := (firstFit_spec (missingEntries indexed disk) (appearingFiles indexed disk)).1
  have hnodup : ((planPairs indexed disk).map fun pair => pair.1.path).Nodup := by
    have hsub := ((hfiles.trans List.filter_sublist).map DiskFile.path)
    rw [List.map_map] at hsub
    exact hpaths.sublist hsub
  exact List.inj_on_of_nodup_map hnodup h h' hpath

/-- So is a path of the index. -/
theorem pair_eq_of_oldPath {pair pair' : DiskFile × FileIndexEntry}
    (h : pair ∈ planPairs indexed disk) (h' : pair' ∈ planPairs indexed disk)
    (hpath : pair.2.path = pair'.2.path) : pair = pair' :=
  List.inj_on_of_nodup_map
    (firstFit_spec (missingEntries indexed disk) (appearingFiles indexed disk)).2.1 h h' hpath

/-- How often a key occurs in a list that has each once. -/
theorem countP_of_nodup_map {α β : Type*} [DecidableEq β] {l : List α} {f : α → β}
    (h : (l.map f).Nodup) (b : β) :
    (l.countP fun a => f a = b) = (l.any fun a => f a = b).toNat := by
  induction l with
  | nil => rfl
  | cons a l ih =>
    obtain ⟨hnotMem, hrest⟩ := List.nodup_cons.mp h
    rw [List.countP_cons, List.any_cons, ih hrest]
    by_cases heq : f a = b
    · have hnone : (l.any fun a => f a = b) = false := by
        rw [List.any_eq_false]
        intro other hother hsame
        exact hnotMem (List.mem_map.mpr ⟨other, hother, (of_decide_eq_true hsame).trans heq.symm⟩)
      simp [heq, hnone]
    · simp [heq]

/-! ### The classes -/

/-- The ids of the renames. -/
theorem nodup_renamed_ids (hids : (indexed.map FileIndexEntry.fileId).Nodup) :
    ((planReconciliation indexed disk).renames.map PlannedRename.fileId).Nodup := by
  rw [renames_planReconciliation, List.map_map, List.Nodup, List.pairwise_map]
  have hpairs := List.pairwise_map.mp
    (firstFit_spec (missingEntries indexed disk) (appearingFiles indexed disk)).2.1
  refine hpairs.imp_of_mem ?_
  intro pair pair' hpair hpair' hne hid
  have hmem := (mem_missingEntries.mp (of_mem_planPairs hpair).1).1
  have hmem' := (mem_missingEntries.mp (of_mem_planPairs hpair').1).1
  exact hne (congrArg _ (List.inj_on_of_nodup_map hids hmem hmem' hid))

/-- The targets of the renames. -/
theorem nodup_renamed_paths (hpaths : (disk.map DiskFile.path).Nodup) :
    ((planReconciliation indexed disk).renames.map PlannedRename.newPath).Nodup := by
  have hfiles := (firstFit_spec (missingEntries indexed disk) (appearingFiles indexed disk)).1
  have hsub := (hfiles.trans List.filter_sublist).map DiskFile.path
  rw [List.map_map] at hsub
  rw [renames_planReconciliation, List.map_map]
  exact hpaths.sublist hsub

/-- An entry is the source of a rename if a pair has it. -/
theorem any_renames_iff (hids : (indexed.map FileIndexEntry.fileId).Nodup)
    {entry : FileIndexEntry} (hentry : entry ∈ indexed) :
    ((planReconciliation indexed disk).renames.any fun rename =>
        rename.fileId = entry.fileId) = true ↔
      ∃ pair ∈ planPairs indexed disk, pair.2 = entry := by
  rw [renames_planReconciliation, List.any_map, List.any_eq_true]
  simp only [Function.comp_apply, renameTo, decide_eq_true_eq]
  refine exists_congr fun pair => and_congr_right fun hpair => ⟨fun hid => ?_, fun h => by rw [h]⟩
  have hindexed := (mem_missingEntries.mp (of_mem_planPairs hpair).1).1
  exact List.inj_on_of_nodup_map hids hindexed hentry hid

/-- It is deleted if it is missing and no pair has its path. -/
theorem any_deletes_iff (hids : (indexed.map FileIndexEntry.fileId).Nodup)
    {entry : FileIndexEntry} (hentry : entry ∈ indexed) :
    ((planReconciliation indexed disk).deletes.any fun deleted =>
        deleted.fileId = entry.fileId) = true ↔
      entry ∈ missingEntries indexed disk ∧
        ∀ pair ∈ planPairs indexed disk, pair.2.path ≠ entry.path := by
  rw [← mem_deletes_iff, List.any_eq_true]
  simp only [decide_eq_true_eq]
  constructor
  · rintro ⟨deleted, hdeleted, hid⟩
    have hindexed := (mem_missingEntries.mp (mem_deletes_iff.mp hdeleted).1).1
    rwa [← List.inj_on_of_nodup_map hids hindexed hentry hid]
  · exact fun h => ⟨entry, h, rfl⟩

/-- The classes of an entry: on disk, in a pair, or missing with no pair of its path. -/
theorem entryClasses (hids : (indexed.map FileIndexEntry.fileId).Nodup)
    {entry : FileIndexEntry} (hentry : entry ∈ indexed) :
    (disk.any fun file => file.path = entry.path).toNat +
        ((planReconciliation indexed disk).renames.countP fun rename =>
          rename.fileId = entry.fileId) +
        ((planReconciliation indexed disk).deletes.countP fun deleted =>
          deleted.fileId = entry.fileId) = 1 ↔
      (entry ∈ missingEntries indexed disk →
        (∃ pair ∈ planPairs indexed disk, pair.2.path = entry.path) →
          ∃ pair ∈ planPairs indexed disk, pair.2 = entry) := by
  have hdeletes : ((planReconciliation indexed disk).deletes.map FileIndexEntry.fileId).Nodup :=
    hids.sublist ((List.filter_sublist.trans List.filter_sublist).map _)
  rw [countP_of_nodup_map (nodup_renamed_ids hids), countP_of_nodup_map hdeletes]
  have hrenamed : ((planReconciliation indexed disk).renames.any fun rename =>
      rename.fileId = entry.fileId) = true ↔ _ := any_renames_iff hids hentry
  have hdeleted : ((planReconciliation indexed disk).deletes.any fun deleted =>
      deleted.fileId = entry.fileId) = true ↔ _ := any_deletes_iff hids hentry
  have hmissing : entry ∈ missingEntries indexed disk ↔
      (disk.any fun file => file.path = entry.path) = false := by
    rw [mem_missingEntries, List.any_eq_false]
    simp [hentry]
  generalize (planReconciliation indexed disk).renames.any (fun rename =>
    rename.fileId = entry.fileId) = renamed at hrenamed ⊢
  generalize (planReconciliation indexed disk).deletes.any (fun deleted =>
    deleted.fileId = entry.fileId) = deleted at hdeleted ⊢
  rw [hmissing] at hdeleted ⊢
  have hapart : renamed = true → (disk.any fun file => file.path = entry.path) = false := by
    intro h
    obtain ⟨pair, hpair, rfl⟩ := hrenamed.mp h
    exact hmissing.mp (of_mem_planPairs hpair).1
  have hused : renamed = true → ∃ pair ∈ planPairs indexed disk, pair.2.path = entry.path := by
    intro h
    obtain ⟨pair, hpair, heq⟩ := hrenamed.mp h
    exact ⟨pair, hpair, congrArg _ heq⟩
  generalize (disk.any fun file => file.path = entry.path) = present at hdeleted hapart ⊢
  -- a missing entry whose path is in a pair is no delete, so it must be that pair
  by_cases hpath : ∃ pair ∈ planPairs indexed disk, pair.2.path = entry.path
  · have hnot : deleted = false := by
      rw [← Bool.not_eq_true, hdeleted]
      obtain ⟨pair, hpair, heq⟩ := hpath
      exact fun h => h.2 pair hpair heq
    rw [← hrenamed, hnot]
    cases present <;> cases renamed <;> simp_all
  · have hnot : renamed = false := by
      rw [← Bool.not_eq_true]
      exact fun h => hpath (hused h)
    have hdeleted' : deleted = true ↔ present = false := by
      rw [hdeleted]
      exact ⟨fun h => h.1, fun h => ⟨h, fun pair hpair heq => hpath ⟨pair, hpair, heq⟩⟩⟩
    refine iff_of_true ?_ fun _ h => absurd h hpath
    rw [hnot]
    cases present <;> cases deleted <;> simp at hdeleted' ⊢

/-- **Each file of the disk is in one class.** -/
theorem fileClasses (hpaths : (disk.map DiskFile.path).Nodup) {file : DiskFile}
    (hfile : file ∈ disk) :
    (indexed.any fun entry => entry.path = file.path).toNat +
        ((planReconciliation indexed disk).renames.countP fun rename =>
          rename.newPath = file.path) +
        ((planReconciliation indexed disk).creates.countP fun created =>
          created.path = file.path) = 1 := by
  have hcreates : ((planReconciliation indexed disk).creates.map DiskFile.path).Nodup :=
    hpaths.sublist ((List.filter_sublist.trans List.filter_sublist).map _)
  rw [countP_of_nodup_map (nodup_renamed_paths hpaths), countP_of_nodup_map hcreates]
  have happearing : file ∈ appearingFiles indexed disk ↔
      (indexed.any fun entry => entry.path = file.path) = false := by
    rw [mem_appearingFiles, List.any_eq_false]
    simp [hfile]
  have hrenamed : ((planReconciliation indexed disk).renames.any fun rename =>
      rename.newPath = file.path) = true ↔
        ∃ pair ∈ planPairs indexed disk, pair.1.path = file.path := by
    rw [renames_planReconciliation, List.any_map, List.any_eq_true]
    simp only [Function.comp_apply, renameTo, decide_eq_true_eq]
  have hcreated : ((planReconciliation indexed disk).creates.any fun created =>
      created.path = file.path) = true ↔
        file ∈ appearingFiles indexed disk ∧
          ∀ pair ∈ planPairs indexed disk, pair.1.path ≠ file.path := by
    rw [← mem_creates_iff, List.any_eq_true]
    simp only [decide_eq_true_eq]
    constructor
    · rintro ⟨created, hmem, hpath⟩
      have hdisk := (mem_appearingFiles.mp (mem_creates_iff.mp hmem).1).1
      rwa [← List.inj_on_of_nodup_map hpaths hdisk hfile hpath]
    · exact fun h => ⟨file, h, rfl⟩
  have hapart : (∃ pair ∈ planPairs indexed disk, pair.1.path = file.path) →
      file ∈ appearingFiles indexed disk := by
    rintro ⟨pair, hpair, hpath⟩
    have hmem := (of_mem_planPairs hpair).2.1
    rwa [List.inj_on_of_nodup_map hpaths (mem_appearingFiles.mp hmem).1 hfile hpath] at hmem
  rw [happearing] at hcreated hapart
  rw [← hrenamed] at hapart
  have hfree : (∀ pair ∈ planPairs indexed disk, pair.1.path ≠ file.path) ↔
      ((planReconciliation indexed disk).renames.any fun rename =>
        rename.newPath = file.path) = false := by
    rw [← Bool.not_eq_true, hrenamed]
    simp
  rw [hfree] at hcreated
  generalize (planReconciliation indexed disk).renames.any _ = renamed at *
  generalize (planReconciliation indexed disk).creates.any _ = created at *
  generalize indexed.any _ = known at *
  cases known <;> cases renamed <;> cases created <;> simp_all

/-! ### The entries after the plan -/

/-- Steps on each element, one after the other. -/
theorem foldl_map {α β : Type*} (g : α → β → β) (l : List α) (files : List β) :
    l.foldl (fun files a => files.map (g a)) files =
      files.map fun file => l.foldl (fun file a => g a file) file := by
  induction l generalizing files with
  | nil => simp
  | cons a l ih => rw [List.foldl_cons, ih, List.map_map]; rfl

/-- Steps that each overwrite what has their key leave what was there, or what one of them
wrote. -/
theorem foldl_overwrite {α β κ : Type*} [DecidableEq κ] (keyOf : α → κ) (key : β → κ)
    (write : α → β → β) (hkey : ∀ a b, key (write a b) = key b)
    (hwrite : ∀ a a' b, write a' (write a b) = write a' b) (l : List α) (b : β) :
    ((∀ a ∈ l, key b ≠ keyOf a) ∧
        l.foldl (fun b a => if key b = keyOf a then write a b else b) b = b) ∨
      ∃ a ∈ l, key b = keyOf a ∧
        l.foldl (fun b a => if key b = keyOf a then write a b else b) b = write a b := by
  induction l generalizing b with
  | nil => simp
  | cons a l ih =>
    rw [List.foldl_cons]
    by_cases heq : key b = keyOf a
    · rw [if_pos heq]
      rcases ih (write a b) with ⟨-, h⟩ | ⟨a', ha', hkeys, h⟩
      · exact Or.inr ⟨a, List.mem_cons_self, heq, h⟩
      · rw [hkey] at hkeys
        exact Or.inr ⟨a', List.mem_cons_of_mem _ ha', hkeys, h.trans (hwrite a a' b)⟩
    · rw [if_neg heq]
      rcases ih b with ⟨hnone, h⟩ | ⟨a', ha', hkeys, h⟩
      · refine Or.inl ⟨fun a' ha' => ?_, h⟩
        rcases List.mem_cons.mp ha' with rfl | ha'
        · exact heq
        · exact hnone a' ha'
      · exact Or.inr ⟨a', List.mem_cons_of_mem _ ha', hkeys, h⟩

theorem foldl_filter {α β : Type*} (keep : α → β → Bool) (l : List α) (files : List β) :
    l.foldl (fun files a => files.filter (keep a)) files =
      files.filter fun file => l.all fun a => keep a file := by
  induction l generalizing files with
  | nil => simp
  | cons a l ih =>
    rw [List.foldl_cons, ih, List.filter_filter]
    exact List.filter_congr fun file _ => Bool.and_comm _ _

/-- An entry after the updates and the renames. -/
def settled (plan : ReconciliationPlan) (entry : FileIndexEntry) : PlannedFile :=
  plan.renames.foldl (fun file rename => applyPlannedRename rename file)
    (plan.updates.foldl (fun file update => applyPlannedUpdate update file) entry.toPlanned)

/-- The hash is that of an update of the id, and the path that of a rename. -/
theorem settled_spec (plan : ReconciliationPlan) (entry : FileIndexEntry) :
    (settled plan entry).fileId = some entry.fileId ∧
    ((∀ update ∈ plan.updates, update.1.fileId ≠ entry.fileId) ∧
        (settled plan entry).contentHash = entry.contentHash ∨
      ∃ update ∈ plan.updates, update.1.fileId = entry.fileId ∧
        (settled plan entry).contentHash = some update.2.contentHash) ∧
    ((∀ rename ∈ plan.renames, rename.fileId ≠ entry.fileId) ∧
        (settled plan entry).path = entry.path ∨
      ∃ rename ∈ plan.renames, rename.fileId = entry.fileId ∧
        (settled plan entry).path = rename.newPath) := by
  obtain ⟨updated, hupdated⟩ : ∃ updated, plan.updates.foldl
      (fun file update => applyPlannedUpdate update file) entry.toPlanned = updated := ⟨_, rfl⟩
  -- the updates first, then the renames, each of which leaves the id
  have hupdate := foldl_overwrite (fun update : FileIndexEntry × DiskFile => some update.1.fileId)
    PlannedFile.fileId
    (fun update file => { file with contentHash := some update.2.contentHash })
    (fun _ _ => rfl) (fun _ _ _ => rfl) plan.updates entry.toPlanned
  have hrename := foldl_overwrite (fun rename : PlannedRename => some rename.fileId)
    PlannedFile.fileId (fun rename file => { file with path := rename.newPath })
    (fun _ _ => rfl) (fun _ _ _ => rfl) plan.renames updated
  have hsettled : settled plan entry = plan.renames.foldl (fun file rename =>
      if file.fileId = some rename.fileId then { file with path := rename.newPath } else file)
        updated := by
    rw [← hupdated]
    rfl
  have hupdated' : updated = plan.updates.foldl (fun file update =>
      if file.fileId = some update.1.fileId then
        { file with contentHash := some update.2.contentHash } else file) entry.toPlanned :=
    hupdated.symm
  rw [← hupdated'] at hupdate
  rw [← hsettled] at hrename
  have hid : updated.fileId = some entry.fileId := by
    rcases hupdate with ⟨-, h⟩ | ⟨_, -, -, h⟩ <;> rw [h] <;> rfl
  have hkept : updated.path = entry.path := by
    rcases hupdate with ⟨-, h⟩ | ⟨_, -, -, h⟩ <;> rw [h] <;> rfl
  rw [hid] at hrename
  have hhash : (settled plan entry).contentHash = updated.contentHash := by
    rcases hrename with ⟨-, h⟩ | ⟨_, -, -, h⟩ <;> rw [h]
  refine ⟨?_, ?_, ?_⟩
  · rcases hrename with ⟨-, h⟩ | ⟨_, -, -, h⟩
    · rw [h, hid]
    · rw [h]
  · rw [hhash]
    rcases hupdate with ⟨hnone, h⟩ | ⟨update, hmem, hkey, h⟩
    · exact Or.inl ⟨fun update hmem heq => hnone update hmem (congrArg some heq.symm), by
        rw [h]
        rfl⟩
    · exact Or.inr ⟨update, hmem, (Option.some.inj hkey).symm, by rw [h]⟩
  · rcases hrename with ⟨hnone, h⟩ | ⟨rename, hmem, hkey, h⟩
    · exact Or.inl ⟨fun rename hmem heq => hnone rename hmem (congrArg some heq.symm), by
        rw [h, hkept]⟩
    · exact Or.inr ⟨rename, hmem, (Option.some.inj hkey).symm, by rw [h]⟩

/-- The entries that a plan does not delete. -/
def keptEntries (indexed : List FileIndexEntry) (plan : ReconciliationPlan) :
    List FileIndexEntry :=
  indexed.filter fun entry => plan.deletes.all fun deleted => entry.fileId ≠ deleted.fileId

/-- **The entries after a plan**: those it does not delete, settled, and those it creates. -/
theorem applyReconciliation_eq (plan : ReconciliationPlan) :
    applyReconciliation indexed plan =
      (keptEntries indexed plan).map (settled plan) ++
        plan.creates.map DiskFile.toPlanned := by
  have hkept : (keptEntries indexed plan).map (settled plan) =
      (indexed.map (settled plan)).filter fun file => plan.deletes.all fun deleted =>
        file.fileId ≠ some deleted.fileId := by
    rw [List.filter_map, keptEntries]
    refine congrArg _ (List.filter_congr fun entry _ => ?_)
    simp only [Function.comp_apply, (settled_spec plan entry).1, ne_eq, Option.some.injEq]
  rw [hkept]
  unfold applyReconciliation
  dsimp only
  rw [foldl_filter, foldl_map, foldl_map, List.map_map, List.map_map]
  rfl

/-! ### What is left of an entry -/

/-- What is updated is on disk, and differs. -/
theorem mem_updates_iff {update : FileIndexEntry × DiskFile} :
    update ∈ (planReconciliation indexed disk).updates ↔
      update.2 ∈ disk ∧
        (indexed.reverse.find? fun entry => entry.path = update.2.path) = some update.1 ∧
        (update.1.contentHash ≠ some update.2.contentHash ∨ update.1.size ≠ update.2.size) := by
  obtain ⟨entry, file⟩ := update
  simp only [planReconciliation, List.mem_filter, List.mem_filterMap, Option.map_eq_some_iff,
    Prod.mk.injEq, Bool.or_eq_true, decide_eq_true_eq]
  constructor
  · rintro ⟨⟨file', hfile, entry', hfound, rfl, rfl⟩, hdiffers⟩
    exact ⟨hfile, hfound, hdiffers⟩
  · rintro ⟨hfile, hfound, hdiffers⟩
    exact ⟨⟨file, hfile, entry, hfound, rfl, rfl⟩, hdiffers⟩

theorem of_mem_updates {update : FileIndexEntry × DiskFile}
    (h : update ∈ (planReconciliation indexed disk).updates) :
    update.1 ∈ indexed ∧ update.2 ∈ disk ∧ update.1.path = update.2.path := by
  obtain ⟨hfile, hfound, -⟩ := mem_updates_iff.mp h
  have hpath := List.find?_some hfound
  exact ⟨List.mem_reverse.mp (List.mem_of_find?_eq_some hfound), hfile, of_decide_eq_true hpath⟩

variable (hids : (indexed.map FileIndexEntry.fileId).Nodup)
include hids

/-- An entry on disk keeps its path, and is kept. -/
theorem settled_of_present {entry : FileIndexEntry} (hentry : entry ∈ indexed) {file : DiskFile}
    (hfile : file ∈ disk) (hpath : file.path = entry.path) :
    entry ∈ keptEntries indexed (planReconciliation indexed disk) ∧
      (settled (planReconciliation indexed disk) entry).path = entry.path := by
  have hmissing : entry ∉ missingEntries indexed disk := fun h =>
    (mem_missingEntries.mp h).2 file hfile hpath
  constructor
  · refine List.mem_filter.mpr ⟨hentry, List.all_eq_true.mpr fun deleted hdeleted =>
      decide_eq_true fun hid => hmissing ?_⟩
    have hmem := (mem_deletes_iff.mp hdeleted).1
    rwa [List.inj_on_of_nodup_map hids hentry (mem_missingEntries.mp hmem).1 hid]
  · rcases (settled_spec (planReconciliation indexed disk) entry).2.2 with
      ⟨-, h⟩ | ⟨rename, hrename, hid, -⟩
    · exact h
    · rw [renames_planReconciliation] at hrename
      obtain ⟨pair, hpair, rfl⟩ := List.mem_map.mp hrename
      have hmem := (of_mem_planPairs hpair).1
      have heq : pair.2 = entry :=
        List.inj_on_of_nodup_map hids (mem_missingEntries.mp hmem).1 hentry hid
      exact absurd (heq ▸ hmem) hmissing

/-- It gets the hash of the file, where no other entry has the path. -/
theorem contentHash_settled_of_present (hpaths : (disk.map DiskFile.path).Nodup)
    {entry : FileIndexEntry} (hentry : entry ∈ indexed) {file : DiskFile} (hfile : file ∈ disk)
    (hpath : file.path = entry.path)
    (halone : ∀ other ∈ indexed, other.path = entry.path → other = entry) :
    (settled (planReconciliation indexed disk) entry).contentHash = some file.contentHash := by
  rcases (settled_spec (planReconciliation indexed disk) entry).2.1 with
    ⟨hnone, hhash⟩ | ⟨update, hupdate, hid, hhash⟩
  · -- the entry is found at the path, so it differs in nothing
    rw [hhash]
    by_contra hdiffers
    have hsome : (indexed.reverse.find? fun other => other.path = file.path).isSome = true :=
      List.find?_isSome.mpr ⟨entry, List.mem_reverse.mpr hentry, decide_eq_true hpath.symm⟩
    obtain ⟨found, hfound⟩ := Option.isSome_iff_exists.mp hsome
    have hfoundPath := List.find?_some hfound
    rw [decide_eq_true_eq] at hfoundPath
    obtain rfl := halone found (List.mem_reverse.mp (List.mem_of_find?_eq_some hfound))
      (hfoundPath.trans hpath)
    exact hnone (found, file) (mem_updates_iff.mpr ⟨hfile, hfound, Or.inl hdiffers⟩) rfl
  · obtain ⟨hindexed, hdisk, hupdatePath⟩ := of_mem_updates hupdate
    have heq := List.inj_on_of_nodup_map hids hindexed hentry hid
    rw [hhash, List.inj_on_of_nodup_map hpaths hdisk hfile
      (hupdatePath.symm.trans ((congrArg _ heq).trans hpath.symm))]

/-- A renamed entry has the path and the hash of the file of its pair, and is kept. -/
theorem settled_of_pair {pair : DiskFile × FileIndexEntry} (hpair : pair ∈ planPairs indexed disk) :
    pair.2 ∈ keptEntries indexed (planReconciliation indexed disk) ∧
      (settled (planReconciliation indexed disk) pair.2).path = pair.1.path ∧
      (settled (planReconciliation indexed disk) pair.2).contentHash =
        some pair.1.contentHash := by
  obtain ⟨hmissing, -, hhash⟩ := of_mem_planPairs hpair
  obtain ⟨hentry, hgone⟩ := mem_missingEntries.mp hmissing
  obtain ⟨-, hhashes, hrenames⟩ := settled_spec (planReconciliation indexed disk) pair.2
  refine ⟨?_, ?_, ?_⟩
  · refine List.mem_filter.mpr ⟨hentry, List.all_eq_true.mpr fun deleted hdeleted =>
      decide_eq_true fun hid => ?_⟩
    obtain ⟨hmem, hunused⟩ := mem_deletes_iff.mp hdeleted
    exact hunused pair hpair
      (congrArg _ (List.inj_on_of_nodup_map hids hentry (mem_missingEntries.mp hmem).1 hid))
  · rcases hrenames with ⟨hnone, -⟩ | ⟨rename, hrename, hid, hpath⟩
    · refine absurd rfl (hnone (renameTo pair.1 pair.2) ?_)
      rw [renames_planReconciliation]
      exact List.mem_map_of_mem hpair
    · rw [renames_planReconciliation] at hrename
      obtain ⟨pair', hpair', rfl⟩ := List.mem_map.mp hrename
      have hentry' := (mem_missingEntries.mp (of_mem_planPairs hpair').1).1
      have heq := pair_eq_of_oldPath hpair' hpair
        (congrArg _ (List.inj_on_of_nodup_map hids hentry' hentry hid))
      rw [hpath, ← heq, renameTo]
  · rcases hhashes with ⟨-, h⟩ | ⟨update, hupdate, hid, -⟩
    · rw [h, hhash]
    · obtain ⟨hindexed, hdisk, hpath⟩ := of_mem_updates hupdate
      rw [List.inj_on_of_nodup_map hids hindexed hentry hid] at hpath
      exact absurd hpath.symm (hgone update.2 hdisk)

/-! ### The index becomes the disk -/

/-- No entry that is renamed shares its path with another. -/
def PairsAlone (indexed : List FileIndexEntry) (disk : List DiskFile) : Prop :=
  ∀ pair ∈ planPairs indexed disk, ∀ other ∈ indexed, other.path = pair.2.path → other = pair.2

omit hids in
/-- The entries of a hash that are not on disk are a bucket of the loop. -/
theorem goneEntries_eq {hash : String} (h : hash ≠ "") :
    goneEntries indexed disk hash = missingByHash (missingEntries indexed disk) hash := by
  rw [goneEntries, missingByHash, missingEntries, List.filter_filter]
  refine List.filter_congr fun entry _ => ?_
  by_cases hhash : entry.contentHash = some hash
  · simp [hhash, truthy, h]
  · simp [hhash]

omit hids in
theorem newFiles_eq (indexed : List FileIndexEntry) (disk : List DiskFile) (hash : String) :
    newFiles indexed disk hash = countHash (appearingFiles indexed disk) hash := by
  rw [newFiles, countHash, appearingFiles, List.countP_filter]

omit hids in
/-- One with the path of a missing entry is missing. -/
theorem alone_iff {entry : FileIndexEntry} (h : entry ∈ missingEntries indexed disk) :
    Alone (missingEntries indexed disk) entry ↔
      ∀ other ∈ indexed, other.path = entry.path → other = entry := by
  refine ⟨fun halone other hother hpath => halone other (mem_missingEntries.mpr ⟨hother, ?_⟩) hpath,
    fun halone other hother => halone other (mem_missingEntries.mp hother).1⟩
  rw [hpath]
  exact (mem_missingEntries.mp h).2

/-- **The pairs are alone where the first entries of each hash are.** -/
theorem pairsAlone_iff : PairsAlone indexed disk ↔
    ∀ hash, hash ≠ "" →
      ∀ entry ∈ (goneEntries indexed disk hash).take (newFiles indexed disk hash),
        ∀ other ∈ indexed, other.path = entry.path → other = entry := by
  have hnodup : (missingEntries indexed disk).Nodup := (hids.of_map _).filter _
  constructor
  · intro halone hash hhash entry hentry
    rw [goneEntries_eq hhash, newFiles_eq] at hentry
    have hpairs : ∀ pair ∈ firstFit (missingEntries indexed disk) (appearingFiles indexed disk),
        Alone (missingEntries indexed disk) pair.2 := fun pair hpair =>
      (alone_iff (of_mem_planPairs hpair).1).mpr (halone pair hpair)
    obtain ⟨pair, hpair, rfl⟩ := mem_firstFit_of_mem_take hnodup hpairs hentry
    exact halone pair hpair
  · intro hgone pair hpair
    refine (alone_iff (of_mem_planPairs hpair).1).mp
      (alone_of_mem_firstFit hnodup (fun hash entry hentry => ?_) pair hpair)
    have hbucket := List.mem_of_mem_take hentry
    have hhash : hash ≠ "" := by
      rintro rfl
      have htruthy := (List.mem_filter.mp hbucket).2
      rw [Bool.and_eq_true, decide_eq_true_eq] at htruthy
      rw [htruthy.2] at htruthy
      exact absurd htruthy.1 (by decide)
    refine (alone_iff (List.mem_of_mem_filter hbucket)).mpr (hgone hash hhash entry ?_)
    rwa [goneEntries_eq hhash, newFiles_eq]

/-- Each entry is in one class exactly where the pairs are alone. -/
theorem entryClasses_iff_pairsAlone :
    (∀ entry ∈ indexed, (disk.any fun file => file.path = entry.path).toNat +
        ((planReconciliation indexed disk).renames.countP fun rename =>
          rename.fileId = entry.fileId) +
        ((planReconciliation indexed disk).deletes.countP fun deleted =>
          deleted.fileId = entry.fileId) = 1) ↔ PairsAlone indexed disk := by
  constructor
  · intro h pair hpair other hother hpath
    have hmissing := (of_mem_planPairs hpair).1
    have hotherMissing : other ∈ missingEntries indexed disk :=
      mem_missingEntries.mpr ⟨hother, by rw [hpath]; exact (mem_missingEntries.mp hmissing).2⟩
    obtain ⟨pair', hpair', rfl⟩ := (entryClasses hids hother).mp (h other hother) hotherMissing
      ⟨pair, hpair, hpath.symm⟩
    rw [pair_eq_of_oldPath hpair' hpair hpath]
  · intro h entry hentry
    refine (entryClasses hids hentry).mpr ?_
    rintro - ⟨pair, hpair, hpath⟩
    exact ⟨pair, hpair, (h pair hpair entry hentry hpath.symm).symm⟩

omit hids in
/-- What is kept is on disk, or renamed. -/
theorem of_mem_keptEntries (halone : PairsAlone indexed disk) {entry : FileIndexEntry}
    (h : entry ∈ keptEntries indexed (planReconciliation indexed disk)) :
    entry ∈ indexed ∧ ((∃ file ∈ disk, file.path = entry.path) ∨
      ∃ pair ∈ planPairs indexed disk, pair.2 = entry) := by
  obtain ⟨hentry, hkept⟩ := List.mem_filter.mp h
  refine ⟨hentry, ?_⟩
  by_contra hneither
  rw [not_or] at hneither
  have hdeleted : entry ∈ (planReconciliation indexed disk).deletes := by
    refine mem_deletes_iff.mpr ⟨mem_missingEntries.mpr ⟨hentry, fun file hfile hpath =>
      hneither.1 ⟨file, hfile, hpath⟩⟩, fun pair hpair hpath => hneither.2 ⟨pair, hpair, ?_⟩⟩
    exact (halone pair hpair entry hentry hpath.symm).symm
  simpa using List.all_eq_true.mp hkept entry hdeleted

section Separable

variable (hpaths : (disk.map DiskFile.path).Nodup) (h : Separable indexed disk)
include hpaths h

/-- A kept entry becomes a file of the disk: the one at its path, or the one of its pair. -/
theorem file_of_kept {entry : FileIndexEntry}
    (hkept : entry ∈ keptEntries indexed (planReconciliation indexed disk)) :
    ∃ file ∈ disk, ((settled (planReconciliation indexed disk) entry).path,
        (settled (planReconciliation indexed disk) entry).contentHash) =
          (file.path, some file.contentHash) ∧
      (file.path = entry.path ∨ (file, entry) ∈ planPairs indexed disk) := by
  obtain ⟨hentry, ⟨file, hfile, hpath⟩ | ⟨pair, hpair, rfl⟩⟩ :=
    of_mem_keptEntries ((pairsAlone_iff hids).mpr h.gone) hkept
  · have hhash := contentHash_settled_of_present hids hpaths hentry hfile hpath
      fun other hother hsame => h.present entry hentry other hother hsame ⟨file, hfile, hpath⟩
    rw [(settled_of_present hids hentry hfile hpath).2, hhash]
    exact ⟨file, hfile, by rw [hpath], Or.inl hpath⟩
  · obtain ⟨-, hnewPath, hhash⟩ := settled_of_pair hids hpair
    rw [hnewPath, hhash]
    exact ⟨pair.1, (mem_appearingFiles.mp (of_mem_planPairs hpair).2.1).1, rfl, Or.inr hpair⟩

/-- No two entries become one file. -/
theorem eq_of_settled {entry entry' : FileIndexEntry}
    (hkept : entry ∈ keptEntries indexed (planReconciliation indexed disk))
    (hkept' : entry' ∈ keptEntries indexed (planReconciliation indexed disk))
    (hpath : (settled (planReconciliation indexed disk) entry).path =
      (settled (planReconciliation indexed disk) entry').path) : entry = entry' := by
  obtain ⟨file, hfile, hleft, hclass⟩ := file_of_kept hids hpaths h hkept
  obtain ⟨file', hfile', hleft', hclass'⟩ := file_of_kept hids hpaths h hkept'
  have hsame : file.path = file'.path :=
    (congrArg Prod.fst hleft).symm.trans (hpath.trans (congrArg Prod.fst hleft'))
  obtain rfl := List.inj_on_of_nodup_map hpaths hfile hfile' hsame
  have hentry := (List.mem_filter.mp hkept).1
  have hentry' := (List.mem_filter.mp hkept').1
  rcases hclass with hon | hpair <;> rcases hclass' with hon' | hpair'
  · exact h.present entry' hentry' entry hentry (hon.symm.trans hon') ⟨file, hfile, hon'⟩
  · exact absurd hon.symm ((mem_appearingFiles.mp (of_mem_planPairs hpair').2.1).2 entry hentry)
  · exact absurd hon'.symm ((mem_appearingFiles.mp (of_mem_planPairs hpair).2.1).2 entry' hentry')
  · exact congrArg Prod.snd (pair_eq_of_path hpaths hpair hpair' rfl)

/-- The plan leaves each path once. -/
theorem nodup_applied : ((applyReconciliation indexed (planReconciliation indexed disk)).map
    PlannedFile.path).Nodup := by
  rw [applyReconciliation_eq, List.map_append, List.map_map, List.map_map, List.nodup_append']
  refine ⟨?_, hpaths.sublist ((List.filter_sublist.trans List.filter_sublist).map _), ?_⟩
  · rw [List.Nodup, List.pairwise_map]
    have hkeptNodup : (keptEntries indexed (planReconciliation indexed disk)).Nodup :=
      (hids.of_map _).filter _
    exact hkeptNodup.imp_of_mem fun hkept hkept' hne hpath =>
      hne (eq_of_settled hids hpaths h hkept hkept' hpath)
  · -- what is created is neither on the path of an entry nor in a pair
    intro path hkept hcreated
    obtain ⟨entry, hentry, rfl⟩ := List.mem_map.mp hkept
    obtain ⟨created, hmem, heq⟩ := List.mem_map.mp hcreated
    obtain ⟨file, -, hleft, hclass⟩ := file_of_kept hids hpaths h hentry
    obtain ⟨happearing, hunused⟩ := mem_creates_iff.mp hmem
    have hpath : created.path = file.path := heq.trans (congrArg Prod.fst hleft)
    rcases hclass with hon | hpair
    · exact (mem_appearingFiles.mp happearing).2 entry (List.mem_filter.mp hentry).1
        (hon.symm.trans hpath.symm)
    · exact hunused _ hpair hpath.symm

/-- Each file of the disk is left. -/
theorem mem_applied {file : DiskFile} (hfile : file ∈ disk) :
    ∃ left ∈ applyReconciliation indexed (planReconciliation indexed disk),
      (left.path, left.contentHash) = (file.path, some file.contentHash) := by
  rw [applyReconciliation_eq]
  by_cases happearing : file ∈ appearingFiles indexed disk
  · by_cases hused : ∃ pair ∈ planPairs indexed disk, pair.1.path = file.path
    · obtain ⟨pair, hpair, hpath⟩ := hused
      have hmem := (mem_appearingFiles.mp (of_mem_planPairs hpair).2.1).1
      obtain rfl := List.inj_on_of_nodup_map hpaths hmem hfile hpath
      obtain ⟨hkept, hnewPath, hhash⟩ := settled_of_pair hids hpair
      exact ⟨_, List.mem_append_left _ (List.mem_map_of_mem hkept), Prod.ext hnewPath hhash⟩
    · have hcreated : file ∈ (planReconciliation indexed disk).creates :=
        mem_creates_iff.mpr ⟨happearing, fun pair hpair hpath => hused ⟨pair, hpair, hpath⟩⟩
      exact ⟨_, List.mem_append_right _ (List.mem_map_of_mem hcreated), rfl⟩
  · obtain ⟨entry, hentry, hpath⟩ : ∃ entry ∈ indexed, entry.path = file.path := by
      by_contra hnone
      exact happearing (mem_appearingFiles.mpr ⟨hfile, fun entry hentry hpath =>
        hnone ⟨entry, hentry, hpath⟩⟩)
    obtain ⟨hkept, hsame⟩ := settled_of_present hids hentry hfile hpath.symm
    have hhash := contentHash_settled_of_present hids hpaths hentry hfile hpath.symm
      fun other hother heq => h.present entry hentry other hother heq ⟨file, hfile, hpath.symm⟩
    exact ⟨_, List.mem_append_left _ (List.mem_map_of_mem hkept),
      Prod.ext (hsame.trans hpath) hhash⟩

/-- **What the plan leaves are the files of the disk.**  Both sides have a path once, so it is
enough that they have the same elements. -/
theorem applied_perm : ((applyReconciliation indexed (planReconciliation indexed disk)).map
    fun file => (file.path, file.contentHash)).Perm
      (disk.map fun file => (file.path, some file.contentHash)) := by
  refine (List.perm_ext_iff_of_nodup ?_ ?_).mpr fun pair => ⟨fun hpair => ?_, fun hpair => ?_⟩
  · rw [List.Nodup, List.pairwise_map]
    exact (List.pairwise_map.mp (nodup_applied hids hpaths h)).imp fun hne heq =>
      hne (congrArg Prod.fst heq)
  · rw [List.Nodup, List.pairwise_map]
    exact (List.pairwise_map.mp hpaths).imp fun hne heq => hne (congrArg Prod.fst heq)
  · obtain ⟨left, hleft, rfl⟩ := List.mem_map.mp hpair
    rw [applyReconciliation_eq] at hleft
    rcases List.mem_append.mp hleft with hkept | hcreated
    · obtain ⟨entry, hentry, rfl⟩ := List.mem_map.mp hkept
      obtain ⟨file, hfile, hsettled, -⟩ := file_of_kept hids hpaths h hentry
      exact List.mem_map.mpr ⟨file, hfile, hsettled.symm⟩
    · obtain ⟨created, hmem, rfl⟩ := List.mem_map.mp hcreated
      exact List.mem_map.mpr
        ⟨created, (mem_appearingFiles.mp (mem_creates_iff.mp hmem).1).1, rfl⟩
  · obtain ⟨file, hfile, rfl⟩ := List.mem_map.mp hpair
    obtain ⟨left, hleft, heq⟩ := mem_applied hids hpaths h hfile
    exact List.mem_map.mpr ⟨left, hleft, heq⟩

end Separable

/-- Two entries at one path of the disk are both left there. -/
theorem present_of_applied (hpaths : (disk.map DiskFile.path).Nodup)
    (h : ((applyReconciliation indexed (planReconciliation indexed disk)).map
      fun file => (file.path, file.contentHash)).Perm
      (disk.map fun file => (file.path, some file.contentHash))) :
    ∀ entry ∈ indexed, ∀ other ∈ indexed, other.path = entry.path →
      (∃ file ∈ disk, file.path = entry.path) → other = entry := by
  rintro entry hentry other hother hsame ⟨file, hfile, hpath⟩
  have hleft := (h.map Prod.fst).nodup_iff.mpr (by rw [List.map_map]; exact hpaths)
  rw [applyReconciliation_eq, List.map_append, List.map_append, List.map_map, List.map_map,
    List.nodup_append'] at hleft
  obtain ⟨hkept, hstays⟩ := settled_of_present hids hentry hfile hpath
  obtain ⟨hkept', hstays'⟩ := settled_of_present hids hother hfile (hpath.trans hsame.symm)
  exact List.inj_on_of_nodup_map hleft.1 hkept' hkept (hstays'.trans (hsame.trans hstays.symm))

end

/-- **A plan puts each entry and each file in one class and turns the index into the disk exactly
where the entries are separable.** -/
theorem reconciles_iff_separable (indexed : List FileIndexEntry) (disk : List DiskFile)
    (hids : (indexed.map FileIndexEntry.fileId).Nodup)
    (hpaths : (disk.map DiskFile.path).Nodup) :
    Reconciles indexed disk (planReconciliation indexed disk) ↔ Separable indexed disk := by
  constructor
  · intro h
    exact ⟨present_of_applied hids hpaths h.applied,
      (pairsAlone_iff hids).mp ((entryClasses_iff_pairsAlone hids).mp h.entries)⟩
  · intro h
    refine ⟨(entryClasses_iff_pairsAlone hids).mpr ((pairsAlone_iff hids).mpr h.gone),
      fun file hfile => fileClasses hpaths hfile, fun rename hrename => ?_,
      applied_perm hids hpaths h⟩
    rw [renames_planReconciliation] at hrename
    obtain ⟨pair, hpair, rfl⟩ := List.mem_map.mp hrename
    obtain ⟨hmissing, happearing, hhash⟩ := of_mem_planPairs hpair
    exact ⟨⟨pair.2, (mem_missingEntries.mp hmissing).1, rfl, rfl, hhash⟩,
      pair.1, (mem_appearingFiles.mp happearing).1, rfl, rfl⟩

/-- An entry of the index. -/
def sampleGoneEntry (fileId path hash : String) : FileIndexEntry where
  fileId
  path
  pathNormalized := path
  type := .note
  contentHash := some hash
  size := 3
  appliedContentVV := sampleVV "d3" 1
  isDir := false
  mtime := 1

/-- Two notes with one hash that are gone, and one that changed. -/
def sampleMoved : List FileIndexEntry :=
  [sampleGoneEntry "f1" "a.md" "one", sampleGoneEntry "f2" "b.md" "one",
    sampleGoneEntry "f3" "c.md" "two"]

/-- A disk on which two notes were moved. -/
def sampleMovedDisk : List DiskFile :=
  [{ path := "x.md", contentHash := "one", size := 3 },
    { path := "c.md", contentHash := "three", size := 5 },
    { path := "y.md", contentHash := "two", size := 3 }]

theorem reconciles_iff_sampleMoved :
    Reconciles sampleMoved sampleMovedDisk (planReconciliation sampleMoved sampleMovedDisk) ↔
      Separable sampleMoved sampleMovedDisk :=
  reconciles_iff_separable sampleMoved sampleMovedDisk (by decide) (by decide)

/-- Two entries at one path. -/
def sampleTwins : List FileIndexEntry :=
  [sampleGoneEntry "f1" "a.md" "one", sampleGoneEntry "f2" "a.md" "two"]

/-- **Where one of two entries at a path is renamed, the other is neither renamed nor deleted**; and
where the path is on disk, both stay. -/
theorem not_reconciles_sampleTwins :
    ¬ Reconciles sampleTwins [{ path := "x.md", contentHash := "one", size := 3 }]
      (planReconciliation sampleTwins [{ path := "x.md", contentHash := "one", size := 3 }]) ∧
    ¬ Reconciles sampleTwins [{ path := "a.md", contentHash := "one", size := 3 }]
      (planReconciliation sampleTwins [{ path := "a.md", contentHash := "one", size := 3 }]) := by
  refine ⟨fun h => ?_, fun h => ?_⟩
  · have hclass := h.entries (sampleGoneEntry "f2" "a.md" "two") (by decide)
    revert hclass
    decide
  · have hlength := h.applied.length_eq
    revert hlength
    decide

end ObsidianSync
