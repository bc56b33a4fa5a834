import ObsidianSync.History.Versions
import ObsidianSync.Lib.Grouping

/-!
# What the collector keeps of the history

The collector reads the versions of all notes at once.  It groups them by the note,
sorts each group and keeps of each the current version and the newest ones of the
others, as many as it is told; the rest is pruned.

## Main definitions

* `GcSnapshotRow` — a version as the collector reads it.
* `selectYjsHistoryRetention` — which versions are kept and which are pruned.
* `RetainsNewest` — the right ones are kept.

## Main results

* `selectYjsHistoryRetention_eq` — what becomes of the versions, group by group.
* `retainsNewest_selectYjsHistoryRetention` — the right versions are kept, and for a
  note neither those of other notes nor the order of the rows plays a part.
-/

namespace ObsidianSync

/-! ### The selection -/

/-- A version, and whether it is the one its room was last saved as. -/
structure GcSnapshotRow extends StoredVersion where
  isCurrent : Bool
  deriving DecidableEq, Repr

/-- `${row.vaultId}:${row.fileId}`. -/
def GcSnapshotRow.groupKey (row : GcSnapshotRow) : String := row.vaultId ++ ":" ++ row.fileId

/-- The ids to keep, in the order in which they went into the set, and those to prune. -/
structure Retention where
  keepVersionIds : List String := []
  pruneVersionIds : List String := []
  deriving DecidableEq, Repr

/-- `keep.add(versionId)`. -/
def Retention.keep (retention : Retention) (versionId : String) : Retention :=
  if versionId ∈ retention.keepVersionIds then retention
  else { retention with keepVersionIds := retention.keepVersionIds ++ [versionId] }

/-- The loop over a sorted group, of which `retained` rows that are not current are kept so far. -/
def retainRows (retainedPerFile : ℕ) : ℕ → List GcSnapshotRow → Retention → Retention
  | _, [], retention => retention
  | retained, row :: group, retention =>
    if row.versionId ∈ retention.keepVersionIds then
      retainRows retainedPerFile retained group retention
    else if retained < retainedPerFile then
      retainRows retainedPerFile (retained + 1) group (retention.keep row.versionId)
    else
      retainRows retainedPerFile retained group
        { retention with pruneVersionIds := retention.pruneVersionIds ++ [row.versionId] }

/-- The loop body of `selectYjsHistoryRetention`. -/
def retainGroup (locale : Collation) (retainedPerFile : ℕ) (retention : Retention)
    (group : List GcSnapshotRow) : Retention :=
  let sorted := sortVersions locale GcSnapshotRow.toStoredVersion group
  retainRows retainedPerFile 0 sorted
    ((sorted.filter (·.isCurrent)).foldl (fun retention row => retention.keep row.versionId)
      retention)

/-- The versions to keep and those to delete, of all notes. -/
def selectYjsHistoryRetention (locale : Collation) (rows : List GcSnapshotRow)
    (retainedPerFile : ℕ) : Retention :=
  ((Grouping.groupBy GcSnapshotRow.groupKey rows).rows.map Prod.snd).foldl
    (retainGroup locale retainedPerFile) {}

/-! ### One group -/

variable {locale : Collation} {retainedPerFile : ℕ} {group rows : List GcSnapshotRow}

/-- The rows of a group that are not current, the newest first. -/
def superseded (locale : Collation) (group : List GcSnapshotRow) : List GcSnapshotRow :=
  (sortVersions locale GcSnapshotRow.toStoredVersion group).filter (!·.isCurrent)

/-- The rows of a group that are kept. -/
def keptRows (locale : Collation) (retainedPerFile : ℕ) (group : List GcSnapshotRow) :
    List GcSnapshotRow :=
  (sortVersions locale GcSnapshotRow.toStoredVersion group).filter (·.isCurrent) ++
    (superseded locale group).take retainedPerFile

/-- The rows of a group that are pruned. -/
def prunedRows (locale : Collation) (retainedPerFile : ℕ) (group : List GcSnapshotRow) :
    List GcSnapshotRow :=
  (superseded locale group).drop retainedPerFile

/-- The ids of rows. -/
def versionIds (rows : List GcSnapshotRow) : List String := rows.map (·.versionId)

theorem versionIds_append (rows other : List GcSnapshotRow) :
    versionIds (rows ++ other) = versionIds rows ++ versionIds other := List.map_append

/-- New ids go to the end of the set. -/
theorem foldl_keep {retention : Retention}
    (hfresh : ∀ row ∈ rows, row.versionId ∉ retention.keepVersionIds)
    (hids : (versionIds rows).Nodup) :
    rows.foldl (fun retention row => retention.keep row.versionId) retention =
      { retention with keepVersionIds := retention.keepVersionIds ++ versionIds rows } := by
  induction rows generalizing retention with
  | nil => simp [versionIds]
  | cons row rows ih =>
    rw [versionIds, List.map_cons, List.nodup_cons] at hids
    have hnew := hfresh row List.mem_cons_self
    rw [List.foldl_cons, Retention.keep, if_neg hnew, ih (fun other hother => ?_) hids.2]
    · simp [versionIds]
    · have hne : other.versionId ≠ row.versionId := fun h =>
        hids.1 (h ▸ List.mem_map_of_mem hother)
      simp [hfresh other (List.mem_cons_of_mem _ hother), hne]

/-- **The loop keeps the first rows that are not current** and prunes the others. -/
theorem retainRows_eq {retained : ℕ} {retention : Retention} (hids : (versionIds group).Nodup)
    (hkept : ∀ row ∈ group, row.versionId ∈ retention.keepVersionIds ↔ row.isCurrent = true) :
    retainRows retainedPerFile retained group retention =
      { keepVersionIds := retention.keepVersionIds ++
          versionIds ((group.filter (!·.isCurrent)).take (retainedPerFile - retained))
        pruneVersionIds := retention.pruneVersionIds ++
          versionIds ((group.filter (!·.isCurrent)).drop (retainedPerFile - retained)) } := by
  induction group generalizing retained retention with
  | nil => simp [retainRows, versionIds]
  | cons row group ih =>
    rw [versionIds, List.map_cons, List.nodup_cons] at hids
    have hrow := hkept row List.mem_cons_self
    have hrest := fun other hother => hkept other (List.mem_cons_of_mem _ hother)
    have hne : ∀ other ∈ group, other.versionId ≠ row.versionId := fun other hother h =>
      hids.1 (h ▸ List.mem_map_of_mem hother)
    rw [retainRows]
    by_cases hcurrent : row.isCurrent = true
    · rw [if_pos (hrow.mpr hcurrent), ih hids.2 hrest]
      simp [hcurrent]
    · have hnot : row.versionId ∉ retention.keepVersionIds := fun h => hcurrent (hrow.mp h)
      rw [if_neg hnot]
      by_cases hroom : retained < retainedPerFile
      · obtain ⟨left, hleft⟩ : ∃ left, retainedPerFile - retained = left + 1 :=
          ⟨retainedPerFile - retained - 1, by omega⟩
        have hleft' : retainedPerFile - (retained + 1) = left := by omega
        rw [if_pos hroom, Retention.keep, if_neg hnot, ih hids.2 fun other hother => by
          simp [hrest other hother, hne other hother]]
        simp [hcurrent, hleft, hleft', versionIds]
      · have hnone : retainedPerFile - retained = 0 := by omega
        rw [if_neg hroom, ih hids.2 fun other hother => by simp [hrest other hother]]
        simp [hcurrent, hnone, versionIds]

theorem mem_sortVersions {row : GcSnapshotRow} :
    row ∈ sortVersions locale GcSnapshotRow.toStoredVersion group ↔ row ∈ group :=
  (perm_sortVersions group).mem_iff

/-- **What becomes of a group** whose ids are new. -/
theorem retainGroup_eq {retention : Retention} (hids : (versionIds group).Nodup)
    (hfresh : ∀ row ∈ group, row.versionId ∉ retention.keepVersionIds) :
    retainGroup locale retainedPerFile retention group =
      { keepVersionIds := retention.keepVersionIds ++
          versionIds (keptRows locale retainedPerFile group)
        pruneVersionIds := retention.pruneVersionIds ++
          versionIds (prunedRows locale retainedPerFile group) } := by
  set sorted := sortVersions locale GcSnapshotRow.toStoredVersion group with hsorted
  have hsortedIds : (versionIds sorted).Nodup :=
    ((perm_sortVersions group).map _).nodup_iff.mpr hids
  have hcurrentIds : (versionIds (sorted.filter (·.isCurrent))).Nodup :=
    hsortedIds.sublist (List.filter_sublist.map _)
  have hfreshSorted : ∀ row ∈ sorted, row.versionId ∉ retention.keepVersionIds :=
    fun row hrow => hfresh row (mem_sortVersions.mp hrow)
  rw [retainGroup, ← hsorted, foldl_keep
    (fun row hrow => hfreshSorted row (List.mem_filter.mp hrow).1) hcurrentIds,
    retainRows_eq hsortedIds fun row hrow => ?_]
  · simp [keptRows, prunedRows, superseded, ← hsorted, versionIds_append]
  · rw [List.mem_append, or_iff_right (hfreshSorted row hrow), versionIds, List.mem_map]
    constructor
    · rintro ⟨other, hother, hid⟩
      obtain ⟨hmem, hcurrent⟩ := List.mem_filter.mp hother
      rwa [← List.inj_on_of_nodup_map hsortedIds hmem hrow hid]
    · exact fun hcurrent => ⟨row, List.mem_filter.mpr ⟨hrow, hcurrent⟩, rfl⟩

/-- A group falls into the rows that are kept and those that are pruned. -/
theorem perm_keptRows_prunedRows (locale : Collation) (retainedPerFile : ℕ)
    (group : List GcSnapshotRow) :
    (keptRows locale retainedPerFile group ++ prunedRows locale retainedPerFile group).Perm
      group := by
  rw [keptRows, prunedRows, List.append_assoc, List.take_append_drop, superseded]
  exact (List.filter_append_perm _ _).trans (perm_sortVersions group)

theorem mem_of_mem_keptRows {row : GcSnapshotRow}
    (h : row ∈ keptRows locale retainedPerFile group) : row ∈ group :=
  (perm_keptRows_prunedRows locale retainedPerFile group).mem_iff.mp (List.mem_append_left _ h)

theorem mem_of_mem_prunedRows {row : GcSnapshotRow}
    (h : row ∈ prunedRows locale retainedPerFile group) : row ∈ group :=
  (perm_keptRows_prunedRows locale retainedPerFile group).mem_iff.mp (List.mem_append_right _ h)

theorem mem_keptRows_of_current {row : GcSnapshotRow} (h : row ∈ group)
    (hcurrent : row.isCurrent = true) : row ∈ keptRows locale retainedPerFile group :=
  List.mem_append_left _ (List.mem_filter.mpr ⟨mem_sortVersions.mpr h, hcurrent⟩)

theorem mem_keptRows_iff_of_not_current {row : GcSnapshotRow} (h : row.isCurrent = false) :
    row ∈ keptRows locale retainedPerFile group ↔
      row ∈ (superseded locale group).take retainedPerFile := by
  rw [keptRows, List.mem_append, or_iff_right]
  intro hmem
  have hcurrent := (List.mem_filter.mp hmem).2
  rw [h] at hcurrent
  exact Bool.false_ne_true hcurrent

/-- The rows of a group do not depend on their order. -/
theorem sortVersions_rows_eq (htotal : locale.IsTotal) {other : List GcSnapshotRow}
    (hids : (versionIds group).Nodup) (h : group.Perm other) :
    sortVersions locale GcSnapshotRow.toStoredVersion group =
      sortVersions locale GcSnapshotRow.toStoredVersion other :=
  sortVersions_eq_of_perm htotal
    (fun _ ha _ hb hid => List.inj_on_of_nodup_map hids ha hb hid) h

/-- The first rows that are not current come before the others. -/
theorem lt_of_mem_superseded (htotal : locale.IsTotal) (hids : (versionIds group).Nodup)
    {kept pruned : GcSnapshotRow} (hkept : kept ∈ (superseded locale group).take retainedPerFile)
    (hpruned : pruned ∈ (superseded locale group).drop retainedPerFile) :
    compareVersionsDesc locale kept.toStoredVersion pruned.toStoredVersion = .lt := by
  have hsuperseded : (superseded locale group).Sublist
      (sortVersions locale GcSnapshotRow.toStoredVersion group) := List.filter_sublist
  have hdistinct : (superseded locale group).Pairwise fun a b => a.versionId ≠ b.versionId :=
    List.pairwise_map.mp ((((perm_sortVersions group).map _).nodup_iff.mpr hids).sublist
      (hsuperseded.map _))
  have hordered := ((pairwise_sortVersions group).sublist hsuperseded).and hdistinct
  rw [← List.take_append_drop retainedPerFile (superseded locale group)] at hordered
  obtain ⟨hle, hne⟩ := (List.pairwise_append.mp hordered).2.2 kept hkept pruned hpruned
  have hneq : compareVersionsDesc locale kept.toStoredVersion pruned.toStoredVersion ≠ .eq :=
    fun heq => hne (versionId_eq_of_compareVersionsDesc htotal heq)
  unfold NoLater at hle
  revert hle hneq
  cases compareVersionsDesc locale kept.toStoredVersion pruned.toStoredVersion <;> simp

/-! ### All groups -/

/-- The groups, in the order in which they were opened. -/
def groups (rows : List GcSnapshotRow) : List (List GcSnapshotRow) :=
  (Grouping.groupBy GcSnapshotRow.groupKey rows).rows.map Prod.snd

/-- The rows of a note. -/
def rowsOf (vaultId fileId : String) (rows : List GcSnapshotRow) : List GcSnapshotRow :=
  rows.filter fun row => row.vaultId = vaultId ∧ row.fileId = fileId

theorem perm_flatten_groups (rows : List GcSnapshotRow) : (groups rows).flatten.Perm rows := by
  rw [groups, ← List.flatMap_def]
  exact Grouping.perm_groupBy _ rows

/-- **The versions, group by group.** -/
theorem foldl_retainGroup_eq {groups : List (List GcSnapshotRow)} {retention : Retention}
    (hids : (versionIds groups.flatten).Nodup)
    (hfresh : ∀ row ∈ groups.flatten, row.versionId ∉ retention.keepVersionIds) :
    groups.foldl (retainGroup locale retainedPerFile) retention =
      { keepVersionIds := retention.keepVersionIds ++
          versionIds (groups.flatMap (keptRows locale retainedPerFile))
        pruneVersionIds := retention.pruneVersionIds ++
          versionIds (groups.flatMap (prunedRows locale retainedPerFile)) } := by
  induction groups generalizing retention with
  | nil => simp [versionIds]
  | cons group groups ih =>
    rw [List.flatten_cons, versionIds_append] at hids
    obtain ⟨hgroup, hgroups, hdisjoint⟩ := List.nodup_append'.mp hids
    rw [List.foldl_cons, retainGroup_eq hgroup fun row hrow =>
      hfresh row (List.mem_append_left _ hrow), ih hgroups fun row hrow => ?_]
    · simp [versionIds_append]
    · rw [List.mem_append, not_or]
      refine ⟨hfresh row (List.mem_append_right _ hrow), fun hkept => ?_⟩
      obtain ⟨other, hother, hid⟩ := List.mem_map.mp hkept
      exact hdisjoint (List.mem_map_of_mem (mem_of_mem_keptRows hother))
        (hid ▸ List.mem_map_of_mem hrow)

theorem selectYjsHistoryRetention_eq (hids : (versionIds rows).Nodup) :
    selectYjsHistoryRetention locale rows retainedPerFile =
      { keepVersionIds := versionIds ((groups rows).flatMap (keptRows locale retainedPerFile))
        pruneVersionIds :=
          versionIds ((groups rows).flatMap (prunedRows locale retainedPerFile)) } := by
  have hflat : (versionIds (groups rows).flatten).Nodup :=
    ((perm_flatten_groups rows).map _).nodup_iff.mpr hids
  exact (foldl_retainGroup_eq hflat fun _ _ => List.not_mem_nil).trans (by simp)

/-- The ids of notes have no colon. -/
def PlainIds (rows : List GcSnapshotRow) : Prop :=
  ∀ row ∈ rows, ':' ∉ row.vaultId.toList ∧ ':' ∉ row.fileId.toList

instance (rows : List GcSnapshotRow) : Decidable (PlainIds rows) :=
  inferInstanceAs (Decidable (∀ row ∈ rows, ':' ∉ row.vaultId.toList ∧ ':' ∉ row.fileId.toList))

/-- Then two rows have one key if they are of one note. -/
theorem groupKey_eq_iff (h : PlainIds rows) {row other : GcSnapshotRow} (hrow : row ∈ rows) :
    row.groupKey = other.groupKey ↔ row.vaultId = other.vaultId ∧ row.fileId = other.fileId := by
  have hkey : ∀ r : GcSnapshotRow,
      r.groupKey.toList = r.vaultId.toList ++ ':' :: r.fileId.toList := fun r => by
    simp [GcSnapshotRow.groupKey]
  rw [← String.toList_inj, hkey, hkey,
    List.append_cons_inj_of_notMem (h row hrow).1 (h row hrow).2]
  simp [String.toList_inj]

/-- The groups are the notes that have rows. -/
theorem mem_groups_iff (h : PlainIds rows) :
    group ∈ groups rows ↔ ∃ row ∈ rows, group = rowsOf row.vaultId row.fileId rows := by
  have hrows : ∀ row : GcSnapshotRow, (rows.filter fun other => other.groupKey = row.groupKey) =
      rowsOf row.vaultId row.fileId rows := fun row =>
    List.filter_congr fun other hother => by rw [decide_eq_decide, groupKey_eq_iff h hother]
  simp only [groups, List.mem_map, Prod.exists, exists_eq_right, Grouping.mem_groupBy_iff]
  constructor
  · rintro ⟨key, hne, hgroup⟩
    obtain ⟨row, hrow⟩ := List.exists_mem_of_ne_nil _ hne
    rw [hgroup, List.mem_filter, decide_eq_true_iff] at hrow
    obtain ⟨hmem, rfl⟩ := hrow
    exact ⟨row, hmem, hgroup.trans (hrows row)⟩
  · rintro ⟨row, hmem, rfl⟩
    refine ⟨row.groupKey, List.ne_nil_of_mem (a := row) ?_, (hrows row).symm⟩
    exact List.mem_filter.mpr ⟨hmem, decide_eq_true ⟨rfl, rfl⟩⟩

theorem mem_rowsOf_self {row : GcSnapshotRow} (h : row ∈ rows) :
    row ∈ rowsOf row.vaultId row.fileId rows :=
  List.mem_filter.mpr ⟨h, decide_eq_true ⟨rfl, rfl⟩⟩

/-- A choice of rows in each group chooses a row exactly if it does in the group of its note. -/
theorem versionId_mem_flatMap_groups_iff (h : PlainIds rows) (hids : (versionIds rows).Nodup)
    {chosen : List GcSnapshotRow → List GcSnapshotRow}
    (hchosen : ∀ group, ∀ row ∈ chosen group, row ∈ group) {row : GcSnapshotRow}
    (hrow : row ∈ rows) :
    row.versionId ∈ versionIds ((groups rows).flatMap chosen) ↔
      row ∈ chosen (rowsOf row.vaultId row.fileId rows) := by
  constructor
  · intro hmem
    obtain ⟨other, hother, hid⟩ := List.mem_map.mp hmem
    obtain ⟨group, hgroup, hin⟩ := List.mem_flatMap.mp hother
    obtain ⟨first, -, rfl⟩ := (mem_groups_iff h).mp hgroup
    obtain ⟨hotherMem, hnote⟩ := List.mem_filter.mp (hchosen _ other hin)
    obtain rfl : other = row := List.inj_on_of_nodup_map hids hotherMem hrow hid
    obtain ⟨hvault, hfile⟩ := of_decide_eq_true hnote
    rwa [hvault, hfile]
  · exact fun hmem => List.mem_map_of_mem
      (List.mem_flatMap.mpr ⟨_, (mem_groups_iff h).mpr ⟨row, hrow, rfl⟩, hmem⟩)

/-! ### The right versions are kept -/

/-- The selection splits the versions; it keeps each current version, and of the others of a note
as many as it is told, of which none comes after one that is pruned. -/
structure RetainsNewest (locale : Collation) (retainedPerFile : ℕ) (rows : List GcSnapshotRow)
    (retention : Retention) : Prop where
  disjoint : retention.keepVersionIds.Disjoint retention.pruneVersionIds
  split : (retention.keepVersionIds ++ retention.pruneVersionIds).Perm (versionIds rows)
  current : ∀ row ∈ rows, row.isCurrent = true → row.versionId ∈ retention.keepVersionIds
  count : ∀ vaultId fileId,
    ((rowsOf vaultId fileId rows).filter fun row =>
        !row.isCurrent && row.versionId ∈ retention.keepVersionIds).length =
      min retainedPerFile ((rowsOf vaultId fileId rows).filter (!·.isCurrent)).length
  newest : ∀ kept ∈ rows, ∀ pruned ∈ rows,
    kept.vaultId = pruned.vaultId → kept.fileId = pruned.fileId → kept.isCurrent = false →
      kept.versionId ∈ retention.keepVersionIds → pruned.versionId ∈ retention.pruneVersionIds →
        compareVersionsDesc locale kept.toStoredVersion pruned.toStoredVersion = .lt

/-- What becomes of the versions of a note does not depend on other rows, nor on the order. -/
def OwnRowsDecide (locale : Collation) (retainedPerFile : ℕ) (rows : List GcSnapshotRow) : Prop :=
  ∀ other : List GcSnapshotRow, (versionIds other).Nodup → PlainIds other →
    ∀ vaultId fileId, (rowsOf vaultId fileId rows).Perm (rowsOf vaultId fileId other) →
      ∀ row ∈ rowsOf vaultId fileId rows,
        (row.versionId ∈ (selectYjsHistoryRetention locale rows retainedPerFile).keepVersionIds ↔
          row.versionId ∈
            (selectYjsHistoryRetention locale other retainedPerFile).keepVersionIds) ∧
        (row.versionId ∈ (selectYjsHistoryRetention locale rows retainedPerFile).pruneVersionIds ↔
          row.versionId ∈
            (selectYjsHistoryRetention locale other retainedPerFile).pruneVersionIds)

theorem mem_keepVersionIds_iff (h : PlainIds rows) (hids : (versionIds rows).Nodup)
    {row : GcSnapshotRow} (hrow : row ∈ rows) :
    row.versionId ∈ (selectYjsHistoryRetention locale rows retainedPerFile).keepVersionIds ↔
      row ∈ keptRows locale retainedPerFile (rowsOf row.vaultId row.fileId rows) := by
  rw [selectYjsHistoryRetention_eq hids]
  exact versionId_mem_flatMap_groups_iff h hids (fun _ _ => mem_of_mem_keptRows) hrow

theorem mem_pruneVersionIds_iff (h : PlainIds rows) (hids : (versionIds rows).Nodup)
    {row : GcSnapshotRow} (hrow : row ∈ rows) :
    row.versionId ∈ (selectYjsHistoryRetention locale rows retainedPerFile).pruneVersionIds ↔
      row ∈ prunedRows locale retainedPerFile (rowsOf row.vaultId row.fileId rows) := by
  rw [selectYjsHistoryRetention_eq hids]
  exact versionId_mem_flatMap_groups_iff h hids (fun _ _ => mem_of_mem_prunedRows) hrow

/-- The ids to keep and to prune are the ids of the rows. -/
theorem perm_selectYjsHistoryRetention (locale : Collation) (retainedPerFile : ℕ)
    (hids : (versionIds rows).Nodup) :
    ((selectYjsHistoryRetention locale rows retainedPerFile).keepVersionIds ++
      (selectYjsHistoryRetention locale rows retainedPerFile).pruneVersionIds).Perm
      (versionIds rows) := by
  rw [selectYjsHistoryRetention_eq hids, ← versionIds_append]
  refine (List.Perm.trans ?_ (perm_flatten_groups rows)).map _
  generalize groups rows = groups
  induction groups with
  | nil => rfl
  | cons group groups ih =>
    rw [List.flatMap_cons, List.flatMap_cons, List.flatten_cons, List.append_assoc]
    refine ((List.perm_append_comm_assoc _ _ _).append_left _).trans ?_
    rw [← List.append_assoc]
    exact (perm_keptRows_prunedRows locale retainedPerFile group).append ih

theorem filter_mem_take {items : List GcSnapshotRow} (hitems : items.Nodup) :
    (items.filter fun row => row ∈ items.take retainedPerFile) = items.take retainedPerFile := by
  have hdisjoint : (items.take retainedPerFile).Disjoint (items.drop retainedPerFile) :=
    List.disjoint_take_drop hitems le_rfl
  conv_lhs => enter [2]; rw [← List.take_append_drop retainedPerFile items]
  rw [List.filter_append, List.filter_eq_self.mpr fun row hrow => decide_eq_true hrow,
    List.filter_eq_nil_iff.mpr fun row hrow hin => hdisjoint (of_decide_eq_true hin) hrow,
    List.append_nil]

/-- Of the rows of a note that are not current the first are kept. -/
theorem length_kept_superseded (h : PlainIds rows) (hids : (versionIds rows).Nodup)
    (vaultId fileId : String) :
    ((rowsOf vaultId fileId rows).filter fun row => !row.isCurrent &&
        row.versionId ∈
          (selectYjsHistoryRetention locale rows retainedPerFile).keepVersionIds).length =
      min retainedPerFile ((rowsOf vaultId fileId rows).filter (!·.isCurrent)).length := by
  set group := rowsOf vaultId fileId rows with hgroup
  have hperm : (superseded locale group).Perm (group.filter (!·.isCurrent)) :=
    (perm_sortVersions group).filter _
  have hkept : ∀ row ∈ superseded locale group,
      row.versionId ∈ (selectYjsHistoryRetention locale rows retainedPerFile).keepVersionIds ↔
        row ∈ (superseded locale group).take retainedPerFile := by
    intro row hrow
    obtain ⟨hmem, hcurrent⟩ := List.mem_filter.mp hrow
    obtain ⟨hrows, hnote⟩ := List.mem_filter.mp (mem_sortVersions.mp hmem)
    obtain ⟨hvault, hfile⟩ := of_decide_eq_true hnote
    rw [mem_keepVersionIds_iff h hids hrows, hvault, hfile, ← hgroup,
      mem_keptRows_iff_of_not_current (by simpa using hcurrent)]
  have hnodup : (superseded locale group).Nodup :=
    hperm.nodup_iff.mpr ((List.Nodup.of_map _ hids).sublist
      (List.filter_sublist.trans List.filter_sublist))
  calc _ = ((group.filter (!·.isCurrent)).filter fun row => row.versionId ∈
        (selectYjsHistoryRetention locale rows retainedPerFile).keepVersionIds).length := by
        rw [List.filter_filter]
        simp only [Bool.and_comm]
    _ = ((superseded locale group).filter fun row => row.versionId ∈
        (selectYjsHistoryRetention locale rows retainedPerFile).keepVersionIds).length :=
      (hperm.filter _).length_eq.symm
    _ = ((superseded locale group).filter fun row =>
        row ∈ (superseded locale group).take retainedPerFile).length := by
      exact congrArg List.length (List.filter_congr fun row hrow => by
        rw [decide_eq_decide, hkept row hrow])
    _ = ((superseded locale group).take retainedPerFile).length := by
      rw [filter_mem_take hnodup]
    _ = min retainedPerFile (group.filter (!·.isCurrent)).length := by
      rw [List.length_take, hperm.length_eq]

/-- **The right versions are kept**, and for a note only its own rows decide. -/
theorem retainsNewest_selectYjsHistoryRetention (locale : Collation) (htotal : locale.IsTotal)
    (rows : List GcSnapshotRow) (retainedPerFile : ℕ) (hids : (versionIds rows).Nodup)
    (hplain : PlainIds rows) :
    RetainsNewest locale retainedPerFile rows
      (selectYjsHistoryRetention locale rows retainedPerFile) ∧
    OwnRowsDecide locale retainedPerFile rows := by
  have hsplit := perm_selectYjsHistoryRetention locale retainedPerFile hids
  refine ⟨⟨?_, hsplit, ?_, length_kept_superseded hplain hids, ?_⟩, ?_⟩
  · -- the ids are distinct, so none is on both lists
    exact (List.nodup_append'.mp (hsplit.nodup_iff.mpr hids)).2.2
  · intro row hrow hcurrent
    exact (mem_keepVersionIds_iff hplain hids hrow).mpr
      (mem_keptRows_of_current (mem_rowsOf_self hrow) hcurrent)
  · intro kept hkept pruned hpruned hvault hfile hcurrent hkeep hprune
    rw [mem_keepVersionIds_iff hplain hids hkept, hvault, hfile,
      mem_keptRows_iff_of_not_current hcurrent] at hkeep
    exact lt_of_mem_superseded htotal (hids.sublist (List.filter_sublist.map _)) hkeep
      ((mem_pruneVersionIds_iff hplain hids hpruned).mp hprune)
  · intro other hids' hplain' vaultId fileId hperm row hrow
    obtain ⟨hmem, hnote⟩ := List.mem_filter.mp hrow
    have hmem' := (List.mem_filter.mp (hperm.mem_iff.mp hrow)).1
    obtain ⟨rfl, rfl⟩ := of_decide_eq_true hnote
    have hgroups : sortVersions locale GcSnapshotRow.toStoredVersion
          (rowsOf row.vaultId row.fileId rows) =
        sortVersions locale GcSnapshotRow.toStoredVersion
          (rowsOf row.vaultId row.fileId other) :=
      sortVersions_rows_eq htotal (hids.sublist (List.filter_sublist.map _)) hperm
    rw [mem_keepVersionIds_iff hplain hids hmem, mem_keepVersionIds_iff hplain' hids' hmem',
      mem_pruneVersionIds_iff hplain hids hmem, mem_pruneVersionIds_iff hplain' hids' hmem']
    simp only [keptRows, prunedRows, superseded, hgroups, and_self]

/-- A row of the history of a note. -/
def sampleGcRow (versionId fileId : String) (createdAt : ℕ) (isCurrent : Bool) : GcSnapshotRow :=
  { versionId, vaultId := "v", fileId, roomEpoch := 1, seq := createdAt, createdAt,
    reason := .cadence, isCurrent }

/-- Two notes; of one the current version is not the newest, and two versions are of one moment. -/
def sampleGcRows : List GcSnapshotRow :=
  [sampleGcRow "a" "f1" 1 false, sampleGcRow "b" "f2" 1 true, sampleGcRow "c" "f1" 2 false,
    sampleGcRow "d" "f1" 2 false, sampleGcRow "e" "f1" 1 true]

theorem retainsNewest_sampleGcRows :
    RetainsNewest codePoints 1 sampleGcRows (selectYjsHistoryRetention codePoints sampleGcRows 1) ∧
      OwnRowsDecide codePoints 1 sampleGcRows :=
  retainsNewest_selectYjsHistoryRetention codePoints isTotal_codePoints sampleGcRows 1
    (by decide +kernel) (by decide +kernel)

example : selectYjsHistoryRetention codePoints sampleGcRows 1 =
    { keepVersionIds := ["e", "d", "b"], pruneVersionIds := ["c", "a"] } := by decide +kernel

end ObsidianSync
