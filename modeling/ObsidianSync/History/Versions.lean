import Mathlib.Data.List.Sort
import ObsidianSync.Room.Manager

/-!
# Versions of the history

A version of the history of a note, and the order in which versions are listed and
pruned: the newest first, of two versions of one moment the one with more updates, and
of two of these the one whose id comes later.

## Main definitions

* `StoredVersion` — a version without its snapshot.
* `compareVersionsDesc` — the order, the newest version first.
* `codePoints` — an order of ids.
* `sortVersions` — versions in this order.

## Main results

* `pairwise_sortVersions` — the result is sorted.
* `eq_sortVersions` — it is the only sorted list of these versions.
-/

namespace ObsidianSync

/-- A version of the history, without its snapshot. -/
structure StoredVersion where
  versionId : String
  vaultId : String
  fileId : String
  roomEpoch : ℕ
  seq : ℕ
  createdAt : ℕ
  reason : SnapshotHistoryReason
  deviceId : Option String := none
  userId : Option String := none
  deriving DecidableEq, Repr

/-- `b.createdAt - a.createdAt || b.seq - a.seq || b.versionId.localeCompare(a.versionId)`: less
where `a` is listed first. -/
def compareVersionsDesc (locale : Collation) (a b : StoredVersion) : Ordering :=
  (compare b.createdAt a.createdAt).then
    ((compare b.seq a.seq).then (locale.compare b.versionId a.versionId))

/-- Texts that compare as equal are equal. -/
def Collation.IsTotal (locale : Collation) : Prop := ∀ a b, locale.compare a b = .eq → a = b

/-- The order of code points, which collations agree with on the digits, letters and hyphens of
an id. -/
def codePoints : Collation where
  compare := compare
  trans := inferInstance

theorem isTotal_codePoints : codePoints.IsTotal := fun _ _ => compare_eq_iff_eq.mp

/-- The version is not listed after the other. -/
def NoLater (locale : Collation) (a b : StoredVersion) : Prop :=
  (compareVersionsDesc locale a b).isLE = true

instance (locale : Collation) (a b : StoredVersion) : Decidable (NoLater locale a b) :=
  inferInstanceAs (Decidable (_ = _))

/-- The versions, the newest first; the key finds the version of what is sorted. -/
def sortVersions {α : Type} (locale : Collation) (version : α → StoredVersion) (items : List α) :
    List α :=
  items.insertionSort fun a b => NoLater locale (version a) (version b)

/-! ### The order -/

/-- The versions the other way round, the oldest first. -/
def compareVersions (locale : Collation) : StoredVersion → StoredVersion → Ordering :=
  compareLex (compareOn StoredVersion.createdAt) (compareLex (compareOn StoredVersion.seq)
    fun a b => locale.compare a.versionId b.versionId)

theorem compareVersionsDesc_eq (locale : Collation) (a b : StoredVersion) :
    compareVersionsDesc locale a b = compareVersions locale b a := rfl

instance (locale : Collation) : Std.TransCmp (compareVersions locale) :=
  have := locale.transCmp_on StoredVersion.versionId
  inferInstanceAs (Std.TransCmp (compareLex (compareOn StoredVersion.createdAt)
    (compareLex (compareOn StoredVersion.seq)
      fun a b : StoredVersion => locale.compare a.versionId b.versionId)))

instance (locale : Collation) : Std.TransCmp (compareVersionsDesc locale) where
  eq_swap {a b} := @Std.OrientedCmp.eq_swap _ (compareVersions locale) _ b a
  isLE_trans {a b c} hab hbc := by
    rw [compareVersionsDesc_eq] at *
    exact Std.TransCmp.isLE_trans hbc hab

variable {locale : Collation} {α : Type} {version : α → StoredVersion}

instance : Std.Total fun a b : α => NoLater locale (version a) (version b) where
  total a b := by
    unfold NoLater
    rw [@Std.OrientedCmp.eq_swap _ (compareVersionsDesc locale) _ (version a)]
    cases compareVersionsDesc locale (version b) (version a) <;> simp

instance : IsTrans α fun a b => NoLater locale (version a) (version b) where
  trans _ _ _ := Std.TransCmp.isLE_trans

/-- Two versions of one place have one id. -/
theorem versionId_eq_of_compareVersionsDesc (htotal : locale.IsTotal) {a b : StoredVersion}
    (h : compareVersionsDesc locale a b = .eq) : a.versionId = b.versionId :=
  (htotal _ _ (Ordering.then_eq_eq.mp (Ordering.then_eq_eq.mp h).2).2).symm

/-- **Sorted versions are sorted.** -/
theorem pairwise_sortVersions (items : List α) :
    (sortVersions locale version items).Pairwise fun a b =>
      NoLater locale (version a) (version b) :=
  List.pairwise_insertionSort _ _

theorem perm_sortVersions (items : List α) : (sortVersions locale version items).Perm items :=
  List.perm_insertionSort _ _

/-- **A list in order is what sorting gives**, if an id tells its versions apart. -/
theorem eq_sortVersions (htotal : locale.IsTotal) {items ordered : List α}
    (hids : ∀ a ∈ items, ∀ b ∈ items, (version a).versionId = (version b).versionId → a = b)
    (hordered : ordered.Pairwise fun a b => NoLater locale (version a) (version b))
    (h : ordered.Perm items) : ordered = sortVersions locale version items := by
  refine List.Perm.eq_of_pairwise (fun a b ha hb hab hba => ?_) hordered
    (pairwise_sortVersions items) (h.trans (perm_sortVersions items).symm)
  refine hids a (h.mem_iff.mp ha) b ((perm_sortVersions items).mem_iff.mp hb)
    (versionId_eq_of_compareVersionsDesc htotal ?_)
  exact Std.OrientedCmp.isLE_antisymm hab hba

/-- **The order of the versions to be sorted plays no part.** -/
theorem sortVersions_eq_of_perm (htotal : locale.IsTotal) {items other : List α}
    (hids : ∀ a ∈ items, ∀ b ∈ items, (version a).versionId = (version b).versionId → a = b)
    (h : items.Perm other) :
    sortVersions locale version items = sortVersions locale version other :=
  (eq_sortVersions htotal hids (pairwise_sortVersions other)
    ((perm_sortVersions other).trans h.symm)).symm

/-- A selection may be made before or after sorting. -/
theorem sortVersions_filter (htotal : locale.IsTotal) {items : List α}
    (hids : ∀ a ∈ items, ∀ b ∈ items, (version a).versionId = (version b).versionId → a = b)
    (p : α → Bool) :
    sortVersions locale version (items.filter p) =
      (sortVersions locale version items).filter p :=
  (eq_sortVersions htotal
    (fun a ha b hb => hids a (List.mem_filter.mp ha).1 b (List.mem_filter.mp hb).1)
    ((pairwise_sortVersions items).sublist List.filter_sublist)
    ((perm_sortVersions items).filter p)).symm

end ObsidianSync
