import Mathlib.Order.Lattice
import Mathlib.Tactic.Common
import ObsidianSync.Lib.Table

/-!
# Version vectors

A version vector maps device ids to counters; a device without an entry counts
as zero.  The functions iterate over the entries of one side only, so the facts
below are all stated through `counterFor`, which reads an absent entry as zero.

## Main definitions

* `VersionVector`, `counterFor` — vectors and their counters.
* `bump`, `join`, `dominates`, `equals`, `isConcurrent` — as the source has them.

## Main results

* `dominates_iff` — domination is pointwise.
* `counterFor_join`, `counterFor_bump` — the counters of a join and of a bump.
-/

namespace ObsidianSync

/-- Map of deviceId to counter. -/
abbrev VersionVector := Table (α := String × ℕ) Prod.fst

namespace VersionVector

/-- `EMPTY_VV`. -/
def emptyVV : VersionVector := Table.empty

/-- The counter for a device, 0 if absent. -/
def counterFor (vv : VersionVector) (deviceId : String) : ℕ :=
  match vv.get? deviceId with
  | some entry => entry.2
  | none => 0

/-- The vector with the device's counter incremented, for counters below `2 ^ 53`: there the sum
is a number. -/
def bump (vv : VersionVector) (deviceId : String) : VersionVector :=
  vv.set (deviceId, counterFor vv deviceId + 1)

/-- Raise one counter to at least the given one, as the loop of `join` does. -/
def joinEntry (result : VersionVector) (entry : String × ℕ) : VersionVector :=
  if entry.2 > counterFor result entry.1 then result.set entry else result

/-- Pointwise maximum. -/
def join (a b : VersionVector) : VersionVector := b.rows.foldl joinEntry a

/-- For every device, `a[d] >= b[d]`. -/
def dominates (a b : VersionVector) : Bool :=
  b.rows.all fun entry => !decide (counterFor a entry.1 < entry.2)

/-- Each dominates the other. -/
def equals (a b : VersionVector) : Bool := dominates a b && dominates b a

/-- `a` dominates `b` and is not equal to it. -/
def strictlyDominates (a b : VersionVector) : Bool := dominates a b && !dominates b a

/-- Neither dominates the other. -/
def isConcurrent (a b : VersionVector) : Bool := !dominates a b && !dominates b a

/-! ### Counters -/

@[simp] theorem counterFor_emptyVV (d : String) : counterFor emptyVV d = 0 := rfl

theorem counterFor_of_mem {vv : VersionVector} {entry : String × ℕ} (h : entry ∈ vv.rows) :
    counterFor vv entry.1 = entry.2 := by
  have hget : vv.get? entry.1 = some entry := Table.get?_key h
  simp [counterFor, hget]

theorem counterFor_set (vv : VersionVector) (entry : String × ℕ) (d : String) :
    counterFor (vv.set entry) d = if entry.1 = d then entry.2 else counterFor vv d := by
  by_cases h : entry.1 = d <;> simp [counterFor, Table.get?_set, h]

theorem counterFor_bump (vv : VersionVector) (d e : String) :
    counterFor (bump vv d) e = if d = e then counterFor vv d + 1 else counterFor vv e := by
  rw [bump, counterFor_set]

theorem counterFor_joinEntry (vv : VersionVector) (entry : String × ℕ) (d : String) :
    counterFor (joinEntry vv entry) d
      = if entry.1 = d then max (counterFor vv d) entry.2 else counterFor vv d := by
  unfold joinEntry
  by_cases hd : entry.1 = d
  · subst hd
    split
    · next h => rw [counterFor_set, if_pos rfl, if_pos rfl, max_eq_right (by omega)]
    · next h => rw [if_pos rfl, max_eq_left (by omega)]
  · rw [if_neg hd]
    split
    · rw [counterFor_set, if_neg hd]
    · rfl

/-- The loop of `join` raises each counter to the largest one it meets. -/
theorem counterFor_foldl_joinEntry : ∀ (l : List (String × ℕ)) (vv : VersionVector) (d : String),
    (l.map Prod.fst).Nodup →
      counterFor (l.foldl joinEntry vv) d
        = max (counterFor vv d) (((l.find? fun entry => entry.1 = d).map Prod.snd).getD 0) := by
  intro l
  induction l with
  | nil => intro vv d _; simp
  | cons entry l ih =>
    intro vv d hl
    rw [List.map_cons, List.nodup_cons] at hl
    rw [List.foldl_cons, ih _ d hl.2, counterFor_joinEntry]
    by_cases hd : entry.1 = d
    · subst hd
      have hnone : (l.find? fun e => e.1 = entry.1) = none := by
        rw [List.find?_eq_none]
        intro e he
        simpa using fun h => hl.1 (List.mem_map.mpr ⟨e, he, h⟩)
      simp [hnone]
    · simp [hd]

/-- The counters of a join. -/
theorem counterFor_join (a b : VersionVector) (d : String) :
    counterFor (join a b) d = max (counterFor a d) (counterFor b d) := by
  rw [join, counterFor_foldl_joinEntry _ _ _ b.nodup]
  congr 1
  unfold counterFor Table.get?
  cases b.rows.find? fun entry => entry.1 = d <;> rfl

/-! ### Causality -/

/-- Domination is pointwise. -/
theorem dominates_iff {a b : VersionVector} :
    dominates a b = true ↔ ∀ d, counterFor b d ≤ counterFor a d := by
  simp only [dominates, List.all_eq_true, Bool.not_eq_true', decide_eq_false_iff_not,
    Nat.not_lt]
  constructor
  · intro h d
    cases hg : b.get? d with
    | none => simp [counterFor, hg]
    | some entry =>
      obtain ⟨hmem, rfl⟩ := Table.get?_eq_some_iff.mp hg
      rw [counterFor_of_mem hmem]
      exact h entry hmem
  · intro h entry hmem
    have := h entry.1
    rwa [counterFor_of_mem hmem] at this

theorem dominates_refl (a : VersionVector) : dominates a a = true :=
  dominates_iff.mpr fun _ => le_rfl

theorem dominates_trans {a b c : VersionVector} (hab : dominates a b = true)
    (hbc : dominates b c = true) : dominates a c = true :=
  dominates_iff.mpr fun d => (dominates_iff.mp hbc d).trans (dominates_iff.mp hab d)

theorem dominates_bump (a : VersionVector) (d : String) : dominates (bump a d) a = true := by
  rw [dominates_iff]
  intro e
  rw [counterFor_bump]
  split
  · next h => subst h; omega
  · exact le_rfl

theorem dominates_join_left (a b : VersionVector) : dominates (join a b) a = true :=
  dominates_iff.mpr fun d => by rw [counterFor_join]; exact le_max_left _ _

theorem dominates_join_right (a b : VersionVector) : dominates (join a b) b = true :=
  dominates_iff.mpr fun d => by rw [counterFor_join]; exact le_max_right _ _

/-- A bump is strictly above everything that was dominated before. -/
theorem strictlyDominates_bump {a b : VersionVector} (h : dominates a b = true) (d : String) :
    strictlyDominates (bump a d) b = true := by
  have hle := dominates_iff.mp h d
  have hnot : dominates b (bump a d) = false := by
    rw [← Bool.not_eq_true, dominates_iff]
    intro hall
    have hd := hall d
    rw [counterFor_bump, if_pos rfl] at hd
    omega
  rw [strictlyDominates, dominates_trans (dominates_bump a d) h, hnot]
  rfl

/-- The counters of a join of many vectors. -/
theorem counterFor_foldl_join_lt_iff {α : Type*} (f : α → VersionVector) (l : List α)
    (vv : VersionVector) (d : String) (n : ℕ) :
    counterFor (l.foldl (fun vv x => join vv (f x)) vv) d < n ↔
      counterFor vv d < n ∧ ∀ x ∈ l, counterFor (f x) d < n := by
  induction l generalizing vv with
  | nil => simp
  | cons x l ih =>
    rw [List.foldl_cons, ih, counterFor_join, Nat.max_lt, List.forall_mem_cons, and_assoc]

/-- Between vectors that differ in one counter at most, that counter decides. -/
theorem strictlyDominates_iff_of_agree {a b : VersionVector} {c : String}
    (h : ∀ d, d ≠ c → counterFor a d = counterFor b d) :
    strictlyDominates a b = true ↔ counterFor b c < counterFor a c := by
  rw [strictlyDominates, Bool.and_eq_true, Bool.not_eq_true', ← Bool.not_eq_true, dominates_iff,
    dominates_iff]
  constructor
  · rintro ⟨-, hnot⟩
    by_contra hle
    apply hnot
    intro d
    by_cases hd : d = c
    · rw [hd]
      omega
    · exact (h d hd).le
  · intro hlt
    constructor
    · intro d
      by_cases hd : d = c
      · rw [hd]
        omega
      · exact (h d hd).ge
    · intro hall
      have hc := hall c
      omega

/-- Vectors that differ in one counter at most are not concurrent. -/
theorem not_isConcurrent_of_agree {a b : VersionVector} {c : String}
    (h : ∀ d, d ≠ c → counterFor a d = counterFor b d) : isConcurrent a b = false := by
  rcases Nat.le_total (counterFor b c) (counterFor a c) with hle | hle
  · have hdom : dominates a b = true := by
      rw [dominates_iff]
      intro d
      by_cases hd : d = c
      · exact hd ▸ hle
      · exact (h d hd).ge
    simp [isConcurrent, hdom]
  · have hdom : dominates b a = true := by
      rw [dominates_iff]
      intro d
      by_cases hd : d = c
      · exact hd ▸ hle
      · exact (h d hd).le
    simp [isConcurrent, hdom]

theorem isConcurrent_iff {a b : VersionVector} :
    isConcurrent a b = true ↔ dominates a b = false ∧ dominates b a = false := by
  simp [isConcurrent]

end VersionVector

end ObsidianSync
