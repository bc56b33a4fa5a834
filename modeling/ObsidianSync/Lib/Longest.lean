import Mathlib.Data.List.Perm.Subperm
import ObsidianSync.Lib.Merge

/-!
# Longest common subsequences

The walk through the table of lengths finds a longest common subsequence.  What it pairs
between two cuts, positions that no pair crosses, is a longest one of what is between
them, since a longer one could take its place.

## Main definitions

* `Merge.Alignment` — pairs of positions of equal elements, in order on both sides.
* `Merge.Cut` — positions that no pair crosses.

## Main results

* `Merge.alignment_lcsPairs` — the walk gives an alignment.
* `Merge.le_lcsLength`, `Merge.length_lcsPairs` — **there is no longer common
  subsequence.**
* `Merge.matched_of_slice_eq` — **between two cuts with equal elements, every position is
  paired.**
-/

namespace Merge

variable {α : Type*} [DecidableEq α]

/-! ### Alignments -/

/-- The pairs go up on both sides, and each is of equal elements. -/
structure Alignment (a b : List α) (pairs : List (ℕ × ℕ)) : Prop where
  ascending : pairs.Pairwise fun p q => p.1 < q.1 ∧ p.2 < q.2
  equal : ∀ p ∈ pairs, ∃ x, a[p.1]? = some x ∧ b[p.2]? = some x

theorem ascending_lcsPairsFrom (i : ℕ) (a : List α) (j : ℕ) (b : List α) :
    (lcsPairsFrom i a j b).Pairwise fun p q => p.1 < q.1 ∧ p.2 < q.2 := by
  induction a generalizing i j b with
  | nil => exact List.Pairwise.nil
  | cons x a iha =>
    induction b generalizing j with
    | nil => exact List.Pairwise.nil
    | cons y b ihb =>
      simp only [lcsPairsFrom, walkRow]
      split
      · refine List.Pairwise.cons (fun q hq => ?_) (iha _ _ _)
        obtain ⟨k, l, _, rfl, -, -⟩ := aligned_lcsPairsFrom hq
        exact ⟨by dsimp only; omega, by dsimp only; omega⟩
      split
      · exact iha _ _ _
      · exact ihb _

/-- **The walk gives an alignment.** -/
theorem alignment_lcsPairs (a b : List α) : Alignment a b (lcsPairs a b) :=
  ⟨ascending_lcsPairsFrom 0 a 0 b, fun _ hp => getElem?_of_mem_lcsPairs hp⟩

/-! ### The length -/

/-- **No common subsequence is longer than the table says.** -/
theorem le_lcsLength {a b c : List α} (ha : c.Sublist a) (hb : c.Sublist b) :
    c.length ≤ lcsLength a b := by
  induction a generalizing b c with
  | nil => simp [List.sublist_nil.mp ha]
  | cons x a iha =>
    induction b with
    | nil => simp [List.sublist_nil.mp hb]
    | cons y b ihb =>
      cases c with
      | nil => simp
      | cons z c =>
        rw [lcsLength, lcsRow]
        split
        · exact Nat.succ_le_succ (iha ha.tail hb.tail)
        · next hxy =>
          -- the first element is not both `x` and `y`
          rcases List.cons_sublist_cons'.mp ha with ha' | ⟨rfl, -⟩
          · exact Nat.le_trans (iha ha' hb) (Nat.le_max_left _ _)
          · have hb' := (List.cons_sublist_cons'.mp hb).resolve_right fun h => hxy h.1
            exact Nat.le_trans (ihb hb') (Nat.le_max_right _ _)

/-- The walk has as many pairs as the table says. -/
theorem length_lcsPairsFrom (i : ℕ) (a : List α) (j : ℕ) (b : List α) :
    (lcsPairsFrom i a j b).length = lcsLength a b := by
  induction a generalizing i j b with
  | nil => rfl
  | cons x a iha =>
    induction b generalizing j with
    | nil => rfl
    | cons y b ihb =>
      have hwalk : lcsPairsFrom i (x :: a) j (y :: b) =
          if x = y then (i, j) :: lcsPairsFrom (i + 1) a (j + 1) b
          else if lcsLength a (y :: b) ≥ lcsLength (x :: a) b then lcsPairsFrom (i + 1) a j (y :: b)
          else lcsPairsFrom i (x :: a) (j + 1) b := rfl
      have htable : lcsLength (x :: a) (y :: b) =
          if x = y then lcsLength a b + 1
          else max (lcsLength a (y :: b)) (lcsLength (x :: a) b) := rfl
      rw [hwalk, htable]
      split
      · rw [List.length_cons, iha]
      split
      · next hge => rw [iha, Nat.max_eq_left hge]
      · next hlt => rw [ihb, Nat.max_eq_right (Nat.le_of_not_ge hlt)]

theorem length_lcsPairs (a b : List α) : (lcsPairs a b).length = lcsLength a b :=
  length_lcsPairsFrom 0 a 0 b

omit [DecidableEq α] in
/-- Elements at positions that go up are a subsequence. -/
theorem sublist_of_ascending {l : List α} {positions : List ℕ} {lo : ℕ}
    (h : positions.Pairwise (· < ·)) (hlo : ∀ k ∈ positions, lo ≤ k) :
    (positions.filterMap (l[·]?)).Sublist (l.drop lo) := by
  induction positions generalizing lo with
  | nil => exact List.nil_sublist _
  | cons k positions ih =>
    obtain ⟨hfirst, hrest⟩ := List.pairwise_cons.mp h
    have hmore := ih hrest fun k' hk' => hfirst k' hk'
    have hdrop : (l.drop k).Sublist (l.drop lo) := by
      obtain ⟨d, rfl⟩ := Nat.exists_eq_add_of_le (hlo k List.mem_cons_self)
      rw [← List.drop_drop]
      exact List.drop_sublist _ _
    cases hx : l[k]? with
    | none =>
      rw [List.filterMap_cons_none hx]
      exact hmore.trans ((List.drop_sublist_drop_left l (Nat.le_succ k)).trans hdrop)
    | some x =>
      rw [List.filterMap_cons_some hx]
      obtain ⟨hlt, rfl⟩ := List.getElem?_eq_some_iff.mp hx
      rw [List.drop_eq_getElem_cons hlt] at hdrop
      exact (hmore.cons_cons _).trans hdrop

omit [DecidableEq α] in
/-- The elements of an alignment are a common subsequence. -/
theorem Alignment.common {a b : List α} {pairs : List (ℕ × ℕ)} (h : Alignment a b pairs) :
    ∃ c : List α, c.Sublist a ∧ c.Sublist b ∧ c.length = pairs.length := by
  have hsame : pairs.filterMap (fun p => a[p.1]?) = pairs.filterMap fun p => b[p.2]? :=
    List.filterMap_congr fun p hp => by
      obtain ⟨x, ha, hb⟩ := h.equal p hp
      rw [ha, hb]
  have hlength : (pairs.filterMap fun p => a[p.1]?).length = pairs.length := by
    rw [List.length_filterMap_eq_countP, List.countP_eq_length]
    intro p hp
    obtain ⟨x, ha, -⟩ := h.equal p hp
    rw [ha, Option.isSome_some]
  refine ⟨_, ?_, ?_, hlength⟩
  · have hfst := List.pairwise_map.mpr (h.ascending.imp fun hpq => hpq.1)
    have hsub := sublist_of_ascending (l := a) hfst fun _ _ => Nat.zero_le _
    rwa [List.filterMap_map, List.drop_zero] at hsub
  · rw [hsame]
    have hsnd := List.pairwise_map.mpr (h.ascending.imp fun hpq => hpq.2)
    have hsub := sublist_of_ascending (l := b) hsnd fun _ _ => Nat.zero_le _
    rwa [List.filterMap_map, List.drop_zero] at hsub

/-- **An alignment has at most as many pairs as the walk.** -/
theorem Alignment.length_le {a b : List α} {pairs : List (ℕ × ℕ)} (h : Alignment a b pairs) :
    pairs.length ≤ lcsLength a b := by
  obtain ⟨c, ha, hb, hlength⟩ := h.common
  exact hlength ▸ le_lcsLength ha hb

/-- Common subsequences of parts make one of the whole. -/
theorem lcsLength_append (a a' b b' : List α) :
    lcsLength a b + lcsLength a' b' ≤ lcsLength (a ++ a') (b ++ b') := by
  obtain ⟨c, ha, hb, hlength⟩ := (alignment_lcsPairs a b).common
  obtain ⟨c', ha', hb', hlength'⟩ := (alignment_lcsPairs a' b').common
  calc lcsLength a b + lcsLength a' b' = (c ++ c').length := by
        rw [List.length_append, hlength, hlength', length_lcsPairs, length_lcsPairs]
    _ ≤ lcsLength (a ++ a') (b ++ b') := le_lcsLength (ha.append ha') (hb.append hb')

/-! ### Between cuts -/

/-- No pair crosses from one side of the positions to the other. -/
def Cut (pairs : List (ℕ × ℕ)) (k l : ℕ) : Prop := ∀ p ∈ pairs, p.1 < k ↔ p.2 < l

omit [DecidableEq α] in
/-- A pair of an alignment makes a cut before it, and one after it. -/
theorem Alignment.cut {a b : List α} {pairs : List (ℕ × ℕ)} (h : Alignment a b pairs) {k l : ℕ}
    (hmem : (k, l) ∈ pairs) : Cut pairs k l ∧ Cut pairs (k + 1) (l + 1) := by
  have hboth : ∀ p ∈ pairs, p.1 < k ∧ p.2 < l ∨ p = (k, l) ∨ k < p.1 ∧ l < p.2 := by
    intro p hp
    obtain ⟨before, after, rfl⟩ := List.append_of_mem hmem
    obtain ⟨-, hafter, hbefore⟩ := List.pairwise_append.mp h.ascending
    rcases List.mem_append.mp hp with hp | hp
    · exact Or.inl (hbefore p hp _ List.mem_cons_self)
    · rcases List.mem_cons.mp hp with rfl | hp
      · exact Or.inr (Or.inl rfl)
      · exact Or.inr (Or.inr (List.pairwise_cons.mp hafter |>.1 p hp))
  refine ⟨fun p hp => ?_, fun p hp => ?_⟩
  · rcases hboth p hp with h | rfl | h
    · exact iff_of_true h.1 h.2
    · exact iff_of_false (Nat.lt_irrefl _) (Nat.lt_irrefl _)
    · exact iff_of_false (Nat.lt_asymm h.1) (Nat.lt_asymm h.2)
  · rcases hboth p hp with h | rfl | h
    · exact iff_of_true (Nat.lt_succ_of_lt h.1) (Nat.lt_succ_of_lt h.2)
    · exact iff_of_true (Nat.lt_succ_self k) (Nat.lt_succ_self l)
    · exact iff_of_false (by omega) (by omega)

omit [DecidableEq α] in
/-- The pairs before a cut align what is before it. -/
theorem Alignment.take {a b : List α} {pairs : List (ℕ × ℕ)} (h : Alignment a b pairs) {k l : ℕ}
    (hcut : Cut pairs k l) : Alignment (a.take k) (b.take l) (pairs.filter fun p => p.1 < k) := by
  refine ⟨h.ascending.filter _, fun p hp => ?_⟩
  obtain ⟨hmem, hlt⟩ := List.mem_filter.mp hp
  rw [decide_eq_true_eq] at hlt
  obtain ⟨x, ha, hb⟩ := h.equal p hmem
  exact ⟨x, by rw [List.getElem?_take_of_lt hlt, ha],
    by rw [List.getElem?_take_of_lt ((hcut p hmem).mp hlt), hb]⟩

omit [DecidableEq α] in
/-- The pairs after a cut align what is after it. -/
theorem Alignment.drop {a b : List α} {pairs : List (ℕ × ℕ)} (h : Alignment a b pairs) {k l : ℕ}
    (hcut : Cut pairs k l) : Alignment (a.drop k) (b.drop l)
      ((pairs.filter fun p => !decide (p.1 < k)).map fun p => (p.1 - k, p.2 - l)) := by
  have hafter : ∀ p ∈ pairs.filter fun p => !decide (p.1 < k), p ∈ pairs ∧ k ≤ p.1 ∧ l ≤ p.2 := by
    intro p hp
    obtain ⟨hmem, hge⟩ := List.mem_filter.mp hp
    have hnot : ¬ p.1 < k := by simpa using hge
    exact ⟨hmem, Nat.le_of_not_lt hnot, Nat.le_of_not_lt fun hlt => hnot ((hcut p hmem).mpr hlt)⟩
  constructor
  · refine List.pairwise_map.mpr ((h.ascending.filter _).imp_of_mem fun {p q} hp hq hpq => ?_)
    obtain ⟨-, hk, hl⟩ := hafter p hp
    exact ⟨by dsimp only; omega, by dsimp only; omega⟩
  · intro p hp
    obtain ⟨q, hq, rfl⟩ := List.mem_map.mp hp
    obtain ⟨hmem, hk, hl⟩ := hafter q hq
    obtain ⟨x, ha, hb⟩ := h.equal q hmem
    refine ⟨x, ?_, ?_⟩
    · rw [List.getElem?_drop, Nat.add_sub_cancel' hk, ha]
    · rw [List.getElem?_drop, Nat.add_sub_cancel' hl, hb]

omit [DecidableEq α] in
theorem take_append_slice (l : List α) {lo hi : ℕ} (h : lo ≤ hi) :
    l.take lo ++ slice l lo hi = l.take hi := by
  have hsplit := List.take_append_drop lo (l.take hi)
  rwa [List.take_take, Nat.min_eq_left h] at hsplit

/-- **The pairs between two cuts are as many as any common subsequence between them has
elements**: the other pairs are no more than the longest of what is before and after. -/
theorem lcsLength_slice_le {a b : List α} {k k' l l' : ℕ} (hk : k ≤ k') (hl : l ≤ l')
    (hcut : Cut (lcsPairs a b) k l) (hcut' : Cut (lcsPairs a b) k' l') :
    lcsLength (slice a k k') (slice b l l') ≤
      ((lcsPairs a b).filter fun p => k ≤ p.1 ∧ p.1 < k').length := by
  have halign := alignment_lcsPairs a b
  have hbefore := (halign.take hcut).length_le
  have hafter := (halign.drop hcut').length_le
  rw [List.length_map] at hafter
  have hwhole : lcsLength (a.take k) (b.take l) + lcsLength (slice a k k') (slice b l l') +
      lcsLength (a.drop k') (b.drop l') ≤ lcsLength a b := by
    have hfirst := lcsLength_append (a.take k) (slice a k k') (b.take l) (slice b l l')
    have hlast := lcsLength_append (a.take k') (a.drop k') (b.take l') (b.drop l')
    rw [take_append_slice a hk, take_append_slice b hl] at hfirst
    rw [List.take_append_drop, List.take_append_drop] at hlast
    omega
  have hcount : (lcsPairs a b).length = ((lcsPairs a b).filter fun p => p.1 < k).length +
      ((lcsPairs a b).filter fun p => k ≤ p.1 ∧ p.1 < k').length +
      ((lcsPairs a b).filter fun p => !decide (p.1 < k')).length := by
    generalize lcsPairs a b = pairs
    induction pairs with
    | nil => rfl
    | cons p pairs ih =>
      simp only [List.filter_cons, decide_eq_true_eq, Bool.not_eq_true', decide_eq_false_iff_not]
      split_ifs <;> simp only [List.length_cons] <;> omega
  rw [length_lcsPairs] at hcount
  omega

/-- **Between two cuts with equal elements, every position is paired.** -/
theorem matched_of_slice_eq {a b : List α} {k k' l l' : ℕ} (hk : k ≤ k') (hl : l ≤ l')
    (hcut : Cut (lcsPairs a b) k l) (hcut' : Cut (lcsPairs a b) k' l')
    (h : slice a k k' = slice b l l') {m : ℕ} (hm : l ≤ m) (hm' : m < l') (hlen : m < b.length) :
    ∃ i, (i, m) ∈ lcsPairs a b := by
  obtain ⟨between, hbetween⟩ : ∃ between, ((lcsPairs a b).filter fun p =>
      k ≤ p.1 ∧ p.1 < k').map Prod.snd = between := ⟨_, rfl⟩
  have hlong : min l' b.length - l ≤ between.length := by
    have hmiddle := lcsLength_slice_le hk hl hcut hcut'
    have hself : (slice b l l').length ≤ lcsLength (slice b l l') (slice b l l') :=
      le_lcsLength (List.Sublist.refl _) (List.Sublist.refl _)
    rw [h] at hmiddle
    rw [slice, List.length_drop, List.length_take] at hself
    rw [← hbetween, List.length_map]
    exact Nat.le_trans hself hmiddle
  have hnodup : between.Nodup := by
    rw [← hbetween]
    exact List.pairwise_map.mpr (((alignment_lcsPairs a b).ascending.filter _).imp
      fun hpq => Nat.ne_of_lt hpq.2)
  have hsub : between ⊆ List.range' l (min l' b.length - l) := by
    intro j hj
    rw [← hbetween] at hj
    obtain ⟨p, hp, rfl⟩ := List.mem_map.mp hj
    obtain ⟨hmem, hrange⟩ := List.mem_filter.mp hp
    rw [decide_eq_true_eq] at hrange
    have hlo : l ≤ p.2 := Nat.le_of_not_lt fun hlt =>
      Nat.not_lt_of_le hrange.1 ((hcut p hmem).mpr hlt)
    have hhi : p.2 < l' := (hcut' p hmem).mp hrange.2
    obtain ⟨x, -, hb⟩ := (alignment_lcsPairs a b).equal p hmem
    have hin : p.2 < b.length := (List.getElem?_eq_some_iff.mp hb).1
    exact List.mem_range'_1.mpr ⟨hlo, by omega⟩
  -- distinct positions, as many as there are
  have hperm := (hnodup.subperm hsub).perm_of_length_le (by rw [List.length_range']; exact hlong)
  have hmem : m ∈ between := hperm.mem_iff.mpr (List.mem_range'_1.mpr ⟨hm, by omega⟩)
  rw [← hbetween] at hmem
  obtain ⟨p, hp, rfl⟩ := List.mem_map.mp hmem
  exact ⟨p.1, (List.mem_filter.mp hp).1⟩

end Merge
