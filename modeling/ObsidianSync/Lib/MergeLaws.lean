import ObsidianSync.Lib.Longest

/-!
# Laws of the three-way merge

A merge treats the two sides alike, and it loses nothing: what is between two anchors that
follow each other is one side of it or a conflict with both, and a side that gives way has
no element there that is not aligned with the base.

## Main definitions

* `Merge.commonAnchors` — the positions of the base that are paired on both sides.
* `Merge.Region`, `Merge.regionsFrom` — what is between the anchors, on the three lists.
* `Merge.weave` — pieces with an element between each two.
* `Merge.unmatchedFrom` — the elements that are not paired.

## Main results

* `Merge.merge_swap` — **the sides may be swapped.**
* `Merge.merge_self` — two equal sides are the merge.
* `Merge.anchors_eq` — every common anchor is used.
* `Merge.mergeFrom_eq` — the merge, piece by piece.
* `Merge.unmatched_sublist_merge` — **no element that is not paired is lost.**
-/

namespace Merge

variable {α : Type*} [DecidableEq α] {conflict : List α → List α → List α}
  {base ours theirs : List α}

/-! ### Swapping the sides -/

/-- The anchor with its sides swapped. -/
def Anchor.swap (anchor : Anchor) : Anchor := ⟨anchor.base, anchor.theirs, anchor.ours⟩

omit [DecidableEq α] in
theorem anchorsFrom_swap (ours theirs : ℕ → Option ℕ) (n k a b : ℕ) :
    anchorsFrom theirs ours n k b a = (anchorsFrom ours theirs n k a b).map Anchor.swap := by
  induction n generalizing k a b with
  | zero => rfl
  | succ n ih =>
    rw [anchorsFrom, anchorsFrom]
    cases ours k with
    | none => cases theirs k <;> exact ih _ _ _
    | some a' =>
      cases theirs k with
      | none => exact ih _ _ _
      | some b' =>
        dsimp only
        by_cases h : a ≤ a' ∧ b ≤ b'
        · rw [if_pos h, if_pos h.symm, ih]
          rfl
        · rw [if_neg h, if_neg fun h' => h h'.symm, ih]

theorem between_swap (conflict : List α → List α → List α) (base ours theirs : List α) :
    between (fun ours theirs => conflict theirs ours) base theirs ours =
      between conflict base ours theirs := by
  unfold between
  by_cases hsame : ours = theirs
  · rw [if_pos hsame, if_pos hsame.symm, hsame]
  · rw [if_neg hsame, if_neg (Ne.symm hsame)]
    by_cases hours : ours = base
    · rw [if_pos hours, if_neg fun htheirs => hsame (hours.trans htheirs.symm), if_pos hours]
    · rw [if_neg hours, if_neg hours]

theorem mergeFrom_swap (k a b : ℕ) (l : List Anchor) :
    mergeFrom (fun ours theirs => conflict theirs ours) base theirs ours k b a
        (l.map Anchor.swap) = mergeFrom conflict base ours theirs k a b l := by
  induction l generalizing k a b with
  | nil => exact between_swap _ _ _ _
  | cons anchor rest ih =>
    rw [List.map_cons, mergeFrom, mergeFrom]
    simp only [Anchor.swap, between_swap, ← ih]

/-- **The sides may be swapped**, where what stands for a conflict is. -/
theorem merge_swap (conflict : List α → List α → List α) (base ours theirs : List α) :
    merge (fun ours theirs => conflict theirs ours) base theirs ours =
      merge conflict base ours theirs := by
  have hanchors : anchors base theirs ours = (anchors base ours theirs).map Anchor.swap :=
    anchorsFrom_swap _ _ _ _ _ _
  rw [merge, merge, hanchors]
  exact mergeFrom_swap _ _ _ _

/-- What stands for a conflict plays a part only where there is one. -/
theorem mergeFrom_conflict (conflict' : List α → List α → List α) (k a b : ℕ) (l : List Anchor) :
    (mergeFrom conflict' base ours theirs k a b l).2 =
        (mergeFrom conflict base ours theirs k a b l).2 ∧
      ((mergeFrom conflict base ours theirs k a b l).2 = false →
        (mergeFrom conflict' base ours theirs k a b l).1 =
          (mergeFrom conflict base ours theirs k a b l).1) := by
  have hpiece : ∀ base ours theirs : List α,
      (between conflict' base ours theirs).2 = (between conflict base ours theirs).2 ∧
        ((between conflict base ours theirs).2 = false →
          (between conflict' base ours theirs).1 = (between conflict base ours theirs).1) := by
    intro base ours theirs
    unfold between
    split_ifs
    · exact ⟨rfl, fun _ => rfl⟩
    · exact ⟨rfl, fun _ => rfl⟩
    · exact ⟨rfl, fun _ => rfl⟩
    · exact ⟨rfl, fun h => nomatch h⟩
  induction l generalizing k a b with
  | nil => exact hpiece _ _ _
  | cons anchor rest ih =>
    obtain ⟨hflag, htext⟩ := hpiece (slice base k anchor.base) (slice ours a anchor.ours)
      (slice theirs b anchor.theirs)
    obtain ⟨hmoreFlag, hmoreText⟩ := ih (anchor.base + 1) (anchor.ours + 1) (anchor.theirs + 1)
    rw [mergeFrom, mergeFrom]
    refine ⟨by rw [hflag, hmoreFlag], fun h => ?_⟩
    obtain ⟨h, hmore⟩ := Bool.or_eq_false_iff.mp h
    rw [htext h, hmoreText hmore]

theorem merge_conflict (conflict' : List α → List α → List α) :
    (merge conflict' base ours theirs).2 = (merge conflict base ours theirs).2 ∧
      ((merge conflict base ours theirs).2 = false →
        (merge conflict' base ours theirs).1 = (merge conflict base ours theirs).1) :=
  mergeFrom_conflict conflict' _ _ _ _

/-! ### Sides that agree -/

theorem mergeFrom_right_base_flag {k a b : ℕ} {l : List Anchor}
    (hl : ∀ anchor ∈ l, anchor.theirs = anchor.base) (hb : b = k) :
    (mergeFrom conflict base ours base k a b l).2 = false := by
  have hpiece : ∀ base ours : List α, (between conflict base ours base).2 = false := by
    intro base ours
    unfold between
    split_ifs <;> first | rfl | contradiction
  induction l generalizing k a b with
  | nil => rw [mergeFrom, hb, hpiece]
  | cons anchor rest ih =>
    have hsame := hl anchor List.mem_cons_self
    rw [mergeFrom, hb, hsame, hpiece, Bool.false_or]
    exact ih (fun other hother => hl other (List.mem_cons_of_mem _ hother)) rfl

/-- A side without edits makes no conflict. -/
theorem merge_right_base_flag : (merge conflict base ours base).2 = false := by
  refine mergeFrom_right_base_flag (fun anchor hanchor => ?_) rfl
  exact partner_self (partners_of_mem_anchorsFrom hanchor).2

theorem mergeFrom_self {k a : ℕ} {l : List Anchor} (h : Ascending k a a l)
    (hl : ∀ anchor ∈ l, anchor.ours = anchor.theirs ∧
      ∃ x, base[anchor.base]? = some x ∧ ours[anchor.ours]? = some x) :
    mergeFrom conflict base ours ours k a a l = (ours.drop a, false) := by
  have hpiece : ∀ base ours : List α, between conflict base ours ours = (ours, false) :=
    fun base ours => if_pos rfl
  induction l generalizing k a with
  | nil => rw [mergeFrom, hpiece, slice_length]
  | cons anchor rest ih =>
    obtain ⟨-, ha, -, hrest⟩ := h
    obtain ⟨hsame, x, hbase, hours⟩ := hl anchor List.mem_cons_self
    rw [← hsame] at hrest
    have hmore := ih hrest fun other hother => hl other (List.mem_cons_of_mem _ hother)
    rw [mergeFrom, ← hsame, hpiece, hmore, hbase, Option.toList_some]
    exact Prod.ext (slice_append_getElem ha hours) rfl

/-- **Two equal sides are the merge.** -/
theorem merge_self : merge conflict base ours ours = (ours, false) := by
  refine mergeFrom_self (ascending_anchorsFrom _ _ _ _ _ _) fun anchor hanchor => ?_
  obtain ⟨hours, htheirs⟩ := partners_of_mem_anchorsFrom hanchor
  exact ⟨Option.some.inj (hours.symm.trans htheirs),
    getElem?_of_mem_lcsPairs (mem_of_partner hours)⟩

/-! ### Every common anchor is used -/

/-- The position of the base with its partners. -/
def commonAnchor (ours theirs : ℕ → Option ℕ) (k : ℕ) : Option Anchor :=
  match ours k, theirs k with
  | some a, some b => some ⟨k, a, b⟩
  | _, _ => none

/-- The positions of the base that are paired on both sides. -/
def commonAnchors (base ours theirs : List α) : List Anchor :=
  (List.range base.length).filterMap
    (commonAnchor (partner (lcsPairs base ours)) (partner (lcsPairs base theirs)))

/-- Later positions have later partners. -/
def Increasing (f : ℕ → Option ℕ) : Prop :=
  ∀ k k' a a', k < k' → f k = some a → f k' = some a' → a < a'

theorem increasing_partner (a b : List α) : Increasing (partner (lcsPairs a b)) := by
  intro k k' l l' hk h h'
  have hmem := mem_of_partner h
  have hmem' := mem_of_partner h'
  have hcut := ((alignment_lcsPairs a b).cut hmem').1
  exact (hcut _ hmem).mp hk

omit [DecidableEq α] in
theorem anchorsFrom_eq {ours theirs : ℕ → Option ℕ} (hours : Increasing ours)
    (htheirs : Increasing theirs) {n k a b : ℕ} (ha : ∀ k' a', k ≤ k' → ours k' = some a' → a ≤ a')
    (hb : ∀ k' b', k ≤ k' → theirs k' = some b' → b ≤ b') :
    anchorsFrom ours theirs n k a b = (List.range' k n).filterMap (commonAnchor ours theirs) := by
  induction n generalizing k a b with
  | zero => rfl
  | succ n ih =>
    have hskip := ih (fun k' a' hk' => ha k' a' (Nat.le_of_succ_le hk'))
      fun k' b' hk' => hb k' b' (Nat.le_of_succ_le hk')
    rw [anchorsFrom, List.range'_succ]
    cases ho : ours k with
    | none =>
      rw [List.filterMap_cons_none (by rw [commonAnchor, ho])]
      exact hskip
    | some a' =>
      cases ht : theirs k with
      | none =>
        rw [List.filterMap_cons_none (by rw [commonAnchor, ho, ht])]
        exact hskip
      | some b' =>
        have hnext := ih (fun k' a'' hk' h => Nat.succ_le_of_lt (hours k k' a' a'' hk' ho h))
          fun k' b'' hk' h => Nat.succ_le_of_lt (htheirs k k' b' b'' hk' ht h)
        rw [List.filterMap_cons_some (by rw [commonAnchor, ho, ht])]
        dsimp only
        rw [if_pos ⟨ha k a' (Nat.le_refl k) ho, hb k b' (Nat.le_refl k) ht⟩, hnext]

/-- **Every common anchor is used.** -/
theorem anchors_eq (base ours theirs : List α) :
    anchors base ours theirs = commonAnchors base ours theirs := by
  rw [anchors, commonAnchors, List.range_eq_range']
  exact anchorsFrom_eq (increasing_partner base ours) (increasing_partner base theirs)
    (fun _ _ _ _ => Nat.zero_le _) fun _ _ _ _ => Nat.zero_le _

/-! ### Piece by piece -/

/-- What is between two anchors, on the three lists. -/
structure Region (α : Type*) where
  base : List α
  ours : List α
  theirs : List α

/-- The regions from the given positions on. -/
def regionsFrom (base ours theirs : List α) : ℕ → ℕ → ℕ → List Anchor → List (Region α)
  | k, a, b, [] =>
    [⟨slice base k base.length, slice ours a ours.length, slice theirs b theirs.length⟩]
  | k, a, b, anchor :: rest =>
    ⟨slice base k anchor.base, slice ours a anchor.ours, slice theirs b anchor.theirs⟩ ::
      regionsFrom base ours theirs (anchor.base + 1) (anchor.ours + 1) (anchor.theirs + 1) rest

/-- The regions before, between and after the common anchors. -/
def regions (base ours theirs : List α) : List (Region α) :=
  regionsFrom base ours theirs 0 0 0 (commonAnchors base ours theirs)

/-- The elements of the base that are paired on both sides. -/
def commonElements (base ours theirs : List α) : List α :=
  (commonAnchors base ours theirs).filterMap fun anchor => base[anchor.base]?

/-- Pieces with an element between each two. -/
def weave : List (List α) → List α → List α
  | [], _ => []
  | piece :: pieces, [] => piece ++ weave pieces []
  | piece :: pieces, x :: elements => piece ++ x :: weave pieces elements

/-- The merge of a region. -/
def Region.merge (conflict : List α → List α → List α) (region : Region α) : List α × Bool :=
  between conflict region.base region.ours region.theirs

theorem mergeFrom_eq {k a b : ℕ} {l : List Anchor}
    (hl : ∀ anchor ∈ l, ∃ x, base[anchor.base]? = some x) :
    mergeFrom conflict base ours theirs k a b l =
      (weave ((regionsFrom base ours theirs k a b l).map fun region => (region.merge conflict).1)
          (l.filterMap fun anchor => base[anchor.base]?),
        (regionsFrom base ours theirs k a b l).any fun region => (region.merge conflict).2) := by
  induction l generalizing k a b with
  | nil => simp [mergeFrom, regionsFrom, weave, Region.merge]
  | cons anchor rest ih =>
    obtain ⟨x, hx⟩ := hl anchor List.mem_cons_self
    have hmore := ih (k := anchor.base + 1) (a := anchor.ours + 1) (b := anchor.theirs + 1)
      fun other hother => hl other (List.mem_cons_of_mem _ hother)
    have hfirst : ((anchor :: rest).filterMap fun anchor => base[anchor.base]?) =
        x :: rest.filterMap fun anchor => base[anchor.base]? := List.filterMap_cons_some hx
    rw [mergeFrom, hmore, regionsFrom, hfirst, hx]
    simp [weave, Region.merge]

theorem mem_commonAnchors {anchor : Anchor} (h : anchor ∈ commonAnchors base ours theirs) :
    (anchor.base, anchor.ours) ∈ lcsPairs base ours ∧
      (anchor.base, anchor.theirs) ∈ lcsPairs base theirs := by
  rw [← anchors_eq] at h
  obtain ⟨hours, htheirs⟩ := partners_of_mem_anchorsFrom h
  exact ⟨mem_of_partner hours, mem_of_partner htheirs⟩

/-- **The merge, piece by piece.** -/
theorem merge_eq (conflict : List α → List α → List α) (base ours theirs : List α) :
    merge conflict base ours theirs =
      (weave ((regions base ours theirs).map fun region => (region.merge conflict).1)
          (commonElements base ours theirs),
        (regions base ours theirs).any fun region => (region.merge conflict).2) := by
  rw [merge, anchors_eq]
  refine mergeFrom_eq fun anchor hanchor => ?_
  obtain ⟨x, hx, -⟩ := getElem?_of_mem_lcsPairs (mem_commonAnchors hanchor).1
  exact ⟨x, hx⟩

omit [DecidableEq α] in
/-- The elements between the pieces are kept, where there are pieces enough. -/
theorem sublist_weave {pieces : List (List α)} {elements : List α}
    (h : elements.length ≤ pieces.length) : elements.Sublist (weave pieces elements) := by
  induction pieces generalizing elements with
  | nil => rw [List.eq_nil_of_length_eq_zero (Nat.le_zero.mp h)]; exact List.nil_sublist _
  | cons piece pieces ih =>
    cases elements with
    | nil => exact List.nil_sublist _
    | cons x elements =>
      exact ((ih (Nat.le_of_succ_le_succ h)).cons_cons x).trans (List.sublist_append_right _ _)

omit [DecidableEq α] in
theorem mem_weave {pieces : List (List α)} {elements : List α} {x : α}
    (h : x ∈ weave pieces elements) : x ∈ elements ∨ ∃ piece ∈ pieces, x ∈ piece := by
  induction pieces generalizing elements with
  | nil => simp [weave] at h
  | cons piece pieces ih =>
    have hlater : ∀ elements', x ∈ weave pieces elements' → x ∈ elements' ∨
        ∃ other ∈ piece :: pieces, x ∈ other := by
      intro elements' h
      rcases ih h with h | ⟨other, hother, h⟩
      · exact Or.inl h
      · exact Or.inr ⟨other, List.mem_cons_of_mem _ hother, h⟩
    cases elements with
    | nil =>
      rcases List.mem_append.mp h with h | h
      · exact Or.inr ⟨piece, List.mem_cons_self, h⟩
      · exact hlater [] h
    | cons y elements =>
      rcases List.mem_append.mp h with h | h
      · exact Or.inr ⟨piece, List.mem_cons_self, h⟩
      rcases List.mem_cons.mp h with rfl | h
      · exact Or.inl List.mem_cons_self
      · exact (hlater elements h).imp_left (List.mem_cons_of_mem _)

omit [DecidableEq α] in
theorem length_regionsFrom (k a b : ℕ) (l : List Anchor) :
    (regionsFrom base ours theirs k a b l).length = l.length + 1 := by
  induction l generalizing k a b with
  | nil => rfl
  | cons anchor rest ih => rw [regionsFrom, List.length_cons, ih, List.length_cons]

omit [DecidableEq α] in
/-- The parts of a region come from the lists. -/
theorem of_mem_regionsFrom {k a b : ℕ} {l : List Anchor} {region : Region α}
    (h : region ∈ regionsFrom base ours theirs k a b l) :
    region.ours ⊆ ours ∧ region.theirs ⊆ theirs := by
  have hslice : ∀ (l : List α) (lo hi : ℕ), slice l lo hi ⊆ l := fun l lo hi =>
    ((List.drop_sublist _ _).trans (List.take_sublist _ _)).subset
  induction l generalizing k a b with
  | nil =>
    obtain rfl := List.mem_singleton.mp h
    exact ⟨hslice _ _ _, hslice _ _ _⟩
  | cons anchor rest ih =>
    rcases List.mem_cons.mp h with rfl | h
    · exact ⟨hslice _ _ _, hslice _ _ _⟩
    · exact ih h

/-- A merge of lists that have elements has elements. -/
theorem merge_ne_nil (hours : ours ≠ []) (htheirs : theirs ≠ [])
    (hconflict : ∀ o t : List α, conflict o t ≠ []) : (merge conflict base ours theirs).1 ≠ [] := by
  rw [merge]
  cases hanchors : anchors base ours theirs with
  | nil =>
    rw [mergeFrom, slice_length ours, slice_length theirs, between]
    split_ifs
    · exact hours
    · exact htheirs
    · exact hours
    · exact hconflict _ _
  | cons anchor rest =>
    have hanchor : anchor ∈ anchors base ours theirs := hanchors ▸ List.mem_cons_self
    rw [anchors_eq] at hanchor
    obtain ⟨x, hx, -⟩ := getElem?_of_mem_lcsPairs (mem_commonAnchors hanchor).1
    simp [mergeFrom, hx]

/-- A region becomes one of its sides, or a conflict. -/
theorem Region.merge_cases (conflict : List α → List α → List α) (region : Region α) :
    ((region.merge conflict).2 = false ∧ ((region.merge conflict).1 = region.ours ∨
        (region.merge conflict).1 = region.theirs)) ∨
      ((region.merge conflict).2 = true ∧
        (region.merge conflict).1 = conflict region.ours region.theirs) := by
  unfold Region.merge between
  split_ifs
  · exact Or.inl ⟨rfl, Or.inl rfl⟩
  · exact Or.inl ⟨rfl, Or.inr rfl⟩
  · exact Or.inl ⟨rfl, Or.inl rfl⟩
  · exact Or.inr ⟨rfl, rfl⟩

/-! ### Nothing is lost -/

/-- The elements that are not paired, of a list that starts at a position. -/
def unmatchedFrom (pairs : List (ℕ × ℕ)) (n : ℕ) (l : List α) : List α :=
  ((l.zipIdx n).filter fun p => pairs.all fun pair => pair.2 ≠ p.2).map Prod.fst

omit [DecidableEq α] in
theorem unmatchedFrom_append (pairs : List (ℕ × ℕ)) (n : ℕ) (l l' : List α) :
    unmatchedFrom pairs n (l ++ l') =
      unmatchedFrom pairs n l ++ unmatchedFrom pairs (n + l.length) l' := by
  rw [unmatchedFrom, List.zipIdx_append, List.filter_append, List.map_append]
  rfl

omit [DecidableEq α] in
theorem unmatchedFrom_sublist (pairs : List (ℕ × ℕ)) (n : ℕ) (l : List α) :
    (unmatchedFrom pairs n l).Sublist l := by
  have hsub : (unmatchedFrom pairs n l).Sublist ((l.zipIdx n).map Prod.fst) :=
    List.filter_sublist.map _
  rwa [List.zipIdx_map_fst] at hsub

omit [DecidableEq α] in
/-- Where every position is paired, none is left. -/
theorem unmatchedFrom_eq_nil {pairs : List (ℕ × ℕ)} {n : ℕ} {l : List α}
    (h : ∀ m, n ≤ m → m < n + l.length → ∃ i, (i, m) ∈ pairs) : unmatchedFrom pairs n l = [] := by
  rw [unmatchedFrom, List.map_eq_nil_iff, List.filter_eq_nil_iff]
  intro p hp hall
  have hlo := List.le_snd_of_mem_zipIdx hp
  have hhi := List.snd_lt_add_of_mem_zipIdx hp
  obtain ⟨i, hpair⟩ := h p.2 hlo (by omega)
  simpa using List.all_eq_true.mp hall _ hpair

omit [DecidableEq α] in
theorem length_slice {l : List α} {lo hi : ℕ} (h : hi ≤ l.length) :
    (slice l lo hi).length = hi - lo := by
  rw [slice, List.length_drop, List.length_take, Nat.min_eq_left h]

/-- **What is not paired between two cuts is kept there**: a side that gives way has the elements of
the base, and so each of them is paired. -/
theorem unmatched_sublist_between (other : List α) {k k' a a' : ℕ} (hk : k ≤ k') (ha : a ≤ a')
    (ha' : a' ≤ ours.length) (hcut : Cut (lcsPairs base ours) k a)
    (hcut' : Cut (lcsPairs base ours) k' a')
    (hconflict : ∀ o t : List α, o.Sublist (conflict o t)) :
    (unmatchedFrom (lcsPairs base ours) a (slice ours a a')).Sublist
      (between conflict (slice base k k') (slice ours a a') other).1 := by
  have hours := unmatchedFrom_sublist (lcsPairs base ours) a (slice ours a a')
  unfold between
  split
  · exact hours
  split
  · next hsame =>
    rw [unmatchedFrom_eq_nil fun m hm hm' => ?_]
    · exact List.nil_sublist _
    · rw [length_slice ha'] at hm'
      exact matched_of_slice_eq hk ha hcut hcut' hsame.symm hm (by omega) (by omega)
  split
  · exact hours
  · exact hours.trans (hconflict _ _)

theorem unmatched_sublist_mergeFrom (theirs : List α) {k a b : ℕ} {l : List Anchor}
    (h : Ascending k a b l)
    (hl : ∀ anchor ∈ l, (anchor.base, anchor.ours) ∈ lcsPairs base ours) (hk : k ≤ base.length)
    (ha : a ≤ ours.length) (hcut : Cut (lcsPairs base ours) k a)
    (hconflict : ∀ o t : List α, o.Sublist (conflict o t)) :
    (unmatchedFrom (lcsPairs base ours) a (ours.drop a)).Sublist
      (mergeFrom conflict base ours theirs k a b l).1 := by
  induction l generalizing k a b with
  | nil =>
    have hend : Cut (lcsPairs base ours) base.length ours.length := by
      intro p hp
      obtain ⟨x, hbase, hours⟩ := (alignment_lcsPairs base ours).equal p hp
      exact iff_of_true (List.getElem?_eq_some_iff.mp hbase).1
        (List.getElem?_eq_some_iff.mp hours).1
    rw [← slice_length ours a]
    exact unmatched_sublist_between _ hk ha (Nat.le_refl _) hcut hend hconflict
  | cons anchor rest ih =>
    obtain ⟨hk', ha', -, hrest⟩ := h
    have hmem := hl anchor List.mem_cons_self
    obtain ⟨hbefore, hafter⟩ := (alignment_lcsPairs base ours).cut hmem
    obtain ⟨x, hbase, hours⟩ := getElem?_of_mem_lcsPairs hmem
    have hbaseLt := (List.getElem?_eq_some_iff.mp hbase).1
    have hoursLt := (List.getElem?_eq_some_iff.mp hours).1
    have hmore := ih hrest (fun other hother => hl other (List.mem_cons_of_mem _ hother)) hbaseLt
      hoursLt hafter
    have hpiece := unmatched_sublist_between (slice theirs b anchor.theirs) hk' ha'
      (Nat.le_of_lt hoursLt) hcut hbefore hconflict
    -- the anchor itself is paired
    have hanchor : unmatchedFrom (lcsPairs base ours) anchor.ours [x] = [] :=
      unmatchedFrom_eq_nil fun m hm hm' => ⟨anchor.base, by
        rwa [show m = anchor.ours by simp at hm'; omega]⟩
    rw [← slice_append_getElem ha' hours, unmatchedFrom_append, unmatchedFrom_append,
      length_slice (Nat.le_of_lt hoursLt), List.length_append, length_slice (Nat.le_of_lt hoursLt),
      List.length_singleton, Nat.add_sub_cancel' ha', ← Nat.add_assoc, Nat.add_sub_cancel' ha',
      hanchor, List.append_nil, mergeFrom]
    exact (hpiece.trans (List.sublist_append_left _ _)).append hmore

/-- **No element of a side that is not paired is lost.** -/
theorem unmatched_sublist_merge (base ours theirs : List α)
    (hconflict : ∀ o t : List α, o.Sublist (conflict o t)) :
    (unmatchedFrom (lcsPairs base ours) 0 ours).Sublist (merge conflict base ours theirs).1 := by
  have hstart : Cut (lcsPairs base ours) 0 0 := fun p _ =>
    iff_of_false (Nat.not_lt_zero _) (Nat.not_lt_zero _)
  have h := unmatched_sublist_mergeFrom theirs
    (ascending_anchorsFrom (partner (lcsPairs base ours)) (partner (lcsPairs base theirs))
      base.length 0 0 0)
    (fun anchor hanchor => mem_of_partner (partners_of_mem_anchorsFrom hanchor).1)
    (Nat.zero_le _) (Nat.zero_le _) hstart hconflict
  rwa [List.drop_zero] at h

end Merge
