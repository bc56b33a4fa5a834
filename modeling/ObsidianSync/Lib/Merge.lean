import Mathlib.Data.List.Basic
import Mathlib.Tactic.Cases

/-!
# Three-way merges of lists

Two lists are aligned along a longest common subsequence, and two edits of a common base are
merged between the elements of the base that both sides kept: where one side has the elements
of the base, those of the other side are taken.

## Main definitions

* `Merge.lcsLength`, `Merge.lcsPairs` — a longest common subsequence, by the usual recurrence,
  and the positions of its elements.
* `Merge.anchors` — the positions of the base that both sides kept.
* `Merge.merge` — the merge, with what stands for a conflict as a parameter.

## Main results

* `Merge.getElem?_of_mem_lcsPairs` — aligned positions hold the same element.
* `Merge.lcsPairs_self` — a list is aligned with itself position by position.
* `Merge.merge_right_base`, `Merge.merge_left_base` — **a side that made no edit gives way to
  the other one.**
-/

namespace Merge

variable {α : Type*} [DecidableEq α]

/-! ### Alignment -/

/-- A row of the table of lengths, from the row below it: the length for an element and the
list after it. -/
def lcsRow (x : α) (next : List α → ℕ) : List α → ℕ
  | [] => 0
  | y :: b => if x = y then next b + 1 else max (next (y :: b)) (lcsRow x next b)

/-- The length of a longest common subsequence. -/
def lcsLength : List α → List α → ℕ
  | [] => fun _ => 0
  | x :: a => lcsRow x (lcsLength a)

/-- The walk through one row of the table: the element at `i` is paired, or the walk goes on
with the next element of the list the table says. -/
def walkRow (x : α) (a : List α) (i : ℕ) (next : ℕ → List α → List (ℕ × ℕ)) :
    ℕ → List α → List (ℕ × ℕ)
  | _, [] => []
  | j, y :: b =>
    if x = y then (i, j) :: next (j + 1) b
    else if lcsLength a (y :: b) ≥ lcsLength (x :: a) b then next j (y :: b)
    else walkRow x a i next (j + 1) b

/-- The pairs of the walk from the positions `i` and `j` on. -/
def lcsPairsFrom : ℕ → List α → ℕ → List α → List (ℕ × ℕ)
  | _, [] => fun _ _ => []
  | i, x :: a => walkRow x a i (lcsPairsFrom (i + 1) a)

/-- The positions of the elements of a longest common subsequence, in both lists. -/
def lcsPairs (a b : List α) : List (ℕ × ℕ) := lcsPairsFrom 0 a 0 b

/-- Pairs that hold the same element, of lists that start at `i` and `j`. -/
def AlignedFrom (i : ℕ) (a : List α) (j : ℕ) (b : List α) (p : ℕ × ℕ) : Prop :=
  ∃ k l x, p = (i + k, j + l) ∧ a[k]? = some x ∧ b[l]? = some x

omit [DecidableEq α] in
theorem AlignedFrom.cons_right {i j : ℕ} {a b : List α} {p : ℕ × ℕ} (y : α)
    (h : AlignedFrom i a (j + 1) b p) : AlignedFrom i a j (y :: b) p := by
  obtain ⟨k, l, x, rfl, ha, hb⟩ := h
  exact ⟨k, l + 1, x, by rw [Nat.add_right_comm, Nat.add_assoc j l 1], ha, hb⟩

omit [DecidableEq α] in
theorem AlignedFrom.cons_left {i j : ℕ} {a b : List α} {p : ℕ × ℕ} (x : α)
    (h : AlignedFrom (i + 1) a j b p) : AlignedFrom i (x :: a) j b p := by
  obtain ⟨k, l, z, rfl, ha, hb⟩ := h
  exact ⟨k + 1, l, z, by rw [Nat.add_right_comm, Nat.add_assoc i k 1], ha, hb⟩

theorem aligned_lcsPairsFrom {i : ℕ} {a : List α} {j : ℕ} {b : List α} {p : ℕ × ℕ}
    (h : p ∈ lcsPairsFrom i a j b) : AlignedFrom i a j b p := by
  induction a generalizing i j b with
  | nil => simp [lcsPairsFrom] at h
  | cons x a iha =>
    induction b generalizing j with
    | nil => simp [lcsPairsFrom, walkRow] at h
    | cons y b ihb =>
      simp only [lcsPairsFrom, walkRow] at h
      split at h
      · next hxy =>
        rcases List.mem_cons.mp h with rfl | h
        · exact ⟨0, 0, x, rfl, rfl, by simp [hxy]⟩
        · exact ((iha h).cons_right y).cons_left x
      split at h
      · exact (iha h).cons_left x
      · exact (ihb h).cons_right y

/-- **Aligned positions hold the same element.** -/
theorem getElem?_of_mem_lcsPairs {a b : List α} {k l : ℕ} (h : (k, l) ∈ lcsPairs a b) :
    ∃ x, a[k]? = some x ∧ b[l]? = some x := by
  obtain ⟨k', l', x, heq, ha, hb⟩ := aligned_lcsPairsFrom h
  obtain ⟨rfl, rfl⟩ := Prod.mk.inj heq
  exact ⟨x, by simpa using ha, by simpa using hb⟩

/-- A list is aligned with itself position by position. -/
theorem lcsPairsFrom_self (i : ℕ) (a : List α) :
    lcsPairsFrom i a i a = (List.range' i a.length).map fun k => (k, k) := by
  induction a generalizing i with
  | nil => rfl
  | cons x a ih => simp [lcsPairsFrom, walkRow, ih, List.range'_succ]

/-! ### Anchors -/

/-- The partner of a position. -/
def partner (pairs : List (ℕ × ℕ)) (k : ℕ) : Option ℕ :=
  (pairs.find? fun pair => pair.1 = k).map Prod.snd

omit [DecidableEq α] in
theorem mem_of_partner {pairs : List (ℕ × ℕ)} {k l : ℕ} (h : partner pairs k = some l) :
    (k, l) ∈ pairs := by
  obtain ⟨pair, hfind, rfl⟩ := Option.map_eq_some_iff.mp h
  obtain rfl : pair.1 = k := by simpa using List.find?_some hfind
  exact List.mem_of_find?_eq_some hfind

theorem partner_self {a : List α} {k l : ℕ} (h : partner (lcsPairs a a) k = some l) : l = k := by
  have hmem := mem_of_partner h
  rw [lcsPairs, lcsPairsFrom_self, List.mem_map] at hmem
  obtain ⟨m, -, hpair⟩ := hmem
  obtain ⟨rfl, rfl⟩ := Prod.mk.inj hpair
  rfl

/-- A position of the base and its partners on the two sides. -/
structure Anchor where
  base : ℕ
  ours : ℕ
  theirs : ℕ
  deriving DecidableEq, Repr

/-- The anchors from a position of the base on, past the positions the sides have come to. -/
def anchorsFrom (ours theirs : ℕ → Option ℕ) : ℕ → ℕ → ℕ → ℕ → List Anchor
  | 0, _, _, _ => []
  | n + 1, k, minOurs, minTheirs =>
    match ours k, theirs k with
    | some a, some b =>
      if minOurs ≤ a ∧ minTheirs ≤ b then
        ⟨k, a, b⟩ :: anchorsFrom ours theirs n (k + 1) (a + 1) (b + 1)
      else anchorsFrom ours theirs n (k + 1) minOurs minTheirs
    | _, _ => anchorsFrom ours theirs n (k + 1) minOurs minTheirs

/-- The positions of the base that both sides kept, in their order. -/
def anchors (base ours theirs : List α) : List Anchor :=
  anchorsFrom (partner (lcsPairs base ours)) (partner (lcsPairs base theirs)) base.length 0 0 0

/-- Anchors follow each other on all three lists. -/
def Ascending : ℕ → ℕ → ℕ → List Anchor → Prop
  | _, _, _, [] => True
  | k, a, b, anchor :: rest => k ≤ anchor.base ∧ a ≤ anchor.ours ∧ b ≤ anchor.theirs ∧
      Ascending (anchor.base + 1) (anchor.ours + 1) (anchor.theirs + 1) rest

omit [DecidableEq α] in
theorem Ascending.mono {k k' a b : ℕ} {l : List Anchor} (h : Ascending k' a b l) (hk : k ≤ k') :
    Ascending k a b l := by
  cases l with
  | nil => trivial
  | cons anchor rest => exact ⟨Nat.le_trans hk h.1, h.2⟩

omit [DecidableEq α] in
theorem ascending_anchorsFrom (ours theirs : ℕ → Option ℕ) (n k a b : ℕ) :
    Ascending k a b (anchorsFrom ours theirs n k a b) := by
  induction n generalizing k a b with
  | zero => trivial
  | succ n ih =>
    unfold anchorsFrom
    split
    · split
      · next hmin => exact ⟨Nat.le_refl k, hmin.1, hmin.2, ih _ _ _⟩
      · exact (ih _ _ _).mono (Nat.le_succ k)
    · exact (ih _ _ _).mono (Nat.le_succ k)

omit [DecidableEq α] in
theorem partners_of_mem_anchorsFrom {ours theirs : ℕ → Option ℕ} {n k a b : ℕ} {anchor : Anchor}
    (h : anchor ∈ anchorsFrom ours theirs n k a b) :
    ours anchor.base = some anchor.ours ∧ theirs anchor.base = some anchor.theirs := by
  induction n generalizing k a b with
  | zero => simp [anchorsFrom] at h
  | succ n ih =>
    unfold anchorsFrom at h
    split at h
    · next hours htheirs =>
      split at h
      · rcases List.mem_cons.mp h with rfl | h
        · exact ⟨hours, htheirs⟩
        · exact ih h
      · exact ih h
    · exact ih h

/-! ### Merging -/

/-- The elements from one position to another. -/
def slice (l : List α) (lo hi : ℕ) : List α := (l.take hi).drop lo

/-- What is between two anchors: the side that was edited, and for different edits what stands
for the conflict.  The flag says that there is one. -/
def between (conflict : List α → List α → List α) (base ours theirs : List α) : List α × Bool :=
  if ours = theirs then (ours, false)
  else if ours = base then (theirs, false)
  else if theirs = base then (ours, false)
  else (conflict ours theirs, true)

/-- The merge from the given positions on. -/
def mergeFrom (conflict : List α → List α → List α) (base ours theirs : List α) :
    ℕ → ℕ → ℕ → List Anchor → List α × Bool
  | k, a, b, [] =>
    between conflict (slice base k base.length) (slice ours a ours.length)
      (slice theirs b theirs.length)
  | k, a, b, anchor :: rest =>
    let piece := between conflict (slice base k anchor.base) (slice ours a anchor.ours)
      (slice theirs b anchor.theirs)
    let more := mergeFrom conflict base ours theirs (anchor.base + 1) (anchor.ours + 1)
      (anchor.theirs + 1) rest
    (piece.1 ++ base[anchor.base]?.toList ++ more.1, piece.2 || more.2)

/-- The merge of two edits of a base. -/
def merge (conflict : List α → List α → List α) (base ours theirs : List α) : List α × Bool :=
  mergeFrom conflict base ours theirs 0 0 0 (anchors base ours theirs)

/-! ### A side without edits -/

variable {conflict : List α → List α → List α} {base ours theirs : List α}

theorem between_right_base : (between conflict base ours base).1 = ours := by
  unfold between
  split
  · rfl
  · rw [if_pos rfl]

theorem between_left_base : (between conflict base base theirs).1 = theirs := by
  unfold between
  split
  · next hsame => exact hsame
  · rw [if_pos rfl]

omit [DecidableEq α] in
/-- A slice, the element after it and the rest are the list from the slice on. -/
theorem slice_append_getElem {l : List α} {lo hi : ℕ} {x : α} (h : lo ≤ hi)
    (hx : l[hi]? = some x) : slice l lo hi ++ [x] ++ l.drop (hi + 1) = l.drop lo := by
  obtain ⟨hlt, rfl⟩ := List.getElem?_eq_some_iff.mp hx
  have hsplit : l.take hi ++ l.drop hi = l := List.take_append_drop hi l
  have hdrop : l.drop hi = l[hi] :: l.drop (hi + 1) := List.drop_eq_getElem_cons hlt
  calc slice l lo hi ++ [l[hi]] ++ l.drop (hi + 1)
      = (l.take hi).drop lo ++ l.drop hi := by rw [hdrop, slice, List.append_assoc]; rfl
    _ = (l.take hi ++ l.drop hi).drop lo := by
        rw [List.drop_append_of_le_length]
        rw [List.length_take]
        omega
    _ = l.drop lo := by rw [hsplit]

omit [DecidableEq α] in
theorem slice_length (l : List α) (lo : ℕ) : slice l lo l.length = l.drop lo := by
  rw [slice, List.take_length]

theorem mergeFrom_right_base {k a : ℕ} {l : List Anchor} (h : Ascending k a k l)
    (hl : ∀ anchor ∈ l, anchor.theirs = anchor.base ∧
      ∃ x, base[anchor.base]? = some x ∧ ours[anchor.ours]? = some x) :
    (mergeFrom conflict base ours base k a k l).1 = ours.drop a := by
  induction l generalizing k a with
  | nil => rw [mergeFrom, between_right_base, slice_length]
  | cons anchor rest ih =>
    obtain ⟨-, ha, -, hrest⟩ := h
    obtain ⟨hsame, x, hbase, hours⟩ := hl anchor List.mem_cons_self
    rw [hsame] at hrest
    have hmore := ih hrest fun other hother => hl other (List.mem_cons_of_mem _ hother)
    simp only [mergeFrom, hsame, between_right_base, hbase, Option.toList_some, hmore]
    exact slice_append_getElem ha hours

theorem mergeFrom_left_base {k b : ℕ} {l : List Anchor} (h : Ascending k k b l)
    (hl : ∀ anchor ∈ l, anchor.ours = anchor.base ∧
      ∃ x, base[anchor.base]? = some x ∧ theirs[anchor.theirs]? = some x) :
    (mergeFrom conflict base base theirs k k b l).1 = theirs.drop b := by
  induction l generalizing k b with
  | nil => rw [mergeFrom, between_left_base, slice_length]
  | cons anchor rest ih =>
    obtain ⟨-, -, hb, hrest⟩ := h
    obtain ⟨hsame, x, hbase, htheirs⟩ := hl anchor List.mem_cons_self
    rw [hsame] at hrest
    have hmore := ih hrest fun other hother => hl other (List.mem_cons_of_mem _ hother)
    simp only [mergeFrom, hsame, between_left_base, hbase, Option.toList_some, hmore]
    exact slice_append_getElem hb htheirs

/-- **Where theirs is the base, the merge is ours.** -/
theorem merge_right_base : (merge conflict base ours base).1 = ours := by
  refine mergeFrom_right_base (ascending_anchorsFrom _ _ _ _ _ _) fun anchor hanchor => ?_
  obtain ⟨hours, htheirs⟩ := partners_of_mem_anchorsFrom hanchor
  exact ⟨partner_self htheirs, getElem?_of_mem_lcsPairs (mem_of_partner hours)⟩

/-- **Where ours is the base, the merge is theirs.** -/
theorem merge_left_base : (merge conflict base base theirs).1 = theirs := by
  refine mergeFrom_left_base (ascending_anchorsFrom _ _ _ _ _ _) fun anchor hanchor => ?_
  obtain ⟨hours, htheirs⟩ := partners_of_mem_anchorsFrom hanchor
  exact ⟨partner_self hours, getElem?_of_mem_lcsPairs (mem_of_partner htheirs)⟩

end Merge
