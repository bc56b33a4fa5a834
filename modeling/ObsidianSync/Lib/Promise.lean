import Mathlib.Algebra.Order.Group.Multiset
import Mathlib.Tactic.Abel

/-!
# Promises

A promise is pending, with the continuations that wait for it, or it is settled with a value.
To settle one gives its continuations away, each with the value, and a continuation that comes
later is given away at once.  What is given away is queued by the program.

## Main definitions

* `Promise.Cell`, `Promise.Heap` — a promise, and the promises that have been made.
* `Promise.make`, `Promise.subscribe`, `Promise.settle` — the operations.
* `Promise.pendingCount`, `Promise.reactions` — how many promises are pending, and the
  continuations that wait for them.

## Main results

* `Promise.subscribe_at`, `Promise.settle_at` — what becomes of a promise among others.
* `Promise.perm_subscribe`, `Promise.perm_settle` — **no continuation is lost, and none is given
  away twice.**
-/

namespace Promise

variable {J V : Type*}

/-- A promise with what waits for it, or with its value. -/
inductive Cell (J V : Type*)
  | pending (reactions : List J)
  | settled (value : V)
  deriving DecidableEq, Repr

/-- The promises that have been made, by their numbers. -/
abbrev Heap (J V : Type*) := List (Cell J V)

/-- A new promise. -/
def make (h : Heap J V) : Heap J V × ℕ := (h ++ [.pending []], h.length)

/-- A continuation waits for a promise, or it is given away where that is settled. -/
def subscribe (h : Heap J V) (p : ℕ) (j : J) : Heap J V × List (J × V) :=
  match h[p]? with
  | some (.pending reactions) => (h.set p (.pending (reactions ++ [j])), [])
  | some (.settled value) => (h, [(j, value)])
  | none => (h, [])

/-- A pending promise is settled, and its continuations are given away. -/
def settle (h : Heap J V) (p : ℕ) (value : V) : Heap J V × List (J × V) :=
  match h[p]? with
  | some (.pending reactions) => (h.set p (.settled value), reactions.map fun j => (j, value))
  | _ => (h, [])

/-! ### One promise -/

variable {h : Heap J V} {p q : ℕ} {j : J} {value : V} {waiting : List J}

theorem subscribe_of_pending (hp : h[p]? = some (.pending waiting)) :
    subscribe h p j = (h.set p (.pending (waiting ++ [j])), []) := by
  rw [subscribe, hp]

theorem subscribe_of_settled (hp : h[p]? = some (.settled value)) :
    subscribe h p j = (h, [(j, value)]) := by
  rw [subscribe, hp]

theorem settle_of_pending (hp : h[p]? = some (.pending waiting)) :
    settle h p value = (h.set p (.settled value), waiting.map fun j => (j, value)) := by
  rw [settle, hp]

section

variable {before after : Heap J V}

theorem getElem?_at (hp : before.length = p) (cell : Cell J V) :
    (before ++ cell :: after)[p]? = some cell := by
  subst hp
  simp

theorem set_at (hp : before.length = p) (cell cell' : Cell J V) :
    (before ++ cell :: after).set p cell' = before ++ cell' :: after := by
  subst hp
  simp

/-- One more continuation waits. -/
theorem subscribe_at (hp : before.length = p) :
    subscribe (before ++ .pending waiting :: after) p j =
      (before ++ .pending (waiting ++ [j]) :: after, []) := by
  rw [subscribe_of_pending (getElem?_at hp _), set_at hp]

theorem subscribe_at_settled (hp : before.length = p) :
    subscribe (before ++ .settled value :: after) p j =
      (before ++ .settled value :: after, [(j, value)]) :=
  subscribe_of_settled (getElem?_at hp _)

/-- The continuations of one promise are given away. -/
theorem settle_at (hp : before.length = p) :
    settle (before ++ .pending waiting :: after) p value =
      (before ++ .settled value :: after, waiting.map fun j => (j, value)) := by
  rw [settle_of_pending (getElem?_at hp _), set_at hp]

end

@[simp] theorem length_subscribe : (subscribe h p j).1.length = h.length := by
  unfold subscribe
  split <;> simp

@[simp] theorem length_settle : (settle h p value).1.length = h.length := by
  unfold settle
  split <;> simp

/-- A settled promise stays settled, with its value. -/
theorem settled_of_mem_subscribe (hmem : .settled value ∈ (subscribe h p j).1) :
    .settled value ∈ h := by
  unfold subscribe at hmem
  split at hmem
  · rcases List.mem_or_eq_of_mem_set hmem with hmem | heq
    · exact hmem
    · cases heq
  · exact hmem
  · exact hmem

theorem settled_of_mem_settle {value' : V} (hmem : .settled value' ∈ (settle h p value).1) :
    .settled value' ∈ h ∨ value' = value := by
  unfold settle at hmem
  split at hmem
  · rcases List.mem_or_eq_of_mem_set hmem with hmem | heq
    · exact Or.inl hmem
    · exact Or.inr (Cell.settled.inj heq)
  · exact Or.inl hmem

/-- What is given away has the value of the promise. -/
theorem value_of_mem_settle {given : J × V} (hmem : given ∈ (settle h p value).2) :
    given.2 = value := by
  unfold settle at hmem
  split at hmem
  · obtain ⟨j, -, rfl⟩ := List.mem_map.mp hmem
    rfl
  · cases hmem

theorem of_mem_subscribe {given : J × V} (hmem : given ∈ (subscribe h p j).2) :
    given.1 = j ∧ .settled given.2 ∈ h := by
  unfold subscribe at hmem
  split at hmem
  · cases hmem
  · next hp =>
    obtain rfl := List.mem_singleton.mp hmem
    exact ⟨rfl, List.mem_of_getElem? hp⟩
  · cases hmem

/-! ### The promises that are pending -/

/-- Whether a promise is pending. -/
def Cell.isPending : Cell J V → Bool
  | .pending _ => true
  | .settled _ => false

/-- How many promises are pending. -/
def pendingCount (h : Heap J V) : ℕ := h.countP Cell.isPending

theorem pendingCount_subscribe : pendingCount (subscribe h p j).1 = pendingCount h := by
  unfold subscribe
  split
  · next waiting hp =>
    obtain ⟨hlt, hcell⟩ := List.getElem?_eq_some_iff.mp hp
    have hpos : 0 < h.countP Cell.isPending :=
      List.countP_pos_iff.mpr ⟨_, List.mem_of_getElem? hp, rfl⟩
    simp only [pendingCount, List.countP_set hlt, hcell, Cell.isPending, if_true]
    omega
  · rfl
  · rfl

theorem pendingCount_settle (hp : h[p]? = some (.pending waiting)) :
    pendingCount (settle h p value).1 + 1 = pendingCount h := by
  obtain ⟨hlt, hcell⟩ := List.getElem?_eq_some_iff.mp hp
  have hpos : 0 < h.countP Cell.isPending :=
    List.countP_pos_iff.mpr ⟨_, List.mem_of_getElem? hp, rfl⟩
  rw [settle_of_pending hp]
  simp only [pendingCount, List.countP_set hlt, hcell, Cell.isPending, if_true,
    Bool.false_eq_true, if_false]
  omega

/-! ### The continuations that wait -/

/-- What waits for a promise. -/
def Cell.reactions : Cell J V → List J
  | .pending reactions => reactions
  | .settled _ => []

/-- The continuations that wait. -/
def reactions (h : Heap J V) : List J := h.flatMap Cell.reactions

@[simp] theorem reactions_append (h h' : Heap J V) :
    reactions (h ++ h') = reactions h ++ reactions h' := List.flatMap_append

theorem reactions_eq_nil (hsettled : ∀ cell ∈ h, cell.isPending = false) : reactions h = [] := by
  refine List.flatMap_eq_nil_iff.mpr fun cell hcell => ?_
  cases cell with
  | pending waiting => exact absurd (hsettled _ hcell) (by simp [Cell.isPending])
  | settled value => rfl

theorem reactions_make : reactions (make h).1 = reactions h := by
  rw [make, reactions_append]
  exact List.append_nil _

/-- One promise is replaced. -/
theorem perm_reactions_set {cell : Cell J V} (hp : h[p]? = some cell) (cell' : Cell J V) :
    (reactions (h.set p cell') ++ cell.reactions).Perm (reactions h ++ cell'.reactions) := by
  obtain ⟨hlt, rfl⟩ := List.getElem?_eq_some_iff.mp hp
  have hsplit : h = h.take p ++ h[p] :: h.drop (p + 1) := by
    rw [← List.drop_eq_getElem_cons hlt, List.take_append_drop]
  have hold : reactions h =
      reactions (h.take p) ++ (h[p].reactions ++ reactions (h.drop (p + 1))) := by
    conv_lhs => rw [hsplit]
    exact reactions_append _ _
  have hnew : reactions (h.set p cell') =
      reactions (h.take p) ++ (cell'.reactions ++ reactions (h.drop (p + 1))) := by
    rw [List.set_eq_take_append_cons_drop, if_pos hlt]
    exact reactions_append _ _
  rw [hnew, hold, ← Multiset.coe_eq_coe]
  simp only [← Multiset.coe_add]
  abel

/-- **No continuation is lost, and none is given away twice**: one more waits, or is given away. -/
theorem perm_subscribe (hp : p < h.length) (j : J) :
    (reactions (subscribe h p j).1 ++ (subscribe h p j).2.map Prod.fst).Perm
      (reactions h ++ [j]) := by
  obtain ⟨cell, hcell⟩ : ∃ cell, h[p]? = some cell := ⟨_, List.getElem?_eq_getElem hp⟩
  cases cell with
  | settled value => rw [subscribe_of_settled hcell]; exact List.Perm.refl _
  | pending waiting =>
    rw [subscribe_of_pending hcell]
    have hset := perm_reactions_set hcell (.pending (waiting ++ [j]))
    rw [← Multiset.coe_eq_coe] at hset ⊢
    simp only [Cell.reactions, ← Multiset.coe_add, List.map_nil, List.append_nil] at hset ⊢
    rw [← add_assoc, add_right_comm] at hset
    exact add_right_cancel hset

theorem length_reactions_subscribe_le :
    (reactions (subscribe h p j).1).length + (subscribe h p j).2.length ≤
      (reactions h).length + 1 := by
  rcases Nat.lt_or_ge p h.length with hlt | hge
  · have hlength := (perm_subscribe hlt j).length_eq
    simp only [List.length_append, List.length_map, List.length_singleton] at hlength
    exact hlength.le
  · rw [subscribe, List.getElem?_eq_none hge]
    exact Nat.le_succ _

/-- **No continuation is lost, and none is given away twice**: those of the promise are. -/
theorem perm_settle (h : Heap J V) (p : ℕ) (value : V) :
    (reactions (settle h p value).1 ++ (settle h p value).2.map Prod.fst).Perm (reactions h) := by
  unfold settle
  split
  · next waiting hcell =>
    have hset := perm_reactions_set hcell (.settled value)
    have hmap : (waiting.map fun j => (j, value)).map Prod.fst = waiting := by
      rw [List.map_map]
      exact List.map_id _
    rw [hmap]
    rwa [Cell.reactions, Cell.reactions, List.append_nil] at hset
  · rw [List.map_nil, List.append_nil]

end Promise
