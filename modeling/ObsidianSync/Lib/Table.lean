import Mathlib.Data.List.Nodup
import Mathlib.Data.List.Basic

/-!
# Keyed tables

A table is a list of rows whose keys are pairwise distinct, in insertion order:
writing a row replaces the one with its key in place, or appends it.  This is
the behaviour of a JavaScript `Map` whose values carry their own key, of a
record spread with one property overwritten, and of a database table with a
primary key.  The distinctness of the keys is a field, so every table there is
satisfies it.

## Main definitions

* `Table key` — rows of type `α`, keyed by `key : α → κ`.
* `Table.get?`, `Table.set`, `Table.erase`, `Table.deleteWhere` — lookup, insert-or-replace,
  delete by key and by a condition.

## Main results

* `Table.get?_eq_some_iff` — a lookup succeeds exactly on the rows of the table.
* `Table.get?_set` — what a lookup sees after a write.
* `Table.mem_set_iff`, `Table.countP_set` — the rows after a write.
-/

/-- Rows in insertion order whose keys are pairwise distinct. -/
structure Table {α κ : Type*} (key : α → κ) where
  /-- The rows, oldest first. -/
  rows : List α
  /-- No two rows share a key. -/
  nodup : (rows.map key).Nodup

namespace Table

variable {α κ : Type*} {key : α → κ}

@[ext] theorem ext {t u : Table key} (h : t.rows = u.rows) : t = u := by
  cases t; cases u; cases h; rfl

/-- The table without rows. -/
def empty : Table key := ⟨[], List.nodup_nil⟩

instance : Inhabited (Table key) := ⟨empty⟩

instance [DecidableEq α] : DecidableEq (Table key) := fun t u =>
  decidable_of_iff (t.rows = u.rows) ⟨ext, fun h => h ▸ rfl⟩

@[simp] theorem rows_empty : (empty : Table key).rows = [] := rfl

/-- Rows of a table are determined by their keys. -/
theorem eq_of_key_eq {t : Table key} {a b : α} (ha : a ∈ t.rows) (hb : b ∈ t.rows)
    (h : key a = key b) : a = b :=
  List.inj_on_of_nodup_map t.nodup ha hb h

/-! ### Changing rows in place -/

/-- Change every row by a function that keeps its key. -/
def mapRows (t : Table key) (f : α → α) (hf : ∀ a, key (f a) = key a) : Table key where
  rows := t.rows.map f
  nodup := by
    rw [List.map_map, show key ∘ f = key from funext hf]
    exact t.nodup

@[simp] theorem rows_mapRows (t : Table key) (f : α → α) (hf : ∀ a, key (f a) = key a) :
    (t.mapRows f hf).rows = t.rows.map f := rfl

variable [DecidableEq κ]

/-! ### Lookup -/

/-- The row with key `k`. -/
def get? (t : Table key) (k : κ) : Option α := t.rows.find? fun a => key a = k

@[simp] theorem get?_empty (k : κ) : (empty : Table key).get? k = none := rfl

theorem get?_eq_some_iff {t : Table key} {k : κ} {a : α} :
    t.get? k = some a ↔ a ∈ t.rows ∧ key a = k := by
  constructor
  · intro h
    exact ⟨List.mem_of_find?_eq_some h, by simpa using List.find?_some h⟩
  · rintro ⟨ha, rfl⟩
    cases hf : t.get? (key a) with
    | none =>
      have := List.find?_eq_none.mp hf a ha
      simp at this
    | some b =>
      have hb : b ∈ t.rows := List.mem_of_find?_eq_some hf
      have hk : key b = key a := by simpa using List.find?_some hf
      rw [eq_of_key_eq hb ha hk]

theorem get?_eq_none_iff {t : Table key} {k : κ} :
    t.get? k = none ↔ ∀ a ∈ t.rows, key a ≠ k := by
  simp [get?, List.find?_eq_none]

theorem key_of_get? {t : Table key} {k : κ} {a : α} (h : t.get? k = some a) : key a = k :=
  (get?_eq_some_iff.mp h).2

theorem mem_of_get? {t : Table key} {k : κ} {a : α} (h : t.get? k = some a) : a ∈ t.rows :=
  (get?_eq_some_iff.mp h).1

theorem get?_key {t : Table key} {a : α} (h : a ∈ t.rows) : t.get? (key a) = some a :=
  get?_eq_some_iff.mpr ⟨h, rfl⟩

/-! ### Writing a row -/

/-- The rows after `a` is written: in place of the row with its key, else last. -/
def setRows (key : α → κ) (a : α) : List α → List α
  | [] => [a]
  | b :: l => if key b = key a then a :: l else b :: setRows key a l

theorem map_key_setRows (a : α) (l : List α) :
    (setRows key a l).map key = if key a ∈ l.map key then l.map key else l.map key ++ [key a] := by
  induction l with
  | nil => simp [setRows]
  | cons b l ih =>
    by_cases h : key b = key a
    · simp [setRows, h]
    · have hne : key a ≠ key b := fun e => h e.symm
      simp only [setRows, h, if_false, List.map_cons, ih, List.mem_cons, hne, false_or]
      split <;> rfl

/-- Writing a row and changing the rows under their keys commute. -/
theorem map_setRows {f : α → α} (hf : ∀ a, key (f a) = key a) (a : α) (l : List α) :
    (setRows key a l).map f = setRows key (f a) (l.map f) := by
  induction l with
  | nil => rfl
  | cons b l ih =>
    by_cases h : key b = key a
    · simp [setRows, h, hf]
    · simp [setRows, h, hf, ih]

/-- So do writing a row and selecting rows by their keys. -/
theorem filter_setRows {p : α → Bool} (hp : ∀ a b, key a = key b → p a = p b) (a : α)
    (l : List α) :
    (setRows key a l).filter p = if p a then setRows key a (l.filter p) else l.filter p := by
  induction l with
  | nil => by_cases ha : p a = true <;> simp [setRows, ha]
  | cons b l ih =>
    by_cases h : key b = key a
    · have hb := hp b a h
      by_cases ha : p a = true <;> simp [setRows, h, hb, ha]
    · simp only [setRows, h, if_false, List.filter_cons, ih]
      by_cases ha : p a = true <;> by_cases hb : p b = true <;> simp [setRows, ha, hb, h]

/-- Writing a row that is there changes nothing. -/
theorem setRows_of_mem {a : α} {l : List α} (hl : (l.map key).Nodup) (ha : a ∈ l) :
    setRows key a l = l := by
  induction l with
  | nil => exact absurd ha List.not_mem_nil
  | cons b l ih =>
    rw [List.map_cons, List.nodup_cons] at hl
    rcases List.mem_cons.mp ha with rfl | ha
    · simp [setRows]
    · have hne : key b ≠ key a := fun h => hl.1 (h ▸ List.mem_map_of_mem ha)
      simp only [setRows, hne, if_false, ih hl.2 ha]

omit [DecidableEq κ] in
/-- A search that at most one row can answer may run from either end. -/
theorem find?_reverse {l : List α} {p : α → Bool}
    (h : ∀ a ∈ l, ∀ b ∈ l, p a = true → p b = true → a = b) :
    l.reverse.find? p = l.find? p := by
  cases hl : l.find? p with
  | none =>
    rw [List.find?_eq_none] at hl ⊢
    exact fun a ha => hl a (List.mem_reverse.mp ha)
  | some a =>
    cases hr : l.reverse.find? p with
    | none =>
      have hmem := List.mem_reverse.mpr (List.mem_of_find?_eq_some hl)
      exact absurd (List.find?_some hl) (List.find?_eq_none.mp hr a hmem)
    | some b =>
      have hmem := List.mem_reverse.mp (List.mem_of_find?_eq_some hr)
      rw [h b hmem a (List.mem_of_find?_eq_some hl) (List.find?_some hr) (List.find?_some hl)]

/-- Writing a row with a new key appends it. -/
theorem setRows_of_fresh {a : α} {l : List α} (h : ∀ b ∈ l, key b ≠ key a) :
    setRows key a l = l ++ [a] := by
  induction l with
  | nil => rfl
  | cons b l ih =>
    have hb := h b List.mem_cons_self
    simp only [setRows, hb, if_false, ih fun c hc => h c (List.mem_cons_of_mem b hc),
      List.cons_append]

/-- Under a second key that meets the rows where the first one does, a write is the
same. -/
theorem setRows_congr {κ' : Type*} [DecidableEq κ'] {key' : α → κ'} {a : α} {l : List α}
    (h : ∀ b ∈ l, key b = key a ↔ key' b = key' a) : setRows key a l = setRows key' a l := by
  induction l with
  | nil => rfl
  | cons b l ih =>
    have hb := h b List.mem_cons_self
    have hl := ih fun c hc => h c (List.mem_cons_of_mem b hc)
    by_cases hkey : key b = key a
    · simp [setRows, hkey, hb.mp hkey]
    · have hkey' : key' b ≠ key' a := fun e => hkey (hb.mpr e)
      simp [setRows, hkey, hkey', hl]

/-- Write the row `a`. -/
def set (t : Table key) (a : α) : Table key where
  rows := setRows key a t.rows
  nodup := by
    rw [map_key_setRows]
    split
    · exact t.nodup
    · next h => exact List.Nodup.append t.nodup (List.nodup_singleton _) (by simpa using h)

theorem mem_setRows {a b : α} {l : List α} (hl : (l.map key).Nodup) :
    b ∈ setRows key a l ↔ b = a ∨ (b ∈ l ∧ key b ≠ key a) := by
  induction l with
  | nil => simp [setRows]
  | cons c l ih =>
    rw [List.map_cons, List.nodup_cons] at hl
    by_cases h : key c = key a
    · have hne : ∀ x ∈ l, key x ≠ key a := fun x hx e =>
        hl.1 (List.mem_map.mpr ⟨x, hx, e.trans h.symm⟩)
      simp only [setRows, h, if_true, List.mem_cons]
      constructor
      · rintro (rfl | hb)
        · exact Or.inl rfl
        · exact Or.inr ⟨Or.inr hb, hne b hb⟩
      · rintro (rfl | ⟨rfl | hb, hk⟩)
        · exact Or.inl rfl
        · exact absurd h hk
        · exact Or.inr hb
    · simp only [setRows, h, if_false, List.mem_cons, ih hl.2]
      constructor
      · rintro (rfl | rfl | ⟨hb, hk⟩)
        · exact Or.inr ⟨Or.inl rfl, h⟩
        · exact Or.inl rfl
        · exact Or.inr ⟨Or.inr hb, hk⟩
      · rintro (rfl | ⟨rfl | hb, hk⟩)
        · exact Or.inr (Or.inl rfl)
        · exact Or.inl rfl
        · exact Or.inr (Or.inr ⟨hb, hk⟩)

theorem mem_set_iff {t : Table key} {a b : α} :
    b ∈ (t.set a).rows ↔ b = a ∨ (b ∈ t.rows ∧ key b ≠ key a) :=
  mem_setRows t.nodup

/-- What a lookup sees after a write. -/
theorem get?_set (t : Table key) (a : α) (k : κ) :
    (t.set a).get? k = if key a = k then some a else t.get? k := by
  split
  · next h => exact get?_eq_some_iff.mpr ⟨mem_set_iff.mpr (Or.inl rfl), h⟩
  · next h =>
    cases hg : t.get? k with
    | none =>
      rw [get?_eq_none_iff] at hg ⊢
      intro b hb
      rcases mem_set_iff.mp hb with rfl | ⟨hb, -⟩
      · exact h
      · exact hg b hb
    | some b =>
      rw [get?_eq_some_iff] at hg ⊢
      exact ⟨mem_set_iff.mpr (Or.inr ⟨hg.1, fun e => h (e.symm.trans hg.2)⟩), hg.2⟩

/-- Writing a row in place of another changes the number of rows of a kind by the two. -/
theorem countP_setRows {p : α → Bool} {a b : α} {l : List α} (hl : (l.map key).Nodup) (hb : b ∈ l)
    (hkey : key b = key a) :
    (setRows key a l).countP p + (if p b then 1 else 0)
      = l.countP p + if p a then 1 else 0 := by
  induction l with
  | nil => exact absurd hb List.not_mem_nil
  | cons c l ih =>
    rw [List.map_cons, List.nodup_cons] at hl
    by_cases h : key c = key a
    · have hcb : c = b := by
        rcases List.mem_cons.mp hb with rfl | hb
        · rfl
        · have hmem : key b ∈ l.map key := List.mem_map_of_mem hb
          exact absurd (h.trans hkey.symm ▸ hmem) hl.1
      subst hcb
      rw [setRows, if_pos h, List.countP_cons, List.countP_cons]
      omega
    · have hne : b ∈ l := by
        rcases List.mem_cons.mp hb with rfl | hb
        · exact absurd hkey h
        · exact hb
      have hrest := ih hl.2 hne
      rw [setRows, if_neg h, List.countP_cons, List.countP_cons]
      omega

theorem countP_set {t : Table key} {p : α → Bool} {a b : α} (h : t.get? (key a) = some b) :
    (t.set a).rows.countP p + (if p b then 1 else 0)
      = t.rows.countP p + if p a then 1 else 0 :=
  countP_setRows t.nodup (mem_of_get? h) (key_of_get? h)

@[simp] theorem get?_set_self (t : Table key) (a : α) : (t.set a).get? (key a) = some a := by
  rw [get?_set, if_pos rfl]

theorem get?_set_of_ne {t : Table key} {a : α} {k : κ} (h : key a ≠ k) :
    (t.set a).get? k = t.get? k := by
  rw [get?_set, if_neg h]

/-- Write each row of a list anew, or leave it: what a lookup sees then. -/
theorem get?_foldl_set {f : α → Option α} (hf : ∀ a b, f a = some b → key b = key a)
    {l : List α} (hl : (l.map key).Nodup) {t : Table key}
    (ht : ∀ a ∈ l, t.get? (key a) = some a) (k : κ) :
    (l.foldl (fun t a => (f a).elim t t.set) t).get? k
      = if ∃ a ∈ l, key a = k then (t.get? k).map fun a => (f a).getD a else t.get? k := by
  induction l generalizing t with
  | nil => simp
  | cons a l ih =>
    rw [List.map_cons, List.nodup_cons] at hl
    have hstep : ∀ k, ((f a).elim t t.set).get? k
        = if key a = k then some ((f a).getD a) else t.get? k := by
      intro k
      cases hfa : f a with
      | none =>
        by_cases hk : key a = k
        · simpa [hk] using hk ▸ ht a List.mem_cons_self
        · simp [hk]
      | some b => simp [get?_set, hf a b hfa]
    have hrest : ∀ b ∈ l, ((f a).elim t t.set).get? (key b) = some b := by
      intro b hb
      have hne : key a ≠ key b := by
        intro h
        apply hl.1
        rw [h]
        exact List.mem_map_of_mem hb
      rw [hstep, if_neg hne]
      exact ht b (List.mem_cons_of_mem a hb)
    rw [List.foldl_cons, ih hl.2 hrest, hstep]
    by_cases hk : key a = k
    · have hnone : ¬ ∃ b ∈ l, key b = k := by
        rintro ⟨b, hb, hkb⟩
        exact hl.1 (hk.trans hkb.symm ▸ List.mem_map_of_mem hb)
      have hta : t.get? k = some a := hk ▸ ht a List.mem_cons_self
      simp [hk, hnone, hta]
    · simp [hk]

/-- Write every row of a table anew, or leave it. -/
theorem get?_foldl_set_rows {f : α → Option α} (hf : ∀ a b, f a = some b → key b = key a)
    (t : Table key) (k : κ) :
    (t.rows.foldl (fun t a => (f a).elim t t.set) t).get? k
      = (t.get? k).map fun a => (f a).getD a := by
  rw [get?_foldl_set hf t.nodup fun a ha => get?_key ha]
  split
  · rfl
  · next h =>
    cases hg : t.get? k with
    | none => rfl
    | some a => exact absurd ⟨a, mem_of_get? hg, key_of_get? hg⟩ h

/-! ### Deleting a row -/

/-- Delete the row with key `k`, if there is one. -/
def erase (t : Table key) (k : κ) : Table key where
  rows := t.rows.filter fun a => key a ≠ k
  nodup := t.nodup.sublist (List.filter_sublist.map key)

theorem mem_erase_iff {t : Table key} {k : κ} {a : α} :
    a ∈ (t.erase k).rows ↔ a ∈ t.rows ∧ key a ≠ k := by
  simp [erase]

theorem get?_erase (t : Table key) (k k' : κ) :
    (t.erase k).get? k' = if k' = k then none else t.get? k' := by
  split
  · next h =>
    rw [get?_eq_none_iff]
    intro a ha
    rw [h]
    exact (mem_erase_iff.mp ha).2
  · next h =>
    cases hg : t.get? k' with
    | none =>
      rw [get?_eq_none_iff] at hg ⊢
      exact fun a ha => hg a (mem_erase_iff.mp ha).1
    | some a =>
      rw [get?_eq_some_iff] at hg ⊢
      exact ⟨mem_erase_iff.mpr ⟨hg.1, fun e => h (hg.2.symm.trans e)⟩, hg.2⟩

/-- Delete the rows that meet a condition. -/
def deleteWhere (t : Table key) (p : α → Bool) : Table key where
  rows := t.rows.filter fun a => !p a
  nodup := t.nodup.sublist (List.filter_sublist.map key)

omit [DecidableEq κ] in
theorem mem_deleteWhere_iff {t : Table key} {p : α → Bool} {a : α} :
    a ∈ (t.deleteWhere p).rows ↔ a ∈ t.rows ∧ p a = false := by
  simp [deleteWhere]

theorem get?_deleteWhere (t : Table key) (p : α → Bool) (k : κ) :
    (t.deleteWhere p).get? k = (t.get? k).filter fun a => !p a := by
  cases hg : t.get? k with
  | none =>
    rw [get?_eq_none_iff] at hg
    exact get?_eq_none_iff.mpr fun a ha => hg a (mem_deleteWhere_iff.mp ha).1
  | some a =>
    obtain ⟨hmem, hkey⟩ := get?_eq_some_iff.mp hg
    cases hp : p a with
    | false =>
      rw [Option.filter_some_pos (by rw [hp, Bool.not_false])]
      exact get?_eq_some_iff.mpr ⟨mem_deleteWhere_iff.mpr ⟨hmem, hp⟩, hkey⟩
    | true =>
      rw [Option.filter_some_neg (by rw [hp, Bool.not_true]), get?_eq_none_iff]
      intro b hb hsame
      obtain ⟨hrow, hkept⟩ := mem_deleteWhere_iff.mp hb
      rw [eq_of_key_eq hrow hmem (hsame.trans hkey.symm), hp] at hkept
      cases hkept

end Table
