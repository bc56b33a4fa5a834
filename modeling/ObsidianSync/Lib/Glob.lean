import Mathlib.Data.List.Basic

/-!
# Glob patterns

A glob is a word of tokens: a letter, any one letter of a class, or any number of letters
of a class.  Matching goes through the tokens, and what is left of the text has to pass a
test of its own.

## Main definitions

* `Glob.Token` — a letter, one of a class, many of a class.
* `Glob.manyThen p rest` — letters of the class `p`, and then a text that passes `rest`.
* `Glob.accepts rest tokens` — the tokens, and then a text that passes `rest`.

## Main results

* `Glob.manyThen_iff` — `manyThen` by the splits of the text.
* `Glob.accepts_append` — tokens one after the other.
* `Glob.accepts_iff_matches` — what the tokens match, and what is left.
* `Glob.accepts_lits` — letters match themselves.
-/

namespace Glob

variable {α : Type*}

/-- A token of a pattern: a letter, any one letter, or any number of letters. -/
inductive Token (α : Type*)
  | lit (a : α)
  | one (p : α → Bool)
  | many (p : α → Bool)

/-- Letters of a class, and then a text that passes the test. -/
def manyThen (p : α → Bool) (rest : List α → Bool) : List α → Bool
  | [] => rest []
  | a :: s => rest (a :: s) || (p a && manyThen p rest s)

variable [DecidableEq α]

/-- A text the tokens match a start of, the rest of which passes the test. -/
def accepts (rest : List α → Bool) : List (Token α) → List α → Bool
  | [], s => rest s
  | .lit _ :: _, [] => false
  | .lit a :: tokens, b :: s => b = a && accepts rest tokens s
  | .one _ :: _, [] => false
  | .one p :: tokens, b :: s => p b && accepts rest tokens s
  | .many p :: tokens, s => manyThen p (accepts rest tokens) s

@[simp] theorem accepts_nil (rest : List α → Bool) (s : List α) : accepts rest [] s = rest s := rfl

@[simp] theorem accepts_lit_cons (rest : List α → Bool) (a b : α) (tokens : List (Token α))
    (s : List α) :
    accepts rest (.lit a :: tokens) (b :: s) = (decide (b = a) && accepts rest tokens s) := rfl

@[simp] theorem accepts_many (rest : List α → Bool) (p : α → Bool) (tokens : List (Token α))
    (s : List α) :
    accepts rest (.many p :: tokens) s = manyThen p (accepts rest tokens) s := by
  cases s <;> rfl

omit [DecidableEq α] in
/-- The letters of the class are a start of the text. -/
theorem manyThen_iff {p : α → Bool} {rest : List α → Bool} {s : List α} :
    manyThen p rest s = true ↔ ∃ u v, s = u ++ v ∧ (∀ a ∈ u, p a = true) ∧ rest v = true := by
  induction s with
  | nil => simp [manyThen]
  | cons a s ih =>
    rw [manyThen, Bool.or_eq_true, Bool.and_eq_true, ih]
    constructor
    · rintro (hrest | ⟨ha, u, v, rfl, hu, hv⟩)
      · exact ⟨[], a :: s, rfl, by simp, hrest⟩
      · exact ⟨a :: u, v, rfl, by simpa using ⟨ha, hu⟩, hv⟩
    · rintro ⟨u, v, hs, hu, hv⟩
      cases u with
      | nil =>
        left
        rw [hs]
        exact hv
      | cons b u =>
        obtain ⟨rfl, rfl⟩ := List.cons.inj hs
        exact Or.inr ⟨hu a List.mem_cons_self, u, v, rfl,
          fun b hb => hu b (List.mem_cons_of_mem _ hb), hv⟩

theorem accepts_append (rest : List α → Bool) (tokens tokens' : List (Token α)) (s : List α) :
    accepts rest (tokens ++ tokens') s = accepts (accepts rest tokens') tokens s := by
  induction tokens generalizing s with
  | nil => rfl
  | cons token tokens ih =>
    cases token with
    | lit a | one p =>
      cases s with
      | nil => rfl
      | cons b s => simp only [List.cons_append, accepts, ih]
    | many p =>
      have hsame : accepts rest (tokens ++ tokens') = accepts (accepts rest tokens') tokens :=
        funext ih
      rw [List.cons_append, accepts_many, accepts_many, hsame]

/-- The tokens match the whole of the text. -/
def Matches (tokens : List (Token α)) (s : List α) : Prop := accepts List.isEmpty tokens s = true

instance (tokens : List (Token α)) (s : List α) : Decidable (Matches tokens s) :=
  inferInstanceAs (Decidable (_ = _))

/-- A token of one letter, before tokens that match a start of the text. -/
theorem accepts_iff_matches_of_letter {token : Token α} {tokens : List (Token α)} {p : α → Bool}
    (hnil : ∀ rest, accepts rest (token :: tokens) [] = false)
    (hcons : ∀ rest b s, accepts rest (token :: tokens) (b :: s) = (p b && accepts rest tokens s))
    {rest : List α → Bool}
    (ih : ∀ s, accepts rest tokens s = true ↔
      ∃ u v, s = u ++ v ∧ Matches tokens u ∧ rest v = true) (s : List α) :
    accepts rest (token :: tokens) s = true ↔
      ∃ u v, s = u ++ v ∧ Matches (token :: tokens) u ∧ rest v = true := by
  unfold Matches
  cases s with
  | nil =>
    rw [hnil]
    refine iff_of_false Bool.false_ne_true fun ⟨u, v, hs, hu, _⟩ => ?_
    rw [(List.append_eq_nil_iff.mp hs.symm).1, hnil] at hu
    exact Bool.false_ne_true hu
  | cons b s =>
    rw [hcons, Bool.and_eq_true, ih]
    constructor
    · rintro ⟨hb, u, v, rfl, hu, hv⟩
      refine ⟨b :: u, v, rfl, ?_, hv⟩
      rw [hcons, hb]
      exact hu
    · rintro ⟨u, v, hs, hu, hv⟩
      cases u with
      | nil =>
        rw [hnil] at hu
        exact absurd hu Bool.false_ne_true
      | cons c u =>
        obtain ⟨rfl, rfl⟩ := List.cons.inj hs
        rw [hcons, Bool.and_eq_true] at hu
        exact ⟨hu.1, u, v, rfl, hu.2, hv⟩

/-- The tokens match a start of the text, and what is left passes the test. -/
theorem accepts_iff_matches {rest : List α → Bool} {tokens : List (Token α)} {s : List α} :
    accepts rest tokens s = true ↔ ∃ u v, s = u ++ v ∧ Matches tokens u ∧ rest v = true := by
  induction tokens generalizing s with
  | nil =>
    constructor
    · exact fun h => ⟨[], s, rfl, rfl, h⟩
    · rintro ⟨u, v, rfl, hu, hv⟩
      rw [List.isEmpty_iff.mp hu]
      exact hv
  | cons token tokens ih =>
    cases token with
    | lit a =>
      exact accepts_iff_matches_of_letter (fun _ => rfl) (fun _ _ _ => rfl) (fun _ => ih) s
    | one p =>
      exact accepts_iff_matches_of_letter (fun _ => rfl) (fun _ _ _ => rfl) (fun _ => ih) s
    | many p =>
      unfold Matches
      rw [accepts_many, manyThen_iff]
      constructor
      · rintro ⟨w, s', rfl, hw, hs'⟩
        obtain ⟨u, v, rfl, hu, hv⟩ := ih.mp hs'
        refine ⟨w ++ u, v, (List.append_assoc _ _ _).symm, ?_, hv⟩
        rw [accepts_many]
        exact manyThen_iff.mpr ⟨w, u, rfl, hw, hu⟩
      · rintro ⟨u, v, rfl, hu, hv⟩
        rw [accepts_many, manyThen_iff] at hu
        obtain ⟨w, u', rfl, hw, hu'⟩ := hu
        exact ⟨w, u' ++ v, List.append_assoc _ _ _, hw, ih.mpr ⟨u', v, rfl, hu', hv⟩⟩

/-- Letters match themselves. -/
theorem accepts_lits {rest : List α → Bool} {u s : List α} :
    accepts rest (u.map .lit) s = true ↔ ∃ v, s = u ++ v ∧ rest v = true := by
  induction u generalizing s with
  | nil => simp
  | cons a u ih =>
    cases s with
    | nil => simp [accepts]
    | cons b s =>
      rw [List.map_cons, accepts_lit_cons, Bool.and_eq_true, decide_eq_true_eq, ih]
      constructor
      · rintro ⟨rfl, v, rfl, hv⟩
        exact ⟨v, rfl, hv⟩
      · rintro ⟨v, hs, hv⟩
        obtain ⟨rfl, rfl⟩ := List.cons.inj hs
        exact ⟨rfl, v, rfl, hv⟩

end Glob
