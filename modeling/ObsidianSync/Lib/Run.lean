import Mathlib.Data.List.Basic

/-!
# Runs of a transition system

A system is a total step function from a state and an event to the next state;
a run feeds it a list of events.  Two predicates speak about all the moments of
a run: `Throughout P` says that every state the run reaches satisfies `P`, and
`EachStep C` that every event meets the condition `C` in the state it happens
in.  The rules below trade one for the other, so that a safety property of runs
comes down to facts about one step.

## Main definitions

* `Run.final step s es` — the state after the events `es`.
* `Run.Throughout step P s es` — `P` in every state reached, the first included.
* `Run.EachStep step C s es` — `C` at every step.
* `Run.Recorded`, `Run.recorded` — a state with the moments before it, and the step that
  keeps the record: for properties that say what happened earlier.

## Main results

* `Run.throughout_of_invariant` — an inductive invariant holds throughout.
* `Run.eachStep_of_invariant` — what an invariant says about steps.
* `Run.length_le_of_measure` — steps that make a measure smaller come to an end.
* `Run.rel_of_eachStep` — a preorder that every step follows relates all states of a run.
* `Run.throughout_iff_eachStep` — where a step keeps `P` exactly when `C`
  holds, a run keeps `P` exactly when all its steps meet `C`.
* `Run.throughout_iff_of_breaks` — the same where a step that does not meet `C` is the last
  good one.
-/

namespace Run

variable {σ ε : Type*} (step : σ → ε → σ)

/-- The state after the events of a run. -/
def final (s : σ) (es : List ε) : σ := es.foldl step s

/-- Every state reached satisfies `P`, the initial one included. -/
def Throughout (P : σ → Prop) : σ → List ε → Prop
  | s, [] => P s
  | s, e :: es => P s ∧ Throughout P (step s e) es

/-- Every event meets `C` in the state it happens in. -/
def EachStep (C : σ → ε → Prop) : σ → List ε → Prop
  | _, [] => True
  | s, e :: es => C s e ∧ EachStep C (step s e) es

@[simp] theorem final_nil (s : σ) : final step s [] = s := rfl

@[simp] theorem final_cons (s : σ) (e : ε) (es : List ε) :
    final step s (e :: es) = final step (step s e) es := rfl

theorem final_append (s : σ) (es fs : List ε) :
    final step s (es ++ fs) = final step (final step s es) fs :=
  List.foldl_append

variable {step}

instance decidableEachStep {C : σ → ε → Prop} [∀ s e, Decidable (C s e)] :
    ∀ (s : σ) (es : List ε), Decidable (EachStep step C s es)
  | _, [] => isTrue trivial
  | s, e :: es =>
    have := decidableEachStep (C := C) (step s e) es
    inferInstanceAs (Decidable (C s e ∧ EachStep step C (step s e) es))

theorem Throughout.initial {P : σ → Prop} {s : σ} {es : List ε}
    (h : Throughout step P s es) : P s := by
  cases es with
  | nil => exact h
  | cons e es => exact h.1

theorem Throughout.final {P : σ → Prop} {s : σ} {es : List ε}
    (h : Throughout step P s es) : P (final step s es) := by
  induction es generalizing s with
  | nil => exact h
  | cons e es ih => exact ih h.2

theorem Throughout.mono {P Q : σ → Prop} (hPQ : ∀ s, P s → Q s) {s : σ} {es : List ε}
    (h : Throughout step P s es) : Throughout step Q s es := by
  induction es generalizing s with
  | nil => exact hPQ s h
  | cons e es ih => exact ⟨hPQ s h.1, ih h.2⟩

theorem EachStep.mono {C D : σ → ε → Prop} (hCD : ∀ s e, C s e → D s e) {s : σ} {es : List ε}
    (h : EachStep step C s es) : EachStep step D s es := by
  induction es generalizing s with
  | nil => trivial
  | cons e es ih => exact ⟨hCD s e h.1, ih h.2⟩

theorem EachStep.and {C D : σ → ε → Prop} {s : σ} {es : List ε} (hC : EachStep step C s es)
    (hD : EachStep step D s es) : EachStep step (fun s e => C s e ∧ D s e) s es := by
  induction es generalizing s with
  | nil => trivial
  | cons e es ih => exact ⟨⟨hC.1, hD.1⟩, ih hC.2 hD.2⟩

/-- What every step does, the steps of a run do. -/
theorem eachStep_of_forall {C : σ → ε → Prop} (h : ∀ s e, C s e) (s : σ) (es : List ε) :
    EachStep step C s es := by
  induction es generalizing s with
  | nil => trivial
  | cons e es ih => exact ⟨h s e, ih (step s e)⟩

/-- The steps of a run are those of its two parts. -/
theorem eachStep_append {C : σ → ε → Prop} {s : σ} {es fs : List ε} :
    EachStep step C s (es ++ fs) ↔ EachStep step C s es ∧ EachStep step C (final step s es) fs := by
  induction es generalizing s with
  | nil => exact (true_and _).to_iff.symm
  | cons e es ih => rw [List.cons_append, EachStep, EachStep, final_cons, ih, and_assoc]

/-- An invariant kept by the steps that meet `C` holds throughout a run all of
whose steps do. -/
theorem throughout_of_invariant {I : σ → Prop} {C : σ → ε → Prop}
    (hstep : ∀ s e, I s → C s e → I (step s e)) {s : σ} {es : List ε}
    (hs : I s) (hC : EachStep step C s es) : Throughout step I s es := by
  induction es generalizing s with
  | nil => exact hs
  | cons e es ih => exact ⟨hs, ih (hstep s e hs hC.1) hC.2⟩

/-- Where an invariant and `C` make a step keep the invariant and meet `D`, the steps of
a run that all meet `C` all meet `D`. -/
theorem eachStep_of_invariant {I : σ → Prop} {C D : σ → ε → Prop}
    (hstep : ∀ s e, I s → C s e → I (step s e)) (hD : ∀ s e, I s → C s e → D s e) {s : σ}
    {es : List ε} (hs : I s) (hC : EachStep step C s es) : EachStep step D s es := by
  induction es generalizing s with
  | nil => trivial
  | cons e es ih => exact ⟨hD s e hs hC.1, ih (hstep s e hs hC.1) hC.2⟩

/-- Where two conditions on steps agree under an invariant that the steps meeting the first one
keep, they agree on runs.  `A` is what is assumed of every step. -/
theorem eachStep_iff_of_invariant {I : σ → Prop} {A C D : σ → ε → Prop}
    (hI : ∀ s e, I s → A s e → C s e → I (step s e)) (h : ∀ s e, I s → A s e → (C s e ↔ D s e))
    {s : σ} {es : List ε} (hs : I s) (hA : EachStep step A s es) :
    EachStep step C s es ↔ EachStep step D s es := by
  induction es generalizing s with
  | nil => exact Iff.rfl
  | cons e es ih =>
    rw [EachStep, EachStep, h s e hs hA.1]
    refine and_congr_right fun hd => ?_
    exact ih (hI s e hs hA.1 ((h s e hs hA.1).mpr hd)) hA.2

/-- A relation that every step keeps between the states of a run, and that is reflexive and
transitive, holds between any two of them. -/
theorem rel_of_eachStep {R : σ → σ → Prop} (hrefl : ∀ s, R s s)
    (htrans : ∀ {s t u}, R s t → R t u → R s u) {s : σ} {es : List ε}
    (h : EachStep step (fun s e => R s (step s e)) s es) :
    ∀ {i j : ℕ}, i ≤ j → R (final step s (es.take i)) (final step s (es.take j)) := by
  induction es generalizing s with
  | nil =>
    intro i j _
    simpa using hrefl s
  | cons e es ih =>
    have hstart : ∀ j, R s (final step s ((e :: es).take j)) := by
      intro j
      cases j with
      | zero => exact hrefl s
      | succ j => exact htrans h.1 (ih h.2 (Nat.zero_le j))
    intro i j hij
    cases i with
    | zero => exact hstart j
    | succ i =>
      cases j with
      | zero => omega
      | succ j => exact ih h.2 (Nat.le_of_succ_le_succ hij)

/-- Where the steps that meet `C` make a measure smaller, a run of such steps ends. -/
theorem length_le_of_measure {I : σ → Prop} {C : σ → ε → Prop} (μ : σ → ℕ)
    (hstep : ∀ s e, I s → I (step s e)) (hμ : ∀ s e, I s → C s e → μ (step s e) < μ s) {s : σ}
    {es : List ε} (hs : I s) (hC : EachStep step C s es) : es.length ≤ μ s := by
  induction es generalizing s with
  | nil => exact Nat.zero_le _
  | cons e es ih => exact Nat.lt_of_le_of_lt (ih (hstep s e hs) hC.2) (hμ s e hs hC.1)

/-- An invariant kept by every step holds throughout every run. -/
theorem throughout_of_step {I : σ → Prop} (hstep : ∀ s e, I s → I (step s e)) {s : σ}
    (hs : I s) (es : List ε) : Throughout step I s es := by
  induction es generalizing s with
  | nil => exact hs
  | cons e es ih => exact ⟨hs, ih (hstep s e hs)⟩

/-- **Exactness of a step condition.**  Where, under an invariant, a step keeps
`P` exactly when it meets `C`, a run keeps `P` exactly when every step meets
`C`. -/
theorem throughout_iff_eachStep {I P : σ → Prop} {C : σ → ε → Prop}
    (hI : ∀ s e, I s → I (step s e))
    (hstep : ∀ s e, I s → P s → (P (step s e) ↔ C s e)) {s : σ} (es : List ε)
    (hs : I s) (hP : P s) : Throughout step P s es ↔ EachStep step C s es := by
  induction es generalizing s with
  | nil => exact ⟨fun _ => trivial, fun _ => hP⟩
  | cons e es ih =>
    constructor
    · rintro ⟨-, h⟩
      have hP' := h.initial
      exact ⟨(hstep s e hs hP).mp hP', (ih (hI s e hs) hP').mp h⟩
    · rintro ⟨hc, h⟩
      have hP' := (hstep s e hs hP).mpr hc
      exact ⟨hP, (ih (hI s e hs) hP').mpr h⟩

/-- **Exactness up to the first bad step.**  Where a good state has `P`, the steps that meet
`C` lead from good states to good ones, and after the others `P` fails, a run from a good
state keeps `P` exactly when every step meets `C`.  `A` is what is assumed of every step. -/
theorem throughout_iff_of_breaks {G P : σ → Prop} {A C : σ → ε → Prop} (hP : ∀ s, G s → P s)
    (hstep : ∀ s e, G s → A s e → C s e → G (step s e))
    (hbreak : ∀ s e, G s → A s e → P (step s e) → C s e) {s : σ} {es : List ε} (hs : G s)
    (hA : EachStep step A s es) : Throughout step P s es ↔ EachStep step C s es := by
  induction es generalizing s with
  | nil => exact ⟨fun _ => trivial, fun _ => hP s hs⟩
  | cons e es ih =>
    constructor
    · rintro ⟨-, h⟩
      have hc := hbreak s e hs hA.1 h.initial
      exact ⟨hc, (ih (hstep s e hs hA.1 hc) hA.2).mp h⟩
    · rintro ⟨hc, h⟩
      exact ⟨hP s hs, (ih (hstep s e hs hA.1 hc) hA.2).mpr h⟩

/-! ### Runs with their past -/

/-- A state with the moments before it: each a state and the event that happened in it. -/
structure Recorded (σ ε : Type*) where
  state : σ
  past : List (σ × ε) := []

/-- A step that keeps the record. -/
def recorded (step : σ → ε → σ) (r : Recorded σ ε) (e : ε) : Recorded σ ε :=
  { state := step r.state e, past := r.past ++ [(r.state, e)] }

theorem mem_past_recorded {step : σ → ε → σ} {r : Recorded σ ε} {e : ε} {m : σ × ε} :
    m ∈ (recorded step r e).past ↔ m ∈ r.past ∨ m = (r.state, e) := by
  simp [recorded]

/-- Whatever was recorded stays recorded. -/
theorem past_subset_recorded (step : σ → ε → σ) (r : Recorded σ ε) (e : ε) :
    r.past ⊆ (recorded step r e).past :=
  fun _ hm => mem_past_recorded.mpr (Or.inl hm)

end Run
