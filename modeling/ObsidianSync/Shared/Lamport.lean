import Mathlib.Data.List.Lex
import Mathlib.Data.Prod.Lex
import ObsidianSync.Shared.Platform

/-!
# Lamport path clocks

The path of a file is a last-writer-wins register: a rename carries a Lamport
timestamp and a device id, and the larger pair wins.

## Main definitions

* `PathClock`, `comparePathClock`, `pathClockWins` — the register's order.
* `nextLamport` — the timestamp of a local rename.
* `PathClock.rank` — the place of a clock in a linear order.

## Main results

* `pathClockWins_iff_rank_lt` — a clock wins exactly if its rank is the larger one.
-/

namespace ObsidianSync

/-- The clock a rename carries. -/
structure PathClock where
  lamport : ℕ
  deviceId : String
  deriving DecidableEq, Repr

/-- `local = max(seen) + 1`. -/
def nextLamport (observedMax : ℕ) : ℕ := increment observedMax

/-- Positive if `a` wins over `b`, negative if `b` wins, 0 if identical. -/
def comparePathClock (a b : PathClock) : ℤ :=
  if a.lamport ≠ b.lamport then (a.lamport : ℤ) - b.lamport
  else if a.deviceId = b.deviceId then 0
  else if utf16Lt b.deviceId a.deviceId then 1
  else -1

/-- Whether `candidate` wins over `current`. -/
def pathClockWins (candidate current : PathClock) : Bool :=
  decide (comparePathClock candidate current > 0)

/-- No string is below itself. -/
theorem utf16Lt_self (a : String) : utf16Lt a a = false := by
  simp [utf16Lt]

/-- A clock wins by its timestamp, or by its device where the timestamps are the same. -/
theorem pathClockWins_iff {a b : PathClock} :
    pathClockWins a b = true ↔
      b.lamport < a.lamport ∨ b.lamport = a.lamport ∧ utf16Lt b.deviceId a.deviceId = true := by
  unfold pathClockWins comparePathClock
  by_cases hlamport : a.lamport = b.lamport
  · rw [if_neg (not_not.mpr hlamport)]
    by_cases hdevice : a.deviceId = b.deviceId
    · simp [hdevice, utf16Lt_self, hlamport]
    · cases utf16Lt b.deviceId a.deviceId <;> simp [hdevice, hlamport]
  · rw [if_pos hlamport, decide_eq_true_eq]
    omega

/-! ### Ranks -/

theorem toNat_not_surrogate (c : Char) :
    c.toNat < 0xD800 ∨ 0xDFFF < c.toNat ∧ c.toNat < 0x110000 := c.valid

/-- The code units of a text determine it. -/
theorem flatMap_utf16Units_injective :
    Function.Injective fun cs : List Char => cs.flatMap utf16Units := by
  intro cs ds h
  induction cs generalizing ds with
  | nil =>
    cases ds with
    | nil => rfl
    | cons d ds =>
      simp only [List.flatMap_nil, List.flatMap_cons, utf16Units] at h
      split at h <;> simp at h
  | cons c cs ih =>
    cases ds with
    | nil =>
      simp only [List.flatMap_nil, List.flatMap_cons, utf16Units] at h
      split at h <;> simp at h
    | cons d ds =>
      have hc := toNat_not_surrogate c
      have hd := toNat_not_surrogate d
      simp only [List.flatMap_cons, utf16Units] at h
      have hsplit : c.toNat = d.toNat ∧ cs.flatMap utf16Units = ds.flatMap utf16Units := by
        -- a lone unit is never the first of a pair
        split at h <;> split at h <;>
          simp only [List.cons_append, List.nil_append, List.cons.injEq] at h
        · exact h
        · omega
        · omega
        · exact ⟨by omega, h.2.2⟩
      rw [ih hsplit.2, Char.toNat_inj.mp hsplit.1]

/-- The rank of a clock: its timestamp, then its device. -/
def PathClock.rank (clock : PathClock) : ℕ ×ₗ List ℕ :=
  toLex (clock.lamport, clock.deviceId.toList.flatMap utf16Units)

theorem PathClock.rank_injective : Function.Injective PathClock.rank := by
  intro a b h
  have hpair := Prod.mk.inj (toLex.injective h)
  have hdevice : a.deviceId.toList = b.deviceId.toList := flatMap_utf16Units_injective hpair.2
  obtain ⟨lamport, deviceId⟩ := a
  obtain ⟨lamport', deviceId'⟩ := b
  rw [PathClock.mk.injEq]
  exact ⟨hpair.1, String.toList_inj.mp hdevice⟩

/-- A clock wins exactly if its rank is the larger one: the order is strict and total. -/
theorem pathClockWins_iff_rank_lt {a b : PathClock} :
    pathClockWins a b = true ↔ b.rank < a.rank := by
  rw [pathClockWins_iff, PathClock.rank, PathClock.rank, Prod.Lex.toLex_lt_toLex, utf16Lt,
    decide_eq_true_eq]

end ObsidianSync
