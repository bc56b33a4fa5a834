import Mathlib.Data.List.MinMax
import Mathlib.Data.List.Nodup
import Mathlib.Data.List.Perm.Basic

/-!
# Last-writer-wins registers

A register holds a value; every value carries a stamp, and a write takes effect
if its stamp is above the one held.  Where no two writes have the same stamp,
the writes commute, so the value in the end is the one with the greatest stamp,
whatever the order.

## Main definitions

* `Register.write` — one write.
* `Register.latest` — the first value of greatest stamp.

## Main results

* `Register.foldl_write_eq_latest` — a list of writes leaves the latest value.
* `Register.foldl_write_perm` — writes with distinct stamps may be reordered.
-/

namespace Register

variable {α β : Type*} [LinearOrder β] (stamp : α → β)

/-- The value held after a write. -/
def write (held written : α) : α := if stamp held < stamp written then written else held

/-- The first of the values of greatest stamp. -/
def latest (values : List α) : Option α := values.argmax stamp

variable {stamp}

theorem write_of_lt {held written : α} (h : stamp held < stamp written) :
    write stamp held written = written :=
  if_pos h

theorem write_of_le {held written : α} (h : stamp written ≤ stamp held) :
    write stamp held written = held :=
  if_neg (not_lt.mpr h)

/-- Two writes with distinct stamps may be exchanged. -/
theorem write_right_comm {held a b : α} (h : stamp a ≠ stamp b) :
    write stamp (write stamp held a) b = write stamp (write stamp held b) a := by
  rcases lt_or_gt_of_ne h with hab | hba
  · rcases lt_or_ge (stamp held) (stamp a) with ha | ha
    · rw [write_of_lt ha, write_of_lt hab, write_of_lt (ha.trans hab), write_of_le hab.le]
    · rw [write_of_le ha]
      rcases lt_or_ge (stamp held) (stamp b) with hb | hb
      · rw [write_of_lt hb, write_of_le hab.le]
      · rw [write_of_le hb, write_of_le ha]
  · rcases lt_or_ge (stamp held) (stamp b) with hb | hb
    · rw [write_of_lt hb, write_of_lt hba, write_of_lt (hb.trans hba), write_of_le hba.le]
    · rw [write_of_le hb]
      rcases lt_or_ge (stamp held) (stamp a) with ha | ha
      · rw [write_of_lt ha, write_of_le hba.le]
      · rw [write_of_le ha, write_of_le hb]

/-- A list of writes leaves the latest value. -/
theorem foldl_write_eq_latest (held : α) (writes : List α) :
    some (writes.foldl (write stamp) held) = latest stamp (held :: writes) := by
  unfold latest
  induction writes using List.reverseRecOn with
  | nil => rfl
  | append_singleton writes last ih =>
    rw [List.foldl_append, ← List.cons_append, List.argmax_concat, ← ih, List.foldl_cons,
      List.foldl_nil]
    by_cases hlt : stamp (writes.foldl (write stamp) held) < stamp last
    · simp only [write_of_lt hlt, if_pos hlt]
    · simp only [write_of_le (not_lt.mp hlt), if_neg hlt]

/-- Writes with pairwise distinct stamps may be reordered. -/
theorem foldl_write_perm (held : α) {writes order : List α} (hperm : order.Perm writes)
    (hdistinct : (writes.map stamp).Nodup) :
    order.foldl (write stamp) held = writes.foldl (write stamp) held := by
  refine (List.Perm.foldl_eq' hperm.symm ?_ held).symm
  intro a ha b hb held
  by_cases hab : stamp a = stamp b
  · rw [List.inj_on_of_nodup_map hdistinct ha hb hab]
  · exact write_right_comm hab

end Register
