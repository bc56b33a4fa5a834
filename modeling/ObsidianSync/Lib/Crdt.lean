import Mathlib.Data.Finset.Lattice.Fold
import Mathlib.Data.Finset.Lattice.Union
import Mathlib.Data.Prod.Lex
import Mathlib.Data.String.Basic
import Mathlib.Order.WithBot

/-!
# Replicated documents

A replicated document is what it holds: merging two is their join, and a new one
is the bottom element.  It has named roots, each with a text that depends on what
the document holds for that root only.  An update is a document too, the one that
holds just that update.

## Main definitions

* `Crdt` — documents with named roots, changes of a root's text, and differences.
* `writes` — the documents that are sets of writes, the last one to a root counts.

## Main results

* `Crdt.content_change_bot` — the text a change on a new document makes.
* `Crdt.sup_diff_of_le` — a replica that merges a difference catches up.
-/

/-- Documents with named roots, over a join-semilattice of what they hold. -/
structure Crdt (D : Type*) [SemilatticeSup D] [OrderBot D] where
  /-- What a document holds for a root. -/
  part : String → D → D
  /-- The text of a root. -/
  content : String → D → String
  /-- The update by which a client turns the text of a root into another one. -/
  change : ℕ → String → String → D → D
  /-- What the first document holds and the second one lacks. -/
  diff : D → D → D
  part_bot : ∀ name, part name ⊥ = ⊥
  part_sup : ∀ name d e, part name (d ⊔ e) = part name d ⊔ part name e
  content_bot : ∀ name, content name ⊥ = ""
  content_part : ∀ name d, content name (part name d) = content name d
  content_change : ∀ client name text d, content name (d ⊔ change client name text d) = text
  part_change_of_ne : ∀ client name text d other, other ≠ name →
    part other (change client name text d) = ⊥
  diff_le : ∀ d v, diff d v ≤ d
  sup_diff : ∀ d v, v ⊔ diff d v = v ⊔ d

namespace Crdt

variable {D : Type*} [SemilatticeSup D] [OrderBot D] {crdt : Crdt D}

/-- The text a change on a new document makes. -/
theorem content_change_bot (client : ℕ) (name text : String) :
    crdt.content name (crdt.change client name text ⊥) = text := by
  have h := crdt.content_change client name text ⊥
  rwa [bot_sup_eq] at h

/-- A replica that holds a part of a document has all of it after the difference. -/
theorem sup_diff_of_le {d v : D} (h : v ≤ d) : v ⊔ crdt.diff d v = d := by
  rw [crdt.sup_diff, sup_eq_right.mpr h]

theorem le_sup_diff (d v : D) : d ≤ v ⊔ crdt.diff d v :=
  le_sup_right.trans (crdt.sup_diff d v).ge

end Crdt

/-! ### Sets of writes -/

/-- A write to a root: its stamp, the client that wrote, and the text. -/
abbrev Write := String × (ℕ ×ₗ ℕ ×ₗ String)

namespace Write

/-- The last write to a root. -/
def last (name : String) (d : Finset Write) : WithBot (ℕ ×ₗ ℕ ×ₗ String) :=
  (d.filter fun write => write.1 = name).sup fun write => (write.2 : WithBot (ℕ ×ₗ ℕ ×ₗ String))

/-- The text of the last write, empty as long as nothing was written. -/
def text : WithBot (ℕ ×ₗ ℕ ×ₗ String) → String
  | none => ""
  | some entry => (ofLex (ofLex entry).2).2

/-- The write that comes after the last one. -/
def next (client : ℕ) (text : String) (last : WithBot (ℕ ×ₗ ℕ ×ₗ String)) : ℕ ×ₗ ℕ ×ₗ String :=
  match last with
  | none => toLex (0, toLex (client, text))
  | some entry => toLex ((ofLex entry).1 + 1, toLex (client, text))

theorem le_next (client : ℕ) (text : String) (last : WithBot (ℕ ×ₗ ℕ ×ₗ String)) :
    last ≤ (next client text last : ℕ ×ₗ ℕ ×ₗ String) := by
  cases last with
  | bot => exact bot_le
  | coe entry =>
    refine WithBot.coe_le_coe.mpr (le_of_lt ?_)
    exact Prod.Lex.toLex_lt_toLex.mpr (Or.inl (Nat.lt_succ_self _))

end Write

/-- The documents that are sets of writes, the last one to a root counts. -/
def writes : Crdt (Finset Write) where
  part name d := d.filter fun write => write.1 = name
  content name d := Write.text (Write.last name d)
  change client name text d := {(name, Write.next client text (Write.last name d))}
  diff d v := d \ v
  part_bot name := Finset.filter_empty _
  part_sup name d e := Finset.filter_union _ d e
  content_bot name := rfl
  content_part name d := by simp [Write.last, Finset.filter_filter]
  content_change client name text d := by
    have hlast : Write.last name (d ∪ {(name, Write.next client text (Write.last name d))})
        = (Write.next client text (Write.last name d) : ℕ ×ₗ ℕ ×ₗ String) := by
      rw [Write.last, Finset.filter_union, Finset.sup_union, ← Write.last,
        Finset.filter_singleton, if_pos rfl, Finset.sup_singleton]
      exact sup_eq_right.mpr (Write.le_next client text _)
    rw [Finset.sup_eq_union, hlast]
    cases Write.last name d <;> rfl
  part_change_of_ne client name text d other h := by
    rw [Finset.filter_singleton, if_neg fun heq => h heq.symm]
    rfl
  diff_le d v := Finset.sdiff_subset
  sup_diff d v := Finset.union_sdiff_self_eq_union

example : writes.content "a" (writes.change 1 "a" "one" ⊥ ⊔ writes.change 2 "a" "two" ⊥)
    = "two" := by decide
