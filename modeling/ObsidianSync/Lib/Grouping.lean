import Mathlib.Data.List.Induction
import ObsidianSync.Lib.Table

/-!
# Grouping by a key

The items of a list are put into groups, one item after the other: an item goes to the
end of the group of its key, which is opened if there is none.

## Main definitions

* `Grouping.add` — an item is put into its group.
* `Grouping.groupBy` — the groups of a list.

## Main results

* `Grouping.mem_groupBy_iff` — the group of a key has the items of that key in the order
  of the list.
* `Grouping.perm_groupBy` — the groups have each item of the list once.
-/

namespace Grouping

variable {α κ : Type*} [DecidableEq κ]

/-- Groups under their keys, in the order in which they were opened. -/
abbrev Groups (α κ : Type*) [DecidableEq κ] := Table (Prod.fst : κ × List α → κ)

/-- The group of a key. -/
def group (groups : Groups α κ) (k : κ) : List α := (groups.get? k).elim [] Prod.snd

variable (key : α → κ)

/-- An item joins the group of its key. -/
def add (groups : Groups α κ) (a : α) : Groups α κ :=
  groups.set (key a, group groups (key a) ++ [a])

/-- The items in groups by their keys. -/
def groupBy (items : List α) : Groups α κ := items.foldl (add key) Table.empty

theorem groupBy_concat (items : List α) (a : α) :
    groupBy key (items ++ [a]) = add key (groupBy key items) a := List.foldl_concat ..

/-- A group is the items of its key. -/
theorem group_groupBy (items : List α) (k : κ) :
    group (groupBy key items) k = items.filter fun a => key a = k := by
  induction items using List.reverseRecOn with
  | nil => rfl
  | append_singleton items a ih =>
    rw [groupBy_concat, group, add, Table.get?_set, List.filter_append, ← ih]
    by_cases hkey : key a = k
    · subst hkey
      simp
    · simp [hkey, group]

/-- **A key has the group of its items**, if there are any. -/
theorem mem_groupBy_iff {items : List α} {k : κ} {rows : List α} :
    (k, rows) ∈ (groupBy key items).rows ↔
      rows ≠ [] ∧ rows = items.filter fun a => key a = k := by
  induction items using List.reverseRecOn generalizing k rows with
  | nil => simp [groupBy]
  | append_singleton items a ih =>
    rw [groupBy_concat, add, Table.mem_set_iff, List.filter_append, ih, group_groupBy]
    by_cases hkey : key a = k
    · subst hkey
      simp only [List.filter_singleton, decide_true, true_and, Prod.mk.injEq, ne_eq,
        not_true_eq_false, and_false, or_false]
      exact ⟨fun h => ⟨by simp [h], h⟩, And.right⟩
    · have hne : ¬k = key a := fun h => hkey h.symm
      simp [hkey, hne]

/-- A longer group in place of a shorter one. -/
theorem perm_setRows {groups : List (κ × List α)} {k : κ} {rows : List α} (a : α)
    (hkeys : (groups.map Prod.fst).Nodup) (h : (k, rows) ∈ groups) :
    ((Table.setRows Prod.fst (k, rows ++ [a]) groups).flatMap Prod.snd).Perm
      (groups.flatMap Prod.snd ++ [a]) := by
  induction groups with
  | nil => cases h
  | cons first groups ih =>
    rw [List.map_cons, List.nodup_cons] at hkeys
    rcases List.mem_cons.mp h with rfl | h
    · simp only [Table.setRows, if_true, List.flatMap_cons, List.append_assoc]
      exact List.perm_append_comm.append_left rows
    · have hne : first.1 ≠ k := fun hk => hkeys.1 (hk ▸ List.mem_map_of_mem h)
      simp only [Table.setRows, hne, if_false, List.flatMap_cons, List.append_assoc]
      exact (ih hkeys.2 h).append_left _

/-- **No item is lost or doubled.** -/
theorem perm_groupBy (items : List α) :
    ((groupBy key items).rows.flatMap Prod.snd).Perm items := by
  induction items using List.reverseRecOn with
  | nil => simp [groupBy]
  | append_singleton items a ih =>
    refine List.Perm.trans ?_ (ih.append_right [a])
    rw [groupBy_concat, add]
    cases hgroup : (groupBy key items).get? (key a) with
    | none =>
      have hfresh := Table.setRows_of_fresh (a := (key a, [a])) (Table.get?_eq_none_iff.mp hgroup)
      simp only [group, hgroup, Table.set, Option.elim_none, List.nil_append, hfresh]
      simp
    | some pair =>
      obtain ⟨k, rows⟩ := pair
      have hk : k = key a := Table.key_of_get? hgroup
      subst hk
      rw [group, hgroup]
      exact perm_setRows a (groupBy key items).nodup (Table.mem_of_get? hgroup)

end Grouping
