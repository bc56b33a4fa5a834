import ObsidianSync.Client.YjsSession
import ObsidianSync.Lib.MergeLaws
import ObsidianSync.Shared.Canonical

/-!
# Merging by lines

`threeWayMerge` aligns the lines of each side with those of the base, by the table of the
lengths of common subsequences, and merges the regions between the lines that both kept.

## Main definitions

* `lcsTable`, `lcsWalk`, `lcsPairs` — the table, the walk through it, and the pairs.
* `IsLongest` — a longest common subsequence.
* `LosesNothing` — the lines that a merge keeps.

## Main results

* `isLongest_lcsPairs` — **the pairs are a longest common subsequence.**
* `threeWayMerge_laws` — a side without edits gives way, equal sides are the merge, and the
  sides may be swapped.
* `losesNothing_threeWayMerge` — **the merge loses no line.**
-/

namespace ObsidianSync

/-! ### The table -/

/-- A row of `dp`, from the row below it, the last element first. -/
def lcsRow (x : String) : List ℕ → List String → List ℕ
  | _, [] => [0]
  | next, y :: b =>
    let row := lcsRow x next.tail b
    (if x = y then next.tail.headD 0 + 1 else max (next.headD 0) (row.headD 0)) :: row

/-- `dp`: the rows, the last one first. -/
def lcsTable (b : List String) : List String → List (List ℕ)
  | [] => [List.replicate (b.length + 1) 0]
  | x :: a =>
    let table := lcsTable b a
    lcsRow x (table.headD []) b :: table

/-- `dp[i][j]`. -/
def entry (dp : List (List ℕ)) (i j : ℕ) : ℕ := (dp.getD i []).getD j 0

/-- The loop that collects the pairs. -/
def lcsWalk (a b : List String) (dp : List (List ℕ)) (i j : ℕ) : List (ℕ × ℕ) :=
  if h : i < a.length ∧ j < b.length then
    if a[i] = b[j] then (i, j) :: lcsWalk a b dp (i + 1) (j + 1)
    else if entry dp (i + 1) j ≥ entry dp i (j + 1) then lcsWalk a b dp (i + 1) j
    else lcsWalk a b dp i (j + 1)
  else []
termination_by a.length - i + (b.length - j)

/-- A longest common subsequence of two texts, as pairs of line numbers. -/
def lcsPairs (a b : List String) : List (ℕ × ℕ) := lcsWalk a b (lcsTable b a) 0 0

/-! ### The pairs -/

/-- A row has the lengths for the rests of the list. -/
theorem getD_lcsRow {x : String} {next : List ℕ} {b : List String} {f : List String → ℕ}
    (hnext : ∀ j, next.getD j 0 = f (b.drop j)) (j : ℕ) :
    (lcsRow x next b).getD j 0 = Merge.lcsRow x f (b.drop j) := by
  induction b generalizing next j with
  | nil => cases j <;> simp [lcsRow, Merge.lcsRow]
  | cons y b ih =>
    have htail : ∀ j, next.tail.getD j 0 = f (b.drop j) := by
      intro j
      have h := hnext (j + 1)
      cases next with
      | nil => simpa using h
      | cons n next => simpa using h
    cases j with
    | succ j => exact ih htail j
    | zero =>
      have hhead : next.headD 0 = f (y :: b) := by
        have h := hnext 0
        cases next <;> simpa using h
      have htailHead : next.tail.headD 0 = f b := by
        have h := htail 0
        cases hn : next.tail <;> simpa [hn] using h
      have hrow : (lcsRow x next.tail b).headD 0 = Merge.lcsRow x f b := by
        have h := ih htail 0
        cases hr : lcsRow x next.tail b <;> simpa [hr] using h
      simp only [lcsRow, List.getD_cons_zero, List.drop_zero, Merge.lcsRow, hhead, htailHead, hrow]

/-- **The entries of the table.** -/
theorem entry_lcsTable (a b : List String) {i : ℕ} (h : i ≤ a.length) (j : ℕ) :
    entry (lcsTable b a) i j = Merge.lcsLength (a.drop i) (b.drop j) := by
  induction a generalizing i j with
  | nil =>
    obtain rfl : i = 0 := Nat.le_zero.mp h
    simp only [entry, lcsTable, List.getD_cons_zero, List.drop_nil, Merge.lcsLength]
    rw [List.getD_eq_getElem?_getD, List.getElem?_replicate]
    split <;> rfl
  | cons x a ih =>
    cases i with
    | succ i => exact ih (Nat.le_of_succ_le_succ h) j
    | zero =>
      have hnext : ∀ j, ((lcsTable b a).headD []).getD j 0 = Merge.lcsLength a (b.drop j) := by
        intro j
        have h := ih (Nat.zero_le _) j
        cases htable : lcsTable b a <;> simpa [entry, htable] using h
      exact getD_lcsRow hnext j

/-- The walk from two positions on. -/
theorem lcsWalk_eq (a b : List String) {i j : ℕ} (hi : i ≤ a.length) (hj : j ≤ b.length) :
    lcsWalk a b (lcsTable b a) i j = Merge.lcsPairsFrom i (a.drop i) j (b.drop j) := by
  induction hn : a.length - i + (b.length - j) using Nat.strong_induction_on generalizing i j with
  | _ n ih =>
    rw [lcsWalk]
    split
    · next h =>
      have hi' := entry_lcsTable a b (i := i + 1) h.1 j
      have hj' := entry_lcsTable a b (i := i) hi (j + 1)
      rw [hi', hj', ih _ (by omega) (Nat.succ_le_of_lt h.1) (Nat.succ_le_of_lt h.2) rfl,
        ih _ (by omega) (Nat.succ_le_of_lt h.1) hj rfl,
        ih _ (by omega) hi (Nat.succ_le_of_lt h.2) rfl,
        List.drop_eq_getElem_cons h.1, List.drop_eq_getElem_cons h.2]
      rfl
    · next h =>
      rcases Nat.lt_or_ge i a.length with hlt | hge
      · rw [List.drop_eq_nil_of_le (Nat.le_of_not_lt fun hlt' => h ⟨hlt, hlt'⟩),
          List.drop_eq_getElem_cons hlt]
        rfl
      · rw [List.drop_eq_nil_of_le hge]
        rfl

/-- The pairs are those of the walk through the recurrence. -/
theorem lcsPairs_eq (a b : List String) : lcsPairs a b = Merge.lcsPairs a b :=
  lcsWalk_eq a b (Nat.zero_le _) (Nat.zero_le _)

/-- The pairs go up on both sides, within the lists, and each is of equal lines; and no common
subsequence has more lines. -/
structure IsLongest (a b : List String) (pairs : List (ℕ × ℕ)) : Prop where
  ascending : pairs.Pairwise fun p q => p.1 < q.1 ∧ p.2 < q.2
  bounds : ∀ p ∈ pairs, p.1 < a.length ∧ p.2 < b.length
  equal : ∀ p ∈ pairs, a[p.1]? = b[p.2]?
  longest : ∀ c : List String, c.Sublist a → c.Sublist b → c.length ≤ pairs.length

/-- **The pairs are a longest common subsequence**, and those of a list and itself are of equal
positions. -/
theorem isLongest_lcsPairs (a b : List String) :
    IsLongest a b (lcsPairs a b) ∧
      lcsPairs a a = (List.range a.length).map fun k => (k, k) := by
  rw [lcsPairs_eq, lcsPairs_eq, List.range_eq_range']
  have halign := Merge.alignment_lcsPairs a b
  refine ⟨⟨halign.ascending, fun p hp => ?_, fun p hp => ?_, fun c ha hb => ?_⟩,
    Merge.lcsPairsFrom_self 0 a⟩
  · obtain ⟨x, ha, hb⟩ := halign.equal p hp
    exact ⟨(List.getElem?_eq_some_iff.mp ha).1, (List.getElem?_eq_some_iff.mp hb).1⟩
  · obtain ⟨x, ha, hb⟩ := halign.equal p hp
    rw [ha, hb]
  · rw [Merge.length_lcsPairs]
    exact Merge.le_lcsLength ha hb

/-! ### The laws -/

/-- **The laws of the merge**: a side without edits gives way, equal sides are the merge, and the
sides may be swapped. -/
theorem threeWayMerge_laws (base ours theirs : String) :
    threeWayMerge base ours base = ⟨ours, false⟩ ∧
      threeWayMerge base base theirs = ⟨theirs, false⟩ ∧
      threeWayMerge base ours ours = ⟨ours, false⟩ ∧
      (threeWayMerge base theirs ours).conflict = (threeWayMerge base ours theirs).conflict ∧
      ((threeWayMerge base ours theirs).conflict = false →
        (threeWayMerge base theirs ours).text = (threeWayMerge base ours theirs).text) := by
  have hswap : ∀ ours theirs : List String,
      (Merge.merge conflictLines (splitLines base) theirs ours).2 =
          (Merge.merge conflictLines (splitLines base) ours theirs).2 ∧
        ((Merge.merge conflictLines (splitLines base) ours theirs).2 = false →
          (Merge.merge conflictLines (splitLines base) theirs ours).1 =
            (Merge.merge conflictLines (splitLines base) ours theirs).1) := by
    intro ours theirs
    rw [← Merge.merge_swap conflictLines _ ours theirs]
    exact Merge.merge_conflict conflictLines
  have hright : ∀ side : List String,
      (Merge.merge conflictLines (splitLines base) side (splitLines base)).2 = false := fun _ =>
    Merge.merge_right_base_flag
  refine ⟨?_, ?_, ?_, (hswap _ _).1, fun h => congrArg joinLines ((hswap _ _).2 h)⟩
  · rw [MergeResult.mk.injEq]
    exact ⟨threeWayMerge_right_base base ours, hright _⟩
  · rw [MergeResult.mk.injEq]
    exact ⟨threeWayMerge_left_base base theirs, (hswap _ _).1.trans (hright _)⟩
  · simp [threeWayMerge, Merge.merge_self]

/-! ### Nothing is lost -/

theorem splitLines_joinLines {lines : List String} (hne : lines ≠ [])
    (h : ∀ line ∈ lines, '\n' ∉ line.toList) : splitLines (joinLines lines) = lines := by
  have hsplit : (['\n'].intercalate (lines.map String.toList)).splitOn '\n' =
      lines.map String.toList :=
    List.splitOn_intercalate '\n' (List.forall_mem_map.mpr h) (by simpa using hne)
  rw [splitLines, joinLines, String.toList_ofList, hsplit]
  simp

theorem splitLines_ne_nil (text : String) : splitLines text ≠ [] := by
  simp [splitLines, List.splitOn_ne_nil]

theorem not_mem_of_mem_splitLines {text line : String} (h : line ∈ splitLines text) :
    '\n' ∉ line.toList := by
  obtain ⟨part, hpart, rfl⟩ := List.mem_map.mp h
  rw [String.toList_ofList]
  exact not_mem_of_mem_splitOn hpart

theorem mem_conflictLines {ours theirs : List String} {line : String}
    (h : line ∈ conflictLines ours theirs) : line ∈ ours ∨ line ∈ theirs ∨
      line ∈ ["<<<<<<< local", "=======", ">>>>>>> server"] := by
  simp only [conflictLines, List.cons_append, List.append_assoc, List.mem_cons,
    List.mem_append] at h ⊢
  grind

/-- A region of the merge: one of its sides, or both of them between the markers. -/
def MergedRegion (region : Merge.Region String) (piece : List String × Bool) : Prop :=
  (piece.2 = false ∧ (piece.1 = region.ours ∨ piece.1 = region.theirs)) ∨
    (piece.2 = true ∧ piece.1 = conflictLines region.ours region.theirs)

/-- The lines of both sides that a merge has: those that are not matched to a line of the base, and
those of the base that are matched on both sides; and what is between these. -/
structure LosesNothing (base ours theirs : List String) (out : List String) (conflict : Bool) :
    Prop where
  ours_kept : (Merge.unmatchedFrom (lcsPairs base ours) 0 ours).Sublist out
  theirs_kept : (Merge.unmatchedFrom (lcsPairs base theirs) 0 theirs).Sublist out
  common_kept : (Merge.commonElements base ours theirs).Sublist out
  regions : ∃ pieces : List (List String × Bool),
    List.Forall₂ MergedRegion (Merge.regions base ours theirs) pieces ∧
      out = Merge.weave (pieces.map Prod.fst) (Merge.commonElements base ours theirs) ∧
      conflict = pieces.any Prod.snd
  no_others : conflict = false → ∀ line ∈ out, line ∈ ours ∨ line ∈ theirs

theorem mem_commonElements {base ours theirs : List String} {line : String}
    (h : line ∈ Merge.commonElements base ours theirs) : line ∈ base ∧ line ∈ ours := by
  obtain ⟨anchor, hanchor, hline⟩ := List.mem_filterMap.mp h
  obtain ⟨x, hbase, hours⟩ := Merge.getElem?_of_mem_lcsPairs (Merge.mem_commonAnchors hanchor).1
  obtain rfl : x = line := Option.some.inj (hbase.symm.trans hline)
  exact ⟨List.mem_of_getElem? hbase, List.mem_of_getElem? hours⟩

theorem losesNothing_merge (base ours theirs : List String) :
    LosesNothing base ours theirs (Merge.merge conflictLines base ours theirs).1
      (Merge.merge conflictLines base ours theirs).2 := by
  have heq := Merge.merge_eq conflictLines base ours theirs
  have hours : ∀ o t : List String, o.Sublist (conflictLines o t) := fun o t =>
    ((List.sublist_append_left o _).trans (List.sublist_append_left _ _)).cons _
  have htheirs : ∀ o t : List String, t.Sublist (conflictLines o t) := fun o t =>
    (((List.sublist_cons_self "=======" t).trans (List.sublist_append_right _ _))).trans
      (List.sublist_append_left _ _)
  have hlength : (Merge.commonElements base ours theirs).length ≤
      ((Merge.regions base ours theirs).map fun region =>
        (region.merge conflictLines).1).length := by
    rw [List.length_map, Merge.regions, Merge.length_regionsFrom]
    exact Nat.le_succ_of_le (List.length_filterMap_le _ _)
  refine ⟨?_, ?_, ?_, ⟨(Merge.regions base ours theirs).map (Merge.Region.merge conflictLines),
    ?_, ?_, ?_⟩, fun hclean line hline => ?_⟩
  · rw [lcsPairs_eq]
    exact Merge.unmatched_sublist_merge base ours theirs hours
  · rw [lcsPairs_eq, ← Merge.merge_swap]
    exact Merge.unmatched_sublist_merge base theirs ours fun o t => htheirs t o
  · rw [heq]
    exact Merge.sublist_weave hlength
  · rw [List.forall₂_map_right_iff, List.forall₂_same]
    exact fun region _ => region.merge_cases conflictLines
  · rw [heq, List.map_map]
    rfl
  · rw [heq, List.any_map]
    rfl
  · rw [heq] at hclean hline
    rcases Merge.mem_weave hline with hcommon | ⟨piece, hpiece, hline⟩
    · exact Or.inl (mem_commonElements hcommon).2
    obtain ⟨region, hregion, rfl⟩ := List.mem_map.mp hpiece
    obtain ⟨hsubOurs, hsubTheirs⟩ := Merge.of_mem_regionsFrom hregion
    rcases region.merge_cases conflictLines with ⟨-, hside | hside⟩ | ⟨hflag, -⟩
    · exact Or.inl (hsubOurs (hside ▸ hline))
    · exact Or.inr (hsubTheirs (hside ▸ hline))
    · exact absurd hflag (List.any_eq_false.mp hclean region hregion)

/-- The lines of a merge have no line feed. -/
theorem not_mem_of_mem_merge (baseText oursText theirsText : String) {line : String}
    (h : line ∈ (Merge.merge conflictLines (splitLines baseText) (splitLines oursText)
      (splitLines theirsText)).1) : '\n' ∉ line.toList := by
  rw [Merge.merge_eq] at h
  rcases Merge.mem_weave h with hcommon | ⟨piece, hpiece, hline⟩
  · exact not_mem_of_mem_splitLines (mem_commonElements hcommon).1
  obtain ⟨region, hregion, rfl⟩ := List.mem_map.mp hpiece
  obtain ⟨hsubOurs, hsubTheirs⟩ := Merge.of_mem_regionsFrom hregion
  rcases region.merge_cases conflictLines with ⟨-, hside | hside⟩ | ⟨-, hboth⟩
  · exact not_mem_of_mem_splitLines (hsubOurs (hside ▸ hline))
  · exact not_mem_of_mem_splitLines (hsubTheirs (hside ▸ hline))
  rw [hboth] at hline
  rcases mem_conflictLines hline with h | h | h
  · exact not_mem_of_mem_splitLines (hsubOurs h)
  · exact not_mem_of_mem_splitLines (hsubTheirs h)
  · have hmarkers : ∀ marker ∈ ["<<<<<<< local", "=======", ">>>>>>> server"],
        '\n' ∉ marker.toList := by decide
    exact hmarkers line h

/-- **The merge loses nothing**, by the lines of the merged text. -/
theorem losesNothing_threeWayMerge (baseText oursText theirsText : String) :
    LosesNothing (splitLines baseText) (splitLines oursText) (splitLines theirsText)
      (splitLines (threeWayMerge baseText oursText theirsText).text)
      (threeWayMerge baseText oursText theirsText).conflict := by
  have hne : (Merge.merge conflictLines (splitLines baseText) (splitLines oursText)
      (splitLines theirsText)).1 ≠ [] :=
    Merge.merge_ne_nil (splitLines_ne_nil oursText) (splitLines_ne_nil theirsText)
      fun _ _ => List.cons_ne_nil _ _
  have hlines := splitLines_joinLines hne fun _ => not_mem_of_mem_merge _ _ _
  have h := losesNothing_merge (splitLines baseText) (splitLines oursText) (splitLines theirsText)
  rwa [← hlines] at h

end ObsidianSync
