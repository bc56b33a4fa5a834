import ObsidianSync.Server.Renames
import ObsidianSync.Server.StoredPaths

/-!
# The path that a file gets

`uniquePath` looks a candidate up, and makes the next one only then: with the
counter of the round before it.  Where the live files of the vault have folded
paths of their own, a lookup finds the file itself exactly if no other one has
the path, and so the result is the first path that no other file has.

## Main definitions

* `CaseLaws` — what is used of `toLowerCase`.
* `Unclaimed` — no other live file has the folded path.

## Main results

* `suffixPath_toLowerCase_inj` — suffixes with different counters stay different.
* `uniquePath_allocates` — **the path is the first one that no other file has.**
-/

namespace ObsidianSync

/-! ### Suffixes -/

/-- Characters without case, whose neighbours are folded as if each stood alone. -/
def caselessChars : List Char := [' ', '(', ')', '0', '1', '2', '3', '4', '5', '6', '7', '8', '9']

/-- What is used of `toLowerCase`. -/
structure CaseLaws (P : Platform) : Prop where
  empty : P.toLowerCase "" = ""
  separate : ∀ a b, ∀ c ∈ caselessChars,
    P.toLowerCase (a ++ String.singleton c ++ b) =
      P.toLowerCase a ++ String.singleton c ++ P.toLowerCase b

theorem mem_caselessChars_of_mem_counter {n : ℕ} {c : Char} (h : c ∈ counter n) :
    c ∈ caselessChars := by
  have hdigits : ∀ d ∈ ['0', '1', '2', '3', '4', '5', '6', '7', '8', '9'],
      d ∈ caselessChars := by decide
  simp only [counter, List.mem_cons, List.mem_append, List.not_mem_nil, or_false] at h
  rcases h with rfl | rfl | hnumber | rfl
  · decide
  · decide
  · exact hdigits c (mem_digits_of_mem_toString hnumber)
  · decide

theorem counter_injective : Function.Injective counter := by
  intro m n h
  have hdigits : (toString m).toList ++ [')'] = (toString n).toList ++ [')'] :=
    (List.cons.inj (List.cons.inj h).2).2
  have htext : Nat.toDigits 10 m = Nat.toDigits 10 n := by
    rw [Nat.toString_eq_ofList_toDigits, Nat.toString_eq_ofList_toDigits, String.toList_ofList,
      String.toList_ofList] at hdigits
    exact List.append_cancel_right hdigits
  have hvalue := congrArg (fun digits => Nat.ofDigitChars 10 digits 0) htext
  simpa only [Nat.ofDigitChars_toDigits (b := 10) (by decide) (by decide)] using hvalue

/-- **A suffixed path, by its text**: the counter stands between two parts of it. -/
theorem exists_suffixPath_eq (path : String) :
    ∃ before after : String, ∀ n,
      suffixPath path n = before ++ String.ofList (counter n) ++ after := by
  have hcounter : ∀ n, " (" ++ toString n ++ ")" = String.ofList (counter n) := fun n =>
    String.toList_inj.mp (by simp [counter])
  have hjoin : ∃ front, ∀ name, joinPath (splitPath path).1 name = front ++ name := by
    by_cases hdir : (splitPath path).1 = ""
    · exact ⟨"", fun name => (if_pos hdir).trans (String.empty_append).symm⟩
    · exact ⟨_, fun name => if_neg hdir⟩
  obtain ⟨front, hfront⟩ := hjoin
  refine ⟨front ++ String.ofList ((splitPath path).2.toList.take
    ((splitPath path).2.toList.length - (extname (splitPath path).2).toList.length)),
    extname (splitPath path).2, fun n => ?_⟩
  rw [suffixPath, hfront, ← hcounter]
  simp only [String.append_assoc]

section

variable {P : Platform}

theorem toLowerCase_caseless (laws : CaseLaws P) {text : List Char}
    (h : ∀ c ∈ text, c ∈ caselessChars) (after : String) :
    P.toLowerCase (String.ofList text ++ after) = String.ofList text ++ P.toLowerCase after := by
  induction text with
  | nil => rw [String.ofList_nil, String.empty_append, String.empty_append]
  | cons c text ih =>
    have hfirst : ∀ rest : String, String.ofList (c :: text) ++ rest =
        "" ++ String.singleton c ++ (String.ofList text ++ rest) := fun rest =>
      String.toList_inj.mp (by simp)
    rw [hfirst, laws.separate _ _ c (h c List.mem_cons_self),
      ih fun d hd => h d (List.mem_cons_of_mem c hd), laws.empty, hfirst]

theorem toLowerCase_counter (laws : CaseLaws P) (before after : String) (n : ℕ) :
    P.toLowerCase (before ++ String.ofList (counter n) ++ after) =
      P.toLowerCase before ++ String.ofList (counter n) ++ P.toLowerCase after := by
  have hrest : ∀ c ∈ '(' :: ((toString n).toList ++ [')']), c ∈ caselessChars := fun c hc =>
    mem_caselessChars_of_mem_counter (n := n) (List.mem_cons_of_mem _ hc)
  have hfirst : ∀ front back : String, front ++ String.ofList (counter n) ++ back =
      front ++ String.singleton ' ' ++
        (String.ofList ('(' :: ((toString n).toList ++ [')'])) ++ back) := fun front back =>
    String.toList_inj.mp (by simp [counter])
  rw [hfirst, laws.separate _ _ ' ' (by decide), toLowerCase_caseless laws hrest, hfirst]

/-- **Suffixes with different counters stay different** when they are folded. -/
theorem suffixPath_toLowerCase_inj (laws : CaseLaws P) {path : String} {m n : ℕ}
    (h : P.toLowerCase (suffixPath path m) = P.toLowerCase (suffixPath path n)) : m = n := by
  obtain ⟨before, after, hform⟩ := exists_suffixPath_eq path
  rw [hform, hform, toLowerCase_counter laws, toLowerCase_counter laws] at h
  have htexts := congrArg String.toList h
  simp only [String.toList_append, String.toList_ofList] at htexts
  exact counter_injective (List.append_cancel_left (List.append_cancel_right htexts))

/-! ### Lookups -/

/-- The live files of the vault have folded paths of their own. -/
def DistinctLivePaths (s : Store) (vaultId : String) : Prop :=
  ∀ f ∈ s.files.rows, ∀ g ∈ s.files.rows, LiveFile vaultId f → LiveFile vaultId g →
    f.pathNormalized = g.pathNormalized → f = g

instance (s : Store) (vaultId : String) : Decidable (DistinctLivePaths s vaultId) :=
  inferInstanceAs (Decidable (∀ _ ∈ _, _))

/-- No other live file of the vault has the folded path. -/
def Unclaimed (P : Platform) (s : Store) (vaultId path fileId : String) : Prop :=
  ∀ file ∈ s.files.rows, LiveFile vaultId file → file.pathNormalized = P.toLowerCase path →
    file.fileId = fileId

instance (P : Platform) (s : Store) (vaultId path fileId : String) :
    Decidable (Unclaimed P s vaultId path fileId) :=
  inferInstanceAs (Decidable (∀ _ ∈ _, _))

variable {s : Store} {vaultId desired fileId : String}

/-- A lookup finds no other file exactly if there is none. -/
theorem pathFree_iff_unclaimed (h : DistinctLivePaths s vaultId) {path : String} :
    PathFree P s vaultId path fileId ↔ Unclaimed P s vaultId path fileId := by
  constructor
  · intro hfree file hmem hlive hpath
    cases hfind : s.findLiveFileByPath vaultId (P.toLowerCase path) with
    | none => exact absurd hpath (Store.findLiveFileByPath_eq_none_iff.mp hfind file hmem hlive)
    | some found =>
      obtain ⟨hfound, hfoundLive, hfoundPath⟩ := Store.of_findLiveFileByPath hfind
      rw [h file hmem found hfound hlive hfoundLive (hpath.trans hfoundPath.symm)]
      exact hfree found hfind
  · intro hunclaimed found hfind
    obtain ⟨hfound, hlive, hpath⟩ := Store.of_findLiveFileByPath hfind
    exact hunclaimed found hfound hlive hpath

/-- Where all rounds fail, each of the candidates is taken. -/
theorem taken_of_uniquePathFrom_error {fuel n : ℕ} {candidate : String} {e : Failure}
    (h : uniquePathFrom P s vaultId desired fileId (fuel + 1) n candidate = .error e) :
    ¬ PathFree P s vaultId candidate fileId ∧
      ∀ k, n ≤ k → k < n + fuel → ¬ PathFree P s vaultId (suffixPath desired k) fileId := by
  induction fuel generalizing n candidate with
  | zero =>
    refine ⟨fun hfree => ?_, fun k hk hk' => absurd hk (Nat.not_le.mpr hk')⟩
    rw [uniquePathFrom] at h
    split at h
    · cases h
    · next hfind => rw [if_pos (hfree _ hfind)] at h; cases h
  | succ fuel ih =>
    rw [uniquePathFrom] at h
    split at h
    · cases h
    next found hfind =>
    split at h
    · cases h
    next hother =>
    obtain ⟨htaken, hlater⟩ := ih h
    refine ⟨fun hfree => hother (hfree found hfind), fun k hk hk' => ?_⟩
    rcases Nat.eq_or_lt_of_le hk with rfl | hlt
    · exact htaken
    · exact hlater k hlt (by omega)

/-- **The path is the first one that no other file has**: the desired one, or the one with the
least counter; there is none only if all that are tried are taken. -/
theorem uniquePath_allocates (laws : CaseLaws P) (hdistinct : DistinctLivePaths s vaultId)
    (desired fileId : String) :
    (Unclaimed P s vaultId desired fileId →
        uniquePath P s vaultId desired fileId = .ok desired) ∧
      (∀ path, uniquePath P s vaultId desired fileId = .ok path →
        Unclaimed P s vaultId path fileId ∧
          (¬ Unclaimed P s vaultId desired fileId → ∃ n, 2 ≤ n ∧ path = suffixPath desired n ∧
            ∀ m < n, 2 ≤ m → ¬ Unclaimed P s vaultId (suffixPath desired m) fileId)) ∧
      (∀ m n, m ≠ n →
        P.toLowerCase (suffixPath desired m) ≠ P.toLowerCase (suffixPath desired n)) ∧
      (∀ e, uniquePath P s vaultId desired fileId = .error e →
        ¬ Unclaimed P s vaultId desired fileId ∧
          ∀ n, 2 ≤ n → n ≤ 9998 → ¬ Unclaimed P s vaultId (suffixPath desired n) fileId) := by
  have hfree : ∀ path, PathFree P s vaultId path fileId ↔ Unclaimed P s vaultId path fileId :=
    fun _ => pathFree_iff_unclaimed hdistinct
  refine ⟨fun h => uniquePath_of_pathFree ((hfree desired).mpr h), fun path h => ?_,
    fun m n hne h => hne (suffixPath_toLowerCase_inj laws h), fun e h => ?_⟩
  · rcases uniquePath_cases h with ⟨hdesired, rfl⟩ | ⟨-, n, ⟨hn, hpath, hbefore⟩, rfl⟩
    · exact ⟨(hfree path).mp hdesired, fun htaken => absurd ((hfree path).mp hdesired) htaken⟩
    · exact ⟨(hfree _).mp hpath, fun _ => ⟨n, hn, rfl, fun m hm hm' h =>
        hbefore m hm hm' ((hfree _).mpr h)⟩⟩
  · obtain ⟨htaken, hlater⟩ := @taken_of_uniquePathFrom_error _ _ _ _ _ 9997 _ _ _ h
    exact ⟨fun h => htaken ((hfree _).mpr h), fun n hn hn' h =>
      hlater n hn (by omega) ((hfree _).mpr h)⟩

end

theorem caseLaws_samplePlatform : CaseLaws samplePlatform where
  empty := rfl
  separate := fun a b c hc => by
    have hlower : c.toLower = c := by
      revert c
      decide
    refine String.toList_inj.mp ?_
    simp [samplePlatform, hlower]

theorem uniquePath_allocates_movableRow :
    DistinctLivePaths (sampleStore.saveFile movableRow) "v" ∧
      uniquePath samplePlatform (sampleStore.saveFile movableRow) "v" "A.md" "g" =
        .ok "A (2).md" ∧
      Unclaimed samplePlatform (sampleStore.saveFile movableRow) "v" "A (2).md" "g" := by
  have hdistinct : DistinctLivePaths (sampleStore.saveFile movableRow) "v" := by decide +kernel
  have hpath : uniquePath samplePlatform (sampleStore.saveFile movableRow) "v" "A.md" "g" =
      .ok "A (2).md" := by decide +kernel
  have h := uniquePath_allocates caseLaws_samplePlatform hdistinct "A.md" "g"
  exact ⟨hdistinct, hpath, (h.2.1 _ hpath).1⟩

end ObsidianSync
