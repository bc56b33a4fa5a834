import ObsidianSync.Client.Ignore
import ObsidianSync.Shared.Canonical

/-!
# Rules for folders

Only a rule with a slash at its end covers what is below the folder that its glob matches, and
there a dot of its regular expression stops at a line separator.  A rule without one matches
the folder itself and no path below it, whatever gitignore does.

## Main definitions

* `IgnoreRule.Globs` — the glob matches a text, or what is behind one of its slashes.
* `IgnoreRule.ReachesBelow` — the glob matches below a folder.
* `FolderCovered` — the paths below an ignored folder that are ignored.

## Main results

* `IgnoreRule.test_below_iff` — what a rule tests below a folder.
* `ignores_below_iff` — **the ignored folders below which all is ignored.**
-/

namespace ObsidianSync

/-! ### One rule -/

namespace IgnoreRule

/-- The glob matches the text, or without a slash in it what is behind one of the text. -/
def Globs (rule : IgnoreRule) (text : List ℕ) : Prop :=
  Glob.Matches rule.tokens text ∨ rule.anchored = false ∧
    ∃ front back, text = front ++ slash :: back ∧ Glob.Matches rule.tokens back

theorem accepts_behind_slash_iff {rule : IgnoreRule} {text : List ℕ} :
    Glob.accepts rule.suffix (.many (fun _ => true) :: .many isDot :: .lit slash :: rule.tokens)
        text = true ↔
      ∃ front back, text = front ++ slash :: back ∧
        Glob.accepts rule.suffix rule.tokens back = true := by
  simp only [Glob.accepts_many, Glob.manyThen_iff]
  constructor
  · rintro ⟨front, rest, rfl, -, dots, rest', rfl, -, hrest⟩
    cases rest' with
    | nil => simp [Glob.accepts] at hrest
    | cons u back =>
      rw [Glob.accepts_lit_cons, Bool.and_eq_true, decide_eq_true_eq] at hrest
      obtain ⟨rfl, hback⟩ := hrest
      exact ⟨front ++ dots, back, (List.append_assoc _ _ _).symm, hback⟩
  · rintro ⟨front, back, rfl, hback⟩
    refine ⟨front, slash :: back, rfl, fun _ _ => trivial, [], slash :: back, rfl, by simp, ?_⟩
    rw [Glob.accepts_lit_cons, hback]
    simp

/-- **What a rule tests**: a path that its glob matches, and for a directory one below it. -/
theorem test_iff {rule : IgnoreRule} {path : String} :
    rule.test path = true ↔ rule.Globs (pathUnits path) ∨ rule.directoryOnly = true ∧
      ∃ folder below, pathUnits path = folder ++ slash :: below ∧ rule.Globs folder ∧
        ∀ u ∈ below, isDot u = true := by
  have haccepts : ∀ text, Glob.accepts rule.suffix rule.tokens text = true ↔
      Glob.Matches rule.tokens text ∨ rule.directoryOnly = true ∧
        ∃ folder below, text = folder ++ slash :: below ∧ Glob.Matches rule.tokens folder ∧
          ∀ u ∈ below, isDot u = true := by
    intro text
    rw [Glob.accepts_iff_matches]
    simp only [suffix_iff]
    constructor
    · rintro ⟨u, v, rfl, hu, rfl | ⟨hdirectory, below, rfl, hdots⟩⟩
      · exact Or.inl (by rwa [List.append_nil])
      · exact Or.inr ⟨hdirectory, u, below, rfl, hu, hdots⟩
    · rintro (h | ⟨hdirectory, folder, below, rfl, hfolder, hdots⟩)
      · exact ⟨text, [], (List.append_nil text).symm, h, Or.inl rfl⟩
      · exact ⟨folder, _, rfl, hfolder, Or.inr ⟨hdirectory, below, rfl, hdots⟩⟩
  rw [test, Bool.or_eq_true, Bool.and_eq_true, Bool.not_eq_true', accepts_behind_slash_iff,
    haccepts]
  simp only [haccepts, Globs]
  constructor
  · rintro ((h | ⟨hdirectory, folder, below, hpath, hfolder, hdots⟩) |
      ⟨hanchored, front, back, hpath, h | ⟨hdirectory, folder, below, rfl, hfolder, hdots⟩⟩)
    · exact Or.inl (Or.inl h)
    · exact Or.inr ⟨hdirectory, folder, below, hpath, Or.inl hfolder, hdots⟩
    · exact Or.inl (Or.inr ⟨hanchored, front, back, hpath, h⟩)
    · refine Or.inr ⟨hdirectory, front ++ slash :: folder, below, ?_,
        Or.inr ⟨hanchored, front, folder, rfl, hfolder⟩, hdots⟩
      rw [hpath, List.append_assoc, List.cons_append]
  · rintro ((h | ⟨hanchored, front, back, hpath, h⟩) |
      ⟨hdirectory, folder, below, hpath, h | ⟨hanchored, front, back, rfl, h⟩, hdots⟩)
    · exact Or.inl (Or.inl h)
    · exact Or.inr ⟨hanchored, front, back, hpath, Or.inl h⟩
    · exact Or.inl (Or.inr ⟨hdirectory, folder, below, hpath, h, hdots⟩)
    · refine Or.inr ⟨hanchored, front, back ++ slash :: below, ?_,
        Or.inr ⟨hdirectory, back, below, rfl, h, hdots⟩⟩
      rw [hpath, List.append_assoc, List.cons_append]

/-- The glob matches a path below a folder, or for a directory a folder on the way to it. -/
def ReachesBelow (rule : IgnoreRule) (folder below : List ℕ) : Prop :=
  rule.Globs (folder ++ slash :: below) ∨ rule.directoryOnly = true ∧
    ∃ way rest, below = way ++ slash :: rest ∧ rule.Globs (folder ++ slash :: way) ∧
      ∀ u ∈ rest, isDot u = true

theorem isDot_slash : isDot slash = true := by decide

/-- **What a rule tests below a folder**: what its glob reaches there, and for a directory all that
is below a folder it tests, up to a line separator. -/
theorem test_below_iff {rule : IgnoreRule} {folder below path : String}
    (hpath : pathUnits path = pathUnits folder ++ slash :: pathUnits below) :
    rule.test path = true ↔
      (rule.directoryOnly = true ∧ rule.test folder = true ∧
        ∀ u ∈ pathUnits below, isDot u = true) ∨
      rule.ReachesBelow (pathUnits folder) (pathUnits below) := by
  rw [test_iff, test_iff, hpath, ReachesBelow]
  constructor
  · rintro (h | ⟨hdirectory, way, rest, hsplit, hway, hdots⟩)
    · exact Or.inr (Or.inl h)
    rcases List.append_eq_append_iff.mp hsplit with ⟨more, hmore, hrest⟩ | ⟨more, hmore, hrest⟩
    · -- the glob matches the folder, or goes beyond it
      cases more with
      | nil =>
        rw [List.append_nil] at hmore
        obtain rfl : pathUnits below = rest := (List.cons.inj hrest).2
        exact Or.inl ⟨hdirectory, Or.inl (hmore ▸ hway), hdots⟩
      | cons u more =>
        obtain ⟨rfl, hbelow⟩ := List.cons.inj hrest
        exact Or.inr (Or.inr ⟨hdirectory, more, rest, hbelow, hmore ▸ hway, hdots⟩)
    · -- the glob matches a folder above it, or the folder
      cases more with
      | nil =>
        rw [List.append_nil] at hmore
        obtain rfl : rest = pathUnits below := (List.cons.inj hrest).2
        exact Or.inl ⟨hdirectory, Or.inl (hmore ▸ hway), hdots⟩
      | cons u more =>
        obtain ⟨rfl, hmid⟩ := List.cons.inj hrest
        rw [hmid] at hdots
        exact Or.inl ⟨hdirectory, Or.inr ⟨hdirectory, way, more, hmore, hway,
          fun u hu => hdots u (List.mem_append_left _ hu)⟩,
          fun u hu => hdots u (List.mem_append_right _ (List.mem_cons_of_mem _ hu))⟩
  · rintro (⟨hdirectory, h | ⟨-, way, rest, hsplit, hway, hdots⟩, hbelow⟩ | h |
      ⟨hdirectory, way, rest, hsplit, hway, hdots⟩)
    · exact Or.inr ⟨hdirectory, _, _, rfl, h, hbelow⟩
    · refine Or.inr ⟨hdirectory, way, rest ++ slash :: pathUnits below, ?_, hway, fun u hu => ?_⟩
      · rw [hsplit, List.append_assoc, List.cons_append]
      · rcases List.mem_append.mp hu with hu | hu
        · exact hdots u hu
        rcases List.mem_cons.mp hu with rfl | hu
        · exact isDot_slash
        · exact hbelow u hu
    · exact Or.inl h
    · refine Or.inr ⟨hdirectory, pathUnits folder ++ slash :: way, rest, ?_, hway, hdots⟩
      rw [hsplit, List.append_assoc, List.cons_append]

end IgnoreRule

/-! ### All rules -/

/-- Without negation, a path is ignored if a rule tests it. -/
theorem foldl_ignored {rules : List IgnoreRule} (h : ∀ rule ∈ rules, rule.negated = false)
    (path : String) (ignored : Bool) :
    (rules.foldl (fun ignored rule => if rule.test path then !rule.negated else ignored) ignored) =
      (ignored || rules.any fun rule => rule.test path) := by
  induction rules generalizing ignored with
  | nil => exact (Bool.or_false _).symm
  | cons rule rules ih =>
    rw [List.foldl_cons, ih fun other hother => h other (List.mem_cons_of_mem _ hother),
      List.any_cons, h rule List.mem_cons_self]
    cases rule.test path <;> simp

theorem ignores_iff_of_canonicalPath {P : Platform} {ignore : SyncIgnore}
    (h : ∀ rule ∈ ignore.rules, rule.negated = false) {path : String}
    (hpath : CanonicalPath P path) :
    ignore.ignores P path = true ↔ ∃ rule ∈ ignore.rules, rule.test path = true := by
  rw [SyncIgnore.ignores, hpath]
  dsimp only
  rw [foldl_ignored h, Bool.false_or, List.any_eq_true]

theorem pathUnits_join (folder below : String) :
    pathUnits (folder ++ "/" ++ below) = pathUnits folder ++ slash :: pathUnits below := by
  have hslash : "/".toList.flatMap codeUnits = [slash] := by decide
  rw [pathUnits, String.toList_append, String.toList_append, List.flatMap_append,
    List.flatMap_append, hslash, List.append_assoc]
  rfl

/-- A path below a folder is left as it is, unless it is too long. -/
theorem normalizePath_join {P : Platform} (laws : UnicodeLaws P) {folder below : String}
    (hfolder : CanonicalPath P folder) (hbelow : CanonicalPath P below) :
    (byteLength (folder ++ "/" ++ below).toList ≤ maxPathBytes →
        CanonicalPath P (folder ++ "/" ++ below)) ∧
      (maxPathBytes < byteLength (folder ++ "/" ++ below).toList →
        ∃ e, normalizePath P (folder ++ "/" ++ below) = .error e) := by
  rw [canonicalPath_iff laws.slashLaws] at hfolder hbelow
  have htext : (folder ++ "/" ++ below).toList = folder.toList ++ '/' :: below.toList := by
    rw [String.toList_append, String.toList_append, List.append_assoc]
    rfl
  have hnfc : InNFC P (folder ++ "/" ++ below).toList := by
    rw [htext]
    exact inNFC_inert laws (by decide) hfolder.nfc hbelow.nfc
  have hsegs : ∀ seg ∈ (folder ++ "/" ++ below).toList.splitOn '/', ValidSegment P seg := by
    intro seg hseg
    rw [htext, List.splitOn_append_cons_self, List.mem_append] at hseg
    exact hseg.elim (hfolder.segments seg) (hbelow.segments seg)
  constructor
  · exact fun hbytes => (canonicalPath_iff laws.slashLaws).mpr ⟨hnfc, hbytes, hsegs⟩
  · intro hlong
    cases h : normalizePath P (folder ++ "/" ++ below) with
    | error e => exact ⟨e, rfl⟩
    | ok path =>
      have hbytes := (normalizePath_eq_ok_iff.mp h).2.1
      have heq := unifiedPath_eq hnfc hsegs
      rw [String.ofList_toList] at heq
      rw [heq] at hbytes
      exact absurd hlong (Nat.not_lt.mpr hbytes)

/-- **What is below an ignored folder is covered**: it is too long for a path, or a rule for
directories tests the folder and no line separator comes below it, or a glob matches below the
folder. -/
def FolderCovered (ignore : SyncIgnore) (folder below : String) : Prop :=
  (∃ rule ∈ ignore.rules, rule.test folder = true) →
    maxPathBytes < byteLength (folder ++ "/" ++ below).toList ∨
      (∃ rule ∈ ignore.rules, rule.directoryOnly = true ∧ rule.test folder = true ∧
        ∀ u ∈ pathUnits below, isDot u = true) ∨
      ∃ rule ∈ ignore.rules, rule.ReachesBelow (pathUnits folder) (pathUnits below)

/-- **The ignored folders below which a path is ignored**, for rules without negation. -/
theorem ignores_below_iff {P : Platform} (laws : UnicodeLaws P) (common local' : List String)
    (hrules : ∀ rule ∈ (SyncIgnore.create common local').rules, rule.negated = false)
    (folder below : String) (hfolder : CanonicalPath P folder) (hbelow : CanonicalPath P below) :
    ((SyncIgnore.create common local').ignores P folder = true →
        (SyncIgnore.create common local').ignores P (folder ++ "/" ++ below) = true) ↔
      FolderCovered (SyncIgnore.create common local') folder below := by
  rw [ignores_iff_of_canonicalPath hrules hfolder, FolderCovered]
  refine imp_congr_right fun _ => ?_
  obtain ⟨hshort, hlong⟩ := normalizePath_join laws hfolder hbelow
  rcases Nat.lt_or_ge maxPathBytes (byteLength (folder ++ "/" ++ below).toList) with hlt | hge
  · obtain ⟨e, he⟩ := hlong hlt
    refine iff_of_true ?_ (Or.inl hlt)
    rw [SyncIgnore.ignores, he]
  · rw [ignores_iff_of_canonicalPath hrules (hshort hge), or_iff_right (Nat.not_lt.mpr hge)]
    simp only [IgnoreRule.test_below_iff (pathUnits_join folder below), and_or_left,
      exists_or]

theorem ignores_below_iff_build :
    ((SyncIgnore.create ["build/"] []).ignores samplePlatform "build" = true →
        (SyncIgnore.create ["build/"] []).ignores samplePlatform ("build" ++ "/" ++ "out.md") =
          true) ∧
      FolderCovered (SyncIgnore.create ["build/"] []) "build" "out.md" := by
  have h := ignores_below_iff unicodeLaws_samplePlatform ["build/"] [] (by decide +kernel) "build"
    "out.md" (by decide +kernel) (by decide +kernel)
  have hout : (SyncIgnore.create ["build/"] []).ignores samplePlatform
      ("build" ++ "/" ++ "out.md") = true := by decide +kernel
  exact ⟨fun _ => hout, h.mp fun _ => hout⟩

/-- A rule without a slash at its end does not cover what is below. -/
theorem not_ignores_below_build :
    ¬ ∀ (common local' : List String) (folder below : String),
      (∀ rule ∈ (SyncIgnore.create common local').rules, rule.negated = false) →
      CanonicalPath samplePlatform folder → CanonicalPath samplePlatform below →
      (SyncIgnore.create common local').ignores samplePlatform folder = true →
      (SyncIgnore.create common local').ignores samplePlatform (folder ++ "/" ++ below) = true := by
  intro h
  have hout := h ["build"] [] "build" "out.md" (by decide +kernel) (by decide +kernel)
    (by decide +kernel) (by decide +kernel)
  revert hout
  decide +kernel

end ObsidianSync
