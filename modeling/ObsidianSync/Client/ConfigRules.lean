import Mathlib.Data.List.Induction
import ObsidianSync.Client.FolderRules

/-!
# Categories of the configuration

A file of the configuration has a category by string tests, and a category that stays local
excludes its files by patterns.  The default patterns exclude some files of every category.
Two kinds of files have a category whose patterns do not match them: those of a folder whose
name starts like a workspace file, and themes and snippets with a line terminator in their path.

## Main definitions

* `configRules` — the rules that the patterns of a category are parsed to.
* `IsConfigFile` — the files of a category, by the form of their path.
* `CategoryCovers`, `InReach` — the files that the patterns of a category match.

## Main results

* `categorizeConfigPath_eq_some_iff` — the category by the form of the path.
* `category_of_covers`, `covers_of_category` — the patterns of a category match no other files,
  and those in reach.
* `ignores_config_iff` — **what stays local is ignored, and of what is common the default
  patterns decide.**
-/

namespace ObsidianSync

/-! ### Texts in code units -/

theorem codeUnits_of_lt {c : Char} (h : c.toNat < 128) : codeUnits c = [c.toNat] :=
  if_pos (Nat.lt_trans h (by decide))

/-- A character whose first or last code unit is one of ASCII is that one. -/
theorem eq_of_mem_codeUnits {c d : Char} (hc : c.toNat < 128) (h : c.toNat ∈ codeUnits d) :
    d = c := by
  rw [codeUnits] at h
  split at h
  · exact (Char.toNat_inj.mp (List.mem_singleton.mp h)).symm
  · rcases List.mem_cons.mp h with h | h
    · omega
    · have hlow := List.mem_singleton.mp h
      omega

theorem codeUnits_ne_nil (c : Char) : codeUnits c ≠ [] := by
  unfold codeUnits
  split <;> exact List.cons_ne_nil _ _

/-- ASCII characters at the front of the code units are those of the text. -/
theorem of_units_front {front cs : List Char} {rest : List ℕ}
    (hfront : ∀ c ∈ front, c.toNat < 128)
    (h : cs.flatMap codeUnits = front.flatMap codeUnits ++ rest) :
    ∃ more, cs = front ++ more ∧ rest = more.flatMap codeUnits := by
  induction front generalizing cs with
  | nil => exact ⟨cs, rfl, h.symm⟩
  | cons c front ih =>
    have hc := hfront c List.mem_cons_self
    rw [List.flatMap_cons, codeUnits_of_lt hc] at h
    cases cs with
    | nil => exact absurd h.symm (List.cons_ne_nil _ _)
    | cons d cs =>
      have hd : d = c := by
        refine eq_of_mem_codeUnits hc ?_
        have hhead := congrArg List.head? h
        rw [List.flatMap_cons, List.head?_append_of_ne_nil _ (codeUnits_ne_nil d)] at hhead
        exact List.mem_of_mem_head? hhead
      subst hd
      rw [List.flatMap_cons, codeUnits_of_lt hc] at h
      obtain ⟨more, rfl, hrest⟩ := ih (fun d hd => hfront d (List.mem_cons_of_mem _ hd))
        (List.cons.inj h).2
      exact ⟨more, rfl, hrest⟩

/-- ASCII characters at the end of the code units are those of the text. -/
theorem of_units_back {back cs : List Char} {start : List ℕ}
    (hback : ∀ c ∈ back, c.toNat < 128)
    (h : cs.flatMap codeUnits = start ++ back.flatMap codeUnits) :
    ∃ more, cs = more ++ back ∧ start = more.flatMap codeUnits := by
  induction back using List.reverseRecOn generalizing cs with
  | nil => exact ⟨cs, (List.append_nil cs).symm, by simpa using h.symm⟩
  | append_singleton back c ih =>
    have hc := hback c (List.mem_append_right _ List.mem_cons_self)
    have hunits : cs.flatMap codeUnits = start ++ back.flatMap codeUnits ++ [c.toNat] := by
      rw [h, List.flatMap_append, List.flatMap_singleton, codeUnits_of_lt hc, List.append_assoc]
    cases cs using List.reverseRecOn with
    | nil => exact absurd hunits.symm (by simp)
    | append_singleton cs d =>
      rw [List.flatMap_append, List.flatMap_singleton] at hunits
      have hd : d = c := by
        refine eq_of_mem_codeUnits hc ?_
        have hlast := congrArg List.getLast? hunits
        rw [List.getLast?_append_of_ne_nil _ (codeUnits_ne_nil d), List.getLast?_concat] at hlast
        exact List.mem_of_getLast? hlast
      subst hd
      rw [codeUnits_of_lt hc] at hunits
      obtain ⟨more, rfl, hstart⟩ := ih
        (fun d hd => hback d (List.mem_append_left _ hd)) (List.append_cancel_right hunits)
      exact ⟨more, List.append_assoc _ _ _, hstart⟩

theorem mem_of_mem_flatMap_codeUnits {c : Char} (hc : c.toNat < 128) {cs : List Char} :
    c.toNat ∈ cs.flatMap codeUnits ↔ c ∈ cs := by
  rw [List.mem_flatMap]
  constructor
  · rintro ⟨d, hd, hunit⟩
    rwa [← eq_of_mem_codeUnits hc hunit]
  · exact fun h => ⟨c, h, by rw [codeUnits_of_lt hc]; exact List.mem_singleton.mpr rfl⟩

/-- What a dot does not match. -/
def lineTerminators : List Char := ['\n', '\r', '\u2028', '\u2029']

theorem isDot_of_mem {cs : List Char} (h : ∀ c ∈ cs, c ∉ lineTerminators) :
    ∀ u ∈ cs.flatMap codeUnits, isDot u = true := by
  intro u hu
  obtain ⟨c, hc, hunit⟩ := List.mem_flatMap.mp hu
  rw [isDot, Bool.not_eq_true', ← Bool.not_eq_true, List.contains_iff_mem]
  intro hmem
  have hsmall : ∀ u ∈ [0x0A, 0x0D, 0x2028, 0x2029], u < 0xD800 := by decide
  have hchars : ∀ u ∈ [0x0A, 0x0D, 0x2028, 0x2029], Char.ofNat u ∈ lineTerminators := by decide
  have hlt := hsmall u hmem
  rw [codeUnits] at hunit
  split at hunit
  · rw [List.mem_singleton] at hunit
    have hchar := hchars u hmem
    rw [hunit, Char.ofNat_toNat] at hchar
    exact h c hc hchar
  · rcases List.mem_cons.mp hunit with hhigh | hunit
    · omega
    · have hlow := List.mem_singleton.mp hunit
      omega

/-! ### Rules -/

/-- The rule of a pattern without wildcards. -/
def literalRule (name : List Char) : IgnoreRule :=
  { negated := false, directoryOnly := false, anchored := true
    tokens := (name.flatMap codeUnits).map .lit }

/-- The rule of a pattern with one star. -/
def starRule (front back : List Char) : IgnoreRule :=
  { negated := false, directoryOnly := false, anchored := true
    tokens := (front.flatMap codeUnits).map .lit ++
      .many isNotSlash :: (back.flatMap codeUnits).map .lit }

/-- The rule of a pattern for a directory. -/
def folderRule (name : List Char) : IgnoreRule :=
  { negated := false, directoryOnly := true, anchored := true
    tokens := (name.flatMap codeUnits).map .lit }

theorem test_of_anchored {rule : IgnoreRule} (h : rule.anchored = true) (path : String) :
    rule.test path = Glob.accepts rule.suffix rule.tokens (path.toList.flatMap codeUnits) := by
  rw [IgnoreRule.test, h, Bool.not_true, Bool.false_and, Bool.or_false, pathUnits]

theorem test_literalRule {name : List Char} (hname : ∀ c ∈ name, c.toNat < 128) {path : String} :
    (literalRule name).test path = true ↔ path.toList = name := by
  rw [test_of_anchored rfl, literalRule, Glob.accepts_lits]
  simp only [IgnoreRule.suffix_iff, Bool.false_eq_true, false_and, or_false]
  constructor
  · rintro ⟨v, hpath, rfl⟩
    obtain ⟨more, hmore, hnil⟩ := of_units_front hname hpath
    cases more with
    | nil => rw [hmore, List.append_nil]
    | cons c more =>
      exact absurd (List.append_eq_nil_iff.mp hnil.symm).1 (codeUnits_ne_nil c)
  · exact fun h => ⟨[], by rw [h, List.append_nil], rfl⟩

theorem test_starRule {front back : List Char} (hfront : ∀ c ∈ front, c.toNat < 128)
    (hback : ∀ c ∈ back, c.toNat < 128) {path : String} :
    (starRule front back).test path = true ↔
      ∃ mid, path.toList = front ++ mid ++ back ∧ '/' ∉ mid := by
  have hslash : ∀ mid : List Char,
      (∀ u ∈ mid.flatMap codeUnits, isNotSlash u = true) ↔ '/' ∉ mid := by
    intro mid
    rw [← mem_of_mem_flatMap_codeUnits (c := '/') (by decide)]
    exact ⟨fun h hmem => of_decide_eq_true (h _ hmem) rfl,
      fun h u hu => decide_eq_true fun heq : u = slash => h (by rw [heq] at hu; exact hu)⟩
  rw [test_of_anchored rfl, starRule, Glob.accepts_append, Glob.accepts_lits]
  simp only [Glob.accepts_many, Glob.manyThen_iff, Glob.accepts_lits, IgnoreRule.suffix_iff,
    Bool.false_eq_true, false_and, or_false]
  constructor
  · rintro ⟨v, hpath, units, w, rfl, hunits, z, rfl, rfl⟩
    rw [List.append_nil] at hpath
    obtain ⟨more, hmore, hrest⟩ := of_units_front hfront hpath
    obtain ⟨mid, rfl, rfl⟩ := of_units_back hback hrest.symm
    exact ⟨mid, by rw [hmore, List.append_assoc], (hslash mid).mp hunits⟩
  · rintro ⟨mid, hpath, hmid⟩
    refine ⟨mid.flatMap codeUnits ++ back.flatMap codeUnits, ?_, mid.flatMap codeUnits, _, rfl,
      (hslash mid).mpr hmid, [], (List.append_nil _).symm, rfl⟩
    rw [hpath, List.flatMap_append, List.flatMap_append, List.append_assoc]

theorem test_folderRule {name : List Char} (hname : ∀ c ∈ name, c.toNat < 128) {path : String} :
    ((folderRule name).test path = true → path.toList = name ∨
        ∃ below, path.toList = name ++ '/' :: below) ∧
      ∀ below, path.toList = name ++ '/' :: below → (∀ c ∈ below, c ∉ lineTerminators) →
        (folderRule name).test path = true := by
  have hslash : ['/'].flatMap codeUnits = [slash] := by decide
  rw [folderRule, test_directory_iff, pathUnits]
  constructor
  · rintro (hpath | ⟨below, hpath, -⟩)
    · obtain ⟨more, hmore, hnil⟩ := of_units_front hname (hpath.trans (List.append_nil _).symm)
      cases more with
      | nil => exact Or.inl (by rw [hmore, List.append_nil])
      | cons c more =>
        exact absurd (List.append_eq_nil_iff.mp hnil.symm).1 (codeUnits_ne_nil c)
    · obtain ⟨more, hmore, hrest⟩ := of_units_front hname hpath
      obtain ⟨more', rfl, -⟩ := @of_units_front ['/'] _ below (by decide)
        (by rw [← hrest, hslash]; rfl)
      exact Or.inr ⟨more', hmore⟩
  · intro below hpath hplain
    refine Or.inr ⟨below.flatMap codeUnits, ?_, isDot_of_mem hplain⟩
    rw [hpath, List.flatMap_append]
    rfl

/-! ### The rules of a category -/

/-- The rules that the patterns of a category are parsed to. -/
def configRules : ConfigCategory → List IgnoreRule
  | .app =>
    [literalRule ".obsidian/app.json".toList, literalRule ".obsidian/appearance.json".toList,
      literalRule ".obsidian/hotkeys.json".toList]
  | .corePlugins => [literalRule ".obsidian/core-plugins.json".toList]
  | .communityPlugins =>
    [literalRule ".obsidian/community-plugins.json".toList,
      starRule ".obsidian/plugins/".toList "/manifest.json".toList,
      starRule ".obsidian/plugins/".toList "/main.js".toList,
      starRule ".obsidian/plugins/".toList "/styles.css".toList]
  | .pluginSettings => [starRule ".obsidian/plugins/".toList "/data.json".toList]
  | .themesSnippets =>
    [folderRule ".obsidian/themes".toList, folderRule ".obsidian/snippets".toList]
  | .workspace => [starRule ".obsidian/workspace".toList ".json".toList]

set_option maxRecDepth 4000 in
theorem filterMap_parseRule_configIgnorePatterns (category : ConfigCategory) :
    (configIgnorePatterns category).filterMap parseRule = configRules category := by
  cases category <;> rfl

/-- A rule of the category tests the path. -/
def CategoryCovers (category : ConfigCategory) (path : String) : Prop :=
  ∃ rule ∈ configRules category, rule.test path = true

/-! ### The category of a path -/

/-- `categorizeConfigPath` on what follows `.obsidian/`. -/
def categorizeRel (rel : List Char) : Option ConfigCategory :=
  if ["app.json", "appearance.json", "hotkeys.json"].contains (String.ofList rel) then some .app
  else if String.ofList rel = "core-plugins.json" then some .corePlugins
  else if String.ofList rel = "community-plugins.json" ||
      (pluginFile rel).any fun file =>
        ["manifest.json", "main.js", "styles.css"].contains file then
    some .communityPlugins
  else if pluginFile rel = some "data.json" then some .pluginSettings
  else if startsWith (String.ofList rel) "themes/" ||
      startsWith (String.ofList rel) "snippets/" then
    some .themesSnippets
  else if isWorkspaceFile rel then some .workspace
  else none

theorem categorizeConfigPath_eq {path : String} {rel : List Char}
    (h : path.toList = ".obsidian/".toList ++ rel) :
    categorizeConfigPath path = categorizeRel rel := by
  have hstart : startsWith path ".obsidian/" = true := by
    rw [startsWith, h]
    exact List.isPrefixOf_iff_prefix.mpr ⟨rel, rfl⟩
  have hrel : path.toList.drop ".obsidian/".length = rel := by
    rw [h]
    exact List.drop_left' (by decide)
  rw [categorizeConfigPath, hstart, hrel]
  rfl

theorem exists_rel_of_categorizeConfigPath {path : String} {category : ConfigCategory}
    (h : categorizeConfigPath path = some category) :
    ∃ rel, path.toList = ".obsidian/".toList ++ rel := by
  unfold categorizeConfigPath at h
  split at h
  · cases h
  · next hstart =>
    rw [Bool.not_eq_true', Bool.not_eq_false, startsWith, List.isPrefixOf_iff_prefix] at hstart
    obtain ⟨rel, hrel⟩ := hstart
    exact ⟨rel, hrel.symm⟩

/-- A plugin file, by its path. -/
theorem pluginFile_eq_some_iff {rel : List Char} {file : String} (hfile : '/' ∉ file.toList) :
    pluginFile rel = some file ↔ ∃ id, id ≠ [] ∧ '/' ∉ id ∧
      rel = "plugins/".toList ++ id ++ '/' :: file.toList := by
  have hplugins : '/' ∉ "plugins".toList := by decide
  have hjoin : ∀ id file : List Char, joinSegments ["plugins".toList, id, file] =
      "plugins/".toList ++ id ++ '/' :: file := by
    intro id file
    rw [joinSegments_cons (by simp), joinSegments_cons (by simp), joinSegments_singleton]
    simp
  constructor
  · intro h
    unfold pluginFile at h
    split at h
    · next dir id name hsplit =>
      split at h
      · next hdir =>
        rw [Option.some.injEq] at h
        have hrel := joinSegments_splitOn rel
        rw [hsplit, hdir.1, hjoin] at hrel
        refine ⟨id, hdir.2, not_mem_of_mem_splitOn (by rw [hsplit]; simp), ?_⟩
        have hname : file.toList = name := by rw [← h, String.toList_ofList]
        rw [hname]
        exact hrel.symm
      · cases h
    · cases h
  · rintro ⟨id, hid, hslash, rfl⟩
    have hsplit : ("plugins/".toList ++ id ++ '/' :: file.toList).splitOn '/' =
        ["plugins".toList, id, file.toList] := by
      rw [← hjoin]
      refine splitOn_joinSegments (by simp) fun seg hseg => ?_
      simp only [List.mem_cons, List.not_mem_nil, or_false] at hseg
      rcases hseg with rfl | rfl | rfl <;> assumption
    rw [pluginFile, hsplit]
    dsimp only
    rw [if_pos ⟨rfl, hid⟩, String.ofList_toList]

theorem ofList_ne_of_head {a : Char} {rest : List Char} {name : String}
    (h : name.toList.head? ≠ some a) : String.ofList (a :: rest) ≠ name := by
  rintro rfl
  exact h (by rw [String.toList_ofList, List.head?_cons])

/-- A path that starts like none of the names has a category by its parts. -/
theorem categorizeRel_of_head {a : Char} (ha : a ∉ ['a', 'h', 'c']) (rest : List Char) :
    categorizeRel (a :: rest) =
      if (pluginFile (a :: rest)).any fun file =>
          ["manifest.json", "main.js", "styles.css"].contains file then some .communityPlugins
      else if pluginFile (a :: rest) = some "data.json" then some .pluginSettings
      else if startsWith (String.ofList (a :: rest)) "themes/" ||
          startsWith (String.ofList (a :: rest)) "snippets/" then some .themesSnippets
      else if isWorkspaceFile (a :: rest) then some .workspace
      else none := by
  have hname : ∀ name ∈ ["app.json", "appearance.json", "hotkeys.json", "core-plugins.json",
      "community-plugins.json"], String.ofList (a :: rest) ≠ name := by
    intro name hname
    refine ofList_ne_of_head fun hhead => ha ?_
    have hheads : ∀ name ∈ ["app.json", "appearance.json", "hotkeys.json", "core-plugins.json",
        "community-plugins.json"], name.toList.head?.getD 'a' ∈ ['a', 'h', 'c'] := by decide
    have hfirst := hheads name hname
    rwa [hhead, Option.getD_some] at hfirst
  have happ : ["app.json", "appearance.json", "hotkeys.json"].contains
      (String.ofList (a :: rest)) = false := by
    rw [← Bool.not_eq_true, List.contains_iff_mem]
    intro hmem
    simp only [List.mem_cons, List.not_mem_nil, or_false] at hmem
    rcases hmem with h | h | h <;> exact hname _ (by simp) h
  rw [categorizeRel, happ, if_neg Bool.false_ne_true, if_neg (hname _ (by simp)),
    decide_eq_false (hname "community-plugins.json" (by simp)), Bool.false_or]

theorem pluginFile_of_head {a : Char} (ha : a ≠ 'p') (rest : List Char) :
    pluginFile (a :: rest) = none := by
  unfold pluginFile
  split
  · next dir id file hsplit =>
    refine if_neg fun hdir => ha ?_
    have hrel := joinSegments_splitOn (a :: rest)
    rw [hsplit, hdir.1, joinSegments_cons (by simp)] at hrel
    exact (List.cons.inj hrel).1.symm
  · rfl

theorem startsWith_ofList (text : List Char) (start : String) :
    startsWith (String.ofList text) start = start.toList.isPrefixOf text :=
  congrArg start.toList.isPrefixOf String.toList_ofList

/-- The files of the folders of themes and snippets. -/
theorem categorizeRel_folder {name : String} (hname : name ∈ ["themes/", "snippets/"])
    (below : List Char) : categorizeRel (name.toList ++ below) = some .themesSnippets := by
  obtain ⟨a, rest, hhead, ha, hp⟩ :
      ∃ a rest, name.toList = a :: rest ∧ a ∉ ['a', 'h', 'c'] ∧ a ≠ 'p' := by
    simp only [List.mem_cons, List.not_mem_nil, or_false] at hname
    rcases hname with rfl | rfl
    · exact ⟨'t', "hemes/".toList, by decide, by decide, by decide⟩
    · exact ⟨'s', "nippets/".toList, by decide, by decide, by decide⟩
  have hstart : (startsWith (String.ofList (name.toList ++ below)) "themes/" ||
      startsWith (String.ofList (name.toList ++ below)) "snippets/") = true := by
    rw [Bool.or_eq_true, startsWith_ofList, startsWith_ofList, List.isPrefixOf_iff_prefix,
      List.isPrefixOf_iff_prefix]
    simp only [List.mem_cons, List.not_mem_nil, or_false] at hname
    exact hname.imp (fun h => ⟨below, by rw [h]⟩) fun h => ⟨below, by rw [h]⟩
  rw [hhead, List.cons_append] at hstart ⊢
  rw [categorizeRel_of_head ha, pluginFile_of_head hp, hstart]
  rfl

/-! ### The patterns and the category -/

/-- A file that the patterns of its category match: a workspace file that is in no folder of its
own, and a theme or a snippet without a line terminator in its path. -/
def InReach (category : ConfigCategory) (path : String) : Prop :=
  match category with
  | .workspace => '/' ∉ path.toList.drop ".obsidian/".length
  | .themesSnippets => ∀ c ∈ path.toList, c ∉ lineTerminators
  | _ => True

instance (category : ConfigCategory) (path : String) : Decidable (InReach category path) :=
  match category with
  | .app | .corePlugins | .communityPlugins | .pluginSettings => inferInstanceAs (Decidable True)
  | .themesSnippets => inferInstanceAs (Decidable (∀ _ ∈ _, _))
  | .workspace => inferInstanceAs (Decidable (¬ _))

section

variable {path : String} {category : ConfigCategory}

/-- The rule of a plugin file. -/
theorem test_pluginRule_iff {rel : List Char} (hrel : path.toList = ".obsidian/".toList ++ rel)
    (hsegs : ∀ seg ∈ path.toList.splitOn '/', seg ≠ []) {file back : String}
    (hfile : '/' ∉ file.toList) (hback : back.toList = '/' :: file.toList)
    (hascii : ∀ c ∈ back.toList, c.toNat < 128) :
    (starRule ".obsidian/plugins/".toList back.toList).test path = true ↔
      pluginFile rel = some file := by
  have hfront : ".obsidian/plugins/".toList = ".obsidian/".toList ++ "plugins/".toList := by decide
  rw [test_starRule (by decide) hascii, pluginFile_eq_some_iff hfile, hback, hfront]
  constructor
  · rintro ⟨mid, hpath, hmid⟩
    refine ⟨mid, ?_, hmid, ?_⟩
    · rintro rfl
      refine hsegs [] ?_ rfl
      rw [hpath, List.append_nil, List.splitOn_append_cons_self, ← hfront]
      exact List.mem_append_left _ (by decide)
    · rw [hpath, List.append_assoc, List.append_assoc] at hrel
      rw [← List.append_cancel_left hrel, List.append_assoc]
  · rintro ⟨id, -, hid, rfl⟩
    exact ⟨id, by rw [hrel]; simp only [List.append_assoc], hid⟩

theorem category_of_literal {name : String} {category' : ConfigCategory}
    (hascii : ∀ c ∈ name.toList, c.toNat < 128)
    (hname : categorizeConfigPath name = some category)
    (htest : (literalRule name.toList).test path = true)
    (hpath : categorizeConfigPath path = some category') : category' = category := by
  obtain rfl : path = name := String.toList_inj.mp ((test_literalRule hascii).mp htest)
  exact Option.some.inj (hpath.symm.trans hname)

/-- **What the patterns of a category match has that category**, if it has one. -/
theorem category_of_covers (hsegs : ∀ seg ∈ path.toList.splitOn '/', seg ≠ [])
    (h : CategoryCovers category path) {category' : ConfigCategory}
    (hpath : categorizeConfigPath path = some category') : category' = category := by
  obtain ⟨rel, hrel⟩ := exists_rel_of_categorizeConfigPath hpath
  have hcategory := hpath
  rw [categorizeConfigPath_eq hrel] at hcategory
  -- no category before the plugins has a path that begins so
  have hplugin : ∀ file, pluginFile rel = some file → ∃ rest, rel = 'p' :: rest := by
    intro file hfile
    cases rel with
    | nil =>
      rw [show pluginFile [] = none by decide] at hfile
      cases hfile
    | cons a rest =>
      by_cases ha : a = 'p'
      · exact ⟨rest, by rw [ha]⟩
      · rw [pluginFile_of_head ha] at hfile
        cases hfile
  obtain ⟨rule, hrule, htest⟩ := h
  cases category with
  | app =>
    simp only [configRules, List.mem_cons, List.not_mem_nil, or_false] at hrule
    rcases hrule with rfl | rfl | rfl
    · exact category_of_literal (by decide) (by decide) htest hpath
    · exact category_of_literal (by decide) (by decide) htest hpath
    · exact category_of_literal (by decide) (by decide) htest hpath
  | corePlugins =>
    rw [configRules, List.mem_singleton] at hrule
    subst hrule
    exact category_of_literal (by decide) (by decide) htest hpath
  | communityPlugins =>
    have hfile : ∀ file ∈ ["manifest.json", "main.js", "styles.css"], pluginFile rel = some file →
        category' = .communityPlugins := by
      intro file hmem hfile
      obtain ⟨rest, rfl⟩ := hplugin file hfile
      rw [categorizeRel_of_head (by decide), hfile, Option.any_some,
        List.contains_iff_mem.mpr hmem, if_pos rfl] at hcategory
      exact (Option.some.inj hcategory).symm
    simp only [configRules, List.mem_cons, List.not_mem_nil, or_false] at hrule
    rcases hrule with rfl | rfl | rfl | rfl
    · exact category_of_literal (by decide) (by decide) htest hpath
    · exact hfile "manifest.json" (by simp) ((test_pluginRule_iff hrel hsegs (by decide) (by decide)
        (by decide)).mp htest)
    · exact hfile "main.js" (by simp) ((test_pluginRule_iff hrel hsegs (by decide) (by decide)
        (by decide)).mp htest)
    · exact hfile "styles.css" (by simp) ((test_pluginRule_iff hrel hsegs (by decide) (by decide)
        (by decide)).mp htest)
  | pluginSettings =>
    rw [configRules, List.mem_singleton] at hrule
    subst hrule
    have hfile := (@test_pluginRule_iff _ _ hrel hsegs "data.json" _ (by decide) (by decide)
      (by decide)).mp htest
    obtain ⟨rest, rfl⟩ := hplugin _ hfile
    rw [categorizeRel_of_head (by decide), hfile] at hcategory
    exact (Option.some.inj hcategory).symm
  | themesSnippets =>
    have hfolder : ∀ folder name : String, name ∈ ["themes/", "snippets/"] →
        folder.toList ++ ['/'] = ".obsidian/".toList ++ name.toList →
        (∀ c ∈ folder.toList, c.toNat < 128) → categorizeConfigPath folder = none →
        (folderRule folder.toList).test path = true → category' = .themesSnippets := by
      intro folder name hname hfolder hascii hnone htest
      -- the folder itself has no category, so the path is below it
      rcases (test_folderRule hascii).1 htest with heq | ⟨below, heq⟩
      · obtain rfl : path = folder := String.toList_inj.mp heq
        rw [hnone] at hpath
        cases hpath
      · rw [List.append_cons, hfolder, List.append_assoc] at heq
        obtain rfl := List.append_cancel_left (hrel.symm.trans heq)
        rw [categorizeRel_folder hname] at hcategory
        exact (Option.some.inj hcategory).symm
    simp only [configRules, List.mem_cons, List.not_mem_nil, or_false] at hrule
    rcases hrule with rfl | rfl
    · exact hfolder ".obsidian/themes" "themes/" (by simp) (by decide) (by decide) (by decide) htest
    · exact hfolder ".obsidian/snippets" "snippets/" (by simp) (by decide) (by decide) (by decide)
        htest
  | workspace =>
    rw [configRules, List.mem_singleton] at hrule
    subst hrule
    obtain ⟨mid, hmid, -⟩ := (test_starRule (by decide) (by decide)).mp htest
    have hbelow : path.toList =
        ".obsidian/".toList ++ ('w' :: ("orkspace".toList ++ mid ++ ".json".toList)) := hmid
    obtain rfl := List.append_cancel_left (hrel.symm.trans hbelow)
    rw [categorizeRel_of_head (by decide), pluginFile_of_head (by decide)] at hcategory
    -- no theme and no snippet either
    have hstart : ∀ rest, (startsWith (String.ofList ('w' :: rest)) "themes/" ||
        startsWith (String.ofList ('w' :: rest)) "snippets/") = false := by
      intro rest
      rw [startsWith_ofList, startsWith_ofList]
      rfl
    rw [hstart] at hcategory
    simp only [Option.any_none, Bool.false_eq_true, if_false, reduceCtorEq] at hcategory
    split at hcategory
    · exact (Option.some.inj hcategory).symm
    · cases hcategory

/-! The pattern of a file below the config folder, each from what its category was read off. -/

theorem test_literalRule_below {rel : List Char}
    (hrel : path.toList = ".obsidian/".toList ++ rel) :
    ∀ name full : String, String.ofList rel = name →
      full.toList = ".obsidian/".toList ++ name.toList → (∀ c ∈ full.toList, c.toNat < 128) →
      (literalRule full.toList).test path = true := by
  rintro _ full rfl hfull hascii
  rw [test_literalRule hascii, hrel, hfull]
  exact congrArg _ String.toList_ofList.symm

theorem test_starRule_plugin {rel : List Char}
    (hrel : path.toList = ".obsidian/".toList ++ rel) :
    ∀ file back : String, pluginFile rel = some file → '/' ∉ file.toList →
      back.toList = '/' :: file.toList → (∀ c ∈ back.toList, c.toNat < 128) →
      (starRule ".obsidian/plugins/".toList back.toList).test path = true := by
  intro file back hfile hslash hback hascii
  obtain ⟨id, -, hid, rfl⟩ := (pluginFile_eq_some_iff hslash).mp hfile
  refine (test_starRule (by decide) hascii).mpr ⟨id, ?_, hid⟩
  have hfront : ".obsidian/plugins/".toList = ".obsidian/".toList ++ "plugins/".toList := by
    decide
  rw [hrel, hback, hfront, List.append_assoc, List.append_assoc, List.append_assoc]

theorem test_folderRule_below {rel : List Char}
    (hrel : path.toList = ".obsidian/".toList ++ rel) :
    ∀ folder name : String, startsWith (String.ofList rel) name = true →
      folder.toList ++ ['/'] = ".obsidian/".toList ++ name.toList →
      (∀ c ∈ folder.toList, c.toNat < 128) → (∀ c ∈ path.toList, c ∉ lineTerminators) →
      (folderRule folder.toList).test path = true := by
  intro folder name hstart hname hascii hplain
  rw [startsWith_ofList, List.isPrefixOf_iff_prefix] at hstart
  obtain ⟨below, rfl⟩ := hstart
  have hbelow : path.toList = folder.toList ++ '/' :: below := by
    rw [List.append_cons, hname, hrel, List.append_assoc]
  refine (test_folderRule hascii).2 below hbelow fun c hc => hplain c ?_
  rw [hbelow]
  exact List.mem_append_right _ (List.mem_cons_of_mem _ hc)

theorem test_starRule_workspace {rel : List Char}
    (hrel : path.toList = ".obsidian/".toList ++ rel) (hfile : isWorkspaceFile rel = true)
    (hreach : '/' ∉ path.toList.drop ".obsidian/".length) :
    (starRule ".obsidian/workspace".toList ".json".toList).test path = true := by
  rw [isWorkspaceFile, startsWith_ofList, Bool.and_eq_true, Bool.and_eq_true,
    List.isPrefixOf_iff_prefix, List.isSuffixOf_iff_suffix] at hfile
  obtain ⟨⟨⟨rest, rfl⟩, mid, hmid⟩, -⟩ := hfile
  have hrest : ("workspace".toList ++ rest).drop "workspace".length = rest :=
    List.drop_left' (by decide)
  rw [hrest] at hmid
  subst hmid
  have hdrop : path.toList.drop ".obsidian/".length =
      "workspace".toList ++ (mid ++ ".json".toList) := by
    rw [hrel]
    exact List.drop_left' (by decide)
  refine (test_starRule (by decide) (by decide)).mpr ⟨mid, ?_, fun hslash => hreach ?_⟩
  · have hfront : ".obsidian/workspace".toList = ".obsidian/".toList ++ "workspace".toList := by
      decide
    rw [hrel, hfront, List.append_assoc, List.append_assoc]
  · rw [hdrop]
    exact List.mem_append_right _ (List.mem_append_left _ hslash)

/-- **A file in reach is matched** by the patterns of its category. -/
theorem covers_of_category (hpath : categorizeConfigPath path = some category)
    (hreach : InReach category path) : CategoryCovers category path := by
  obtain ⟨rel, hrel⟩ := exists_rel_of_categorizeConfigPath hpath
  rw [categorizeConfigPath_eq hrel] at hpath
  have hliteral := test_literalRule_below hrel
  have hplugin := test_starRule_plugin hrel
  have hfolder := test_folderRule_below hrel
  unfold categorizeRel at hpath
  split at hpath
  · next hname =>
    obtain rfl := Option.some.inj hpath
    rw [List.contains_iff_mem] at hname
    simp only [List.mem_cons, List.not_mem_nil, or_false] at hname
    rcases hname with h | h | h
    · exact ⟨_, by simp [configRules], hliteral _ ".obsidian/app.json" h (by decide) (by decide)⟩
    · exact ⟨_, by simp [configRules],
        hliteral _ ".obsidian/appearance.json" h (by decide) (by decide)⟩
    · exact ⟨_, by simp [configRules],
        hliteral _ ".obsidian/hotkeys.json" h (by decide) (by decide)⟩
  split at hpath
  · next hname =>
    obtain rfl := Option.some.inj hpath
    exact ⟨_, by simp [configRules],
      hliteral _ ".obsidian/core-plugins.json" hname (by decide) (by decide)⟩
  split at hpath
  · next hname =>
    obtain rfl := Option.some.inj hpath
    rw [Bool.or_eq_true, decide_eq_true_eq, Option.any_eq_true] at hname
    rcases hname with hname | ⟨file, hfile, hmem⟩
    · exact ⟨_, by simp [configRules],
        hliteral _ ".obsidian/community-plugins.json" hname (by decide) (by decide)⟩
    rw [List.contains_iff_mem] at hmem
    simp only [List.mem_cons, List.not_mem_nil, or_false] at hmem
    rcases hmem with rfl | rfl | rfl
    · exact ⟨_, by simp [configRules],
        hplugin _ "/manifest.json" hfile (by decide) (by decide) (by decide)⟩
    · exact ⟨_, by simp [configRules],
        hplugin _ "/main.js" hfile (by decide) (by decide) (by decide)⟩
    · exact ⟨_, by simp [configRules],
        hplugin _ "/styles.css" hfile (by decide) (by decide) (by decide)⟩
  split at hpath
  · next hfile =>
    obtain rfl := Option.some.inj hpath
    exact ⟨_, by simp [configRules],
      hplugin _ "/data.json" hfile (by decide) (by decide) (by decide)⟩
  split at hpath
  · next hstart =>
    obtain rfl := Option.some.inj hpath
    rcases Bool.or_eq_true_iff.mp hstart with hstart | hstart
    · exact ⟨_, by simp [configRules],
        hfolder ".obsidian/themes" _ hstart (by decide) (by decide) hreach⟩
    · exact ⟨_, by simp [configRules],
        hfolder ".obsidian/snippets" _ hstart (by decide) (by decide) hreach⟩
  split at hpath
  · next hfile =>
    obtain rfl := Option.some.inj hpath
    exact ⟨_, by simp [configRules], test_starRule_workspace hrel hfile hreach⟩
  · cases hpath

/-! ### All rules -/

variable {P : Platform}

theorem mem_rules_iff (configSync : ConfigCategory → ConfigSyncMode) {rule : IgnoreRule} :
    rule ∈ (SyncIgnore.create [] (localConfigIgnorePatterns configSync)).rules ↔
      rule ∈ (SyncIgnore.create [] []).rules ∨
        ∃ category, configSync category = .local ∧ rule ∈ configRules category := by
  simp only [SyncIgnore.create, List.append_nil, List.filterMap_append, List.mem_append]
  refine or_congr_right ?_
  rw [localConfigIgnorePatterns, List.filterMap_flatMap, List.mem_flatMap]
  simp only [filterMap_parseRule_configIgnorePatterns, List.mem_filter, decide_eq_true_eq]
  constructor
  · rintro ⟨category, ⟨-, hlocal⟩, hrule⟩
    exact ⟨category, hlocal, hrule⟩
  · rintro ⟨category, hlocal, hrule⟩
    exact ⟨category, ⟨by cases category <;> simp, hlocal⟩, hrule⟩

theorem not_negated_of_mem_rules (configSync : ConfigCategory → ConfigSyncMode) :
    ∀ rule ∈ (SyncIgnore.create [] (localConfigIgnorePatterns configSync)).rules,
      rule.negated = false := by
  have hdefaults : ∀ rule ∈ (SyncIgnore.create [] []).rules, rule.negated = false := by
    decide +kernel
  intro rule hrule
  rcases (mem_rules_iff configSync).mp hrule with hdefault | ⟨category, -, hmem⟩
  · exact hdefaults rule hdefault
  · cases category <;>
      simp only [configRules, List.mem_cons, List.not_mem_nil, or_false] at hmem <;>
      rcases hmem with rfl | rfl | rfl | rfl <;> rfl

/-- A path is ignored by the default patterns, or by those of a category that stays local. -/
theorem ignores_local_iff (configSync : ConfigCategory → ConfigSyncMode)
    (hpath : CanonicalPath P path) :
    (SyncIgnore.create [] (localConfigIgnorePatterns configSync)).ignores P path = true ↔
      (SyncIgnore.create [] []).ignores P path = true ∨
        ∃ category, configSync category = .local ∧ CategoryCovers category path := by
  have hdefaults : ∀ rule ∈ (SyncIgnore.create [] []).rules, rule.negated = false := by
    decide +kernel
  rw [ignores_iff_of_canonicalPath (not_negated_of_mem_rules configSync) hpath,
    ignores_iff_of_canonicalPath hdefaults hpath]
  simp only [mem_rules_iff, CategoryCovers]
  constructor
  · rintro ⟨rule, hdefault | ⟨category, hlocal, hrule⟩, htest⟩
    · exact Or.inl ⟨rule, hdefault, htest⟩
    · exact Or.inr ⟨category, hlocal, rule, hrule, htest⟩
  · rintro (⟨rule, hdefault, htest⟩ | ⟨category, hlocal, rule, hrule, htest⟩)
    · exact ⟨rule, Or.inl hdefault, htest⟩
    · exact ⟨rule, Or.inr ⟨category, hlocal, hrule⟩, htest⟩

/-- **The files of the configuration that are ignored**: those of a local category that its
patterns match, and of a common one those that the default patterns match.  Apart from these, what
is sent is what would be applied. -/
theorem ignores_config_iff (configSync : ConfigCategory → ConfigSyncMode)
    (hpath : CanonicalPath P path) (hcategory : categorizeConfigPath path = some category) :
    (configSync category = .local → InReach category path →
        (SyncIgnore.create [] (localConfigIgnorePatterns configSync)).ignores P path = true) ∧
      (configSync category = .common →
        (SyncIgnore.create [] (localConfigIgnorePatterns configSync)).ignores P path =
          (SyncIgnore.create [] []).ignores P path) ∧
      (InReach category path → (SyncIgnore.create [] []).ignores P path = false →
        (SyncIgnore.create [] (localConfigIgnorePatterns configSync)).ignores P path =
          !(shouldApplyConfigPath configSync path).applies) := by
  have hsegs : ∀ seg ∈ path.toList.splitOn '/', seg ≠ [] := by
    obtain ⟨htext, -, hvalid⟩ := normalizePath_eq_ok_iff.mp hpath
    rw [htext]
    exact fun seg hseg => (hvalid seg hseg).ne_nil
  have hlocal : configSync category = .local → InReach category path →
      (SyncIgnore.create [] (localConfigIgnorePatterns configSync)).ignores P path = true :=
    fun hmode hreach => (ignores_local_iff configSync hpath).mpr
      (Or.inr ⟨category, hmode, covers_of_category hcategory hreach⟩)
  have hcommon : configSync category = .common →
      (SyncIgnore.create [] (localConfigIgnorePatterns configSync)).ignores P path =
        (SyncIgnore.create [] []).ignores P path := by
    intro hmode
    rw [Bool.eq_iff_iff, ignores_local_iff configSync hpath]
    refine or_iff_left fun ⟨other, hother, hcovered⟩ => ?_
    rw [category_of_covers hsegs hcovered hcategory, hother] at hmode
    cases hmode
  refine ⟨hlocal, hcommon, fun hreach hdefault => ?_⟩
  cases hmode : configSync category with
  | «local» =>
    rw [hlocal hmode hreach, shouldApplyConfigPath, hcategory]
    dsimp only
    rw [hmode]
    rfl
  | common =>
    rw [hcommon hmode, hdefault, shouldApplyConfigPath, hcategory]
    dsimp only
    rw [hmode]
    rfl

end

theorem ignores_config_iff_snippet :
    categorizeConfigPath ".obsidian/snippets/a.css" = some .themesSnippets ∧
      (SyncIgnore.create [] (localConfigIgnorePatterns fun _ => .local)).ignores samplePlatform
        ".obsidian/snippets/a.css" = true := by
  have hcategory : categorizeConfigPath ".obsidian/snippets/a.css" = some .themesSnippets := by
    decide +kernel
  exact ⟨hcategory, (ignores_config_iff (P := samplePlatform) (fun _ => .local)
    (by decide +kernel) hcategory).1 rfl (by decide +kernel)⟩

/-- A common file that the default patterns match is ignored all the same. -/
theorem not_ignores_iff_local_category :
    ¬ ∀ (configSync : ConfigCategory → ConfigSyncMode) (path : String) (category : ConfigCategory),
      CanonicalPath samplePlatform path → categorizeConfigPath path = some category →
      (configSync category = .local →
        (SyncIgnore.create [] (localConfigIgnorePatterns configSync)).ignores samplePlatform path =
          true) ∧
      (configSync category = .common →
        (SyncIgnore.create [] (localConfigIgnorePatterns configSync)).ignores samplePlatform path =
          false) := by
  intro h
  have hcommon := (h (fun _ => .common) ".obsidian/snippets/.DS_Store" .themesSnippets
    (by decide +kernel) (by decide +kernel)).2 rfl
  revert hcommon
  decide +kernel

end ObsidianSync
