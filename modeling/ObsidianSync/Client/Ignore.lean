import ObsidianSync.Client.LocalIndex
import ObsidianSync.Lib.Glob
import ObsidianSync.Shared.Path

/-!
# What a device does not sync

The rules are the lines of the settings: globs that exclude a path, and those after an
exclamation mark that include it again.  The last rule that matches decides.

The regular expressions the globs are translated to match UTF-16 code units, so paths are
taken apart into these.

## Main definitions

* `globTokens`, `IgnoreRule` — a glob, and a rule with one.
* `parseRule` — the rule of a line.
* `SyncIgnore`, `SyncIgnore.ignores` — the rules, and whether they exclude a path.
* `localConfigIgnorePatterns` — the patterns of the configuration that stays local.
* `pluginIgnore` — the rules of the settings.

## Main results

* `ignores_add` — an added rule decides what it matches.
* `test_directory_iff` — the rule of a directory covers it and all below it.
-/

namespace ObsidianSync

/-! ### Globs -/

/-- The UTF-16 code units of a character. -/
def codeUnits (c : Char) : List ℕ :=
  if c.toNat < 0x10000 then [c.toNat]
  else [0xD800 + (c.toNat - 0x10000) / 0x400, 0xDC00 + (c.toNat - 0x10000) % 0x400]

/-- The code units of a path. -/
def pathUnits (path : String) : List ℕ := path.toList.flatMap codeUnits

/-- What `.` matches in a regular expression. -/
def isDot (u : ℕ) : Bool := !([0x0A, 0x0D, 0x2028, 0x2029].contains u)

/-- The code unit of a slash. -/
def slash : ℕ := '/'.toNat

/-- `[^/]`. -/
def isNotSlash (u : ℕ) : Bool := u ≠ slash

/-- The loop of `globToRegex`. -/
def globTokens : List Char → List (Glob.Token ℕ)
  | '*' :: '*' :: p => .many isDot :: globTokens p
  | '*' :: p => .many isNotSlash :: globTokens p
  | '?' :: p => .one isNotSlash :: globTokens p
  | c :: p => (codeUnits c).map .lit ++ globTokens p
  | [] => []

/-- A rule, with the parts of its regular expression. -/
structure IgnoreRule where
  negated : Bool
  directoryOnly : Bool
  anchored : Bool
  tokens : List (Glob.Token ℕ)

/-- `(/.*)?$` for a directory, else `$`. -/
def IgnoreRule.suffix (rule : IgnoreRule) (s : List ℕ) : Bool :=
  s.isEmpty || (rule.directoryOnly &&
    Glob.accepts List.isEmpty [.lit slash, .many isDot] s)

/-- `rule.regex.test(path)`: the glob from the start of the path, or for one without a slash
from behind any slash.  The search starts anywhere, and `.*` takes it to the slash. -/
def IgnoreRule.test (rule : IgnoreRule) (path : String) : Bool :=
  Glob.accepts rule.suffix rule.tokens (pathUnits path) ||
    (!rule.anchored &&
      Glob.accepts rule.suffix (.many (fun _ => true) :: .many isDot :: .lit slash :: rule.tokens)
        (pathUnits path))

/-- `globToRegex`. -/
def globRule (pattern : List Char) (negated directoryOnly : Bool) : IgnoreRule :=
  let p := (pattern.map fun c => if c = '\\' then '/' else c).dropWhile fun c => c = '/'
  let p := if directoryOnly then (p.reverse.dropWhile fun c => c = '/').reverse else p
  { negated, directoryOnly, anchored := p.contains '/', tokens := globTokens p }

/-- The rule a line stands for, if it is not blank or a comment. -/
def parseRule (raw : String) : Option IgnoreRule :=
  let trimmed := trimWhitespace raw.toList
  if trimmed.isEmpty || trimmed.head? = some '#' then none
  else
    let negated : Bool := trimmed.head? = some '!'
    let body := if negated then trimmed.drop 1 else trimmed
    if body.isEmpty then none
    else some (globRule body negated (body.getLast? = some '/'))

/-! ### The rules of a device -/

/-- What is never synchronised. -/
def defaultIgnorePatterns : List String :=
  [".obsidian/workspace*.json", ".trash/", ".git/", ".DS_Store", "**/.DS_Store"]

/-- The rules in their order, of which the last one that matches decides. -/
structure SyncIgnore where
  rules : List IgnoreRule

namespace SyncIgnore

/-- The constructor, with the two layers. -/
def create (common local' : List String) : SyncIgnore :=
  { rules := (defaultIgnorePatterns ++ common ++ local').filterMap parseRule }

/-- Whether a path is ignored. -/
def ignores (P : Platform) (ignore : SyncIgnore) (rawPath : String) : Bool :=
  match normalizePath P rawPath with
  | .error _ => true
  | .ok path =>
    ignore.rules.foldl (fun ignored rule => if rule.test path then !rule.negated else ignored) false

/-- The rules with one more. -/
def add (ignore : SyncIgnore) (rule : IgnoreRule) : SyncIgnore :=
  { rules := ignore.rules ++ [rule] }

/-- An added rule decides what it matches, and nothing else. -/
theorem ignores_add {P : Platform} {rawPath path : String}
    (hpath : normalizePath P rawPath = .ok path) (ignore : SyncIgnore) (rule : IgnoreRule) :
    (ignore.add rule).ignores P rawPath
      = if rule.test path then !rule.negated else ignore.ignores P rawPath := by
  simp only [ignores, add, hpath, List.foldl_append, List.foldl_cons, List.foldl_nil]

end SyncIgnore

/-- `parseIgnoreLines`. -/
def parseIgnoreLines (text : String) : List String :=
  let lines := (text.toList.splitOn '\n').map fun line => String.ofList (trimWhitespace line)
  lines.filter fun line => line ≠ ""

/-- The patterns of a category of the configuration. -/
def configIgnorePatterns : ConfigCategory → List String
  | .app => [".obsidian/app.json", ".obsidian/appearance.json", ".obsidian/hotkeys.json"]
  | .corePlugins => [".obsidian/core-plugins.json"]
  | .communityPlugins =>
    [".obsidian/community-plugins.json", ".obsidian/plugins/*/manifest.json",
      ".obsidian/plugins/*/main.js", ".obsidian/plugins/*/styles.css"]
  | .pluginSettings => [".obsidian/plugins/*/data.json"]
  | .themesSnippets => [".obsidian/themes/", ".obsidian/snippets/"]
  | .workspace => [".obsidian/workspace*.json"]

/-- The patterns of the categories that stay on the device. -/
def localConfigIgnorePatterns (configSync : ConfigCategory → ConfigSyncMode) : List String :=
  ([.app, .corePlugins, .communityPlugins, .pluginSettings, .themesSnippets, .workspace].filter
    fun category => configSync category = .local).flatMap configIgnorePatterns

/-- The rules of the settings. -/
def pluginIgnore (commonIgnore localIgnore : String)
    (configSync : ConfigCategory → ConfigSyncMode) : SyncIgnore :=
  SyncIgnore.create (parseIgnoreLines commonIgnore)
    (parseIgnoreLines localIgnore ++ localConfigIgnorePatterns configSync)

/-! ### What a rule covers -/

/-- What may follow the glob: nothing, or for a directory a slash and letters that a dot matches. -/
theorem IgnoreRule.suffix_iff {rule : IgnoreRule} {s : List ℕ} :
    rule.suffix s = true ↔ s = [] ∨ rule.directoryOnly = true ∧
      ∃ below, s = slash :: below ∧ ∀ u ∈ below, isDot u = true := by
  rw [IgnoreRule.suffix, Bool.or_eq_true, Bool.and_eq_true, List.isEmpty_iff]
  refine or_congr_right (and_congr_right fun _ => ?_)
  constructor
  · intro h
    cases s with
    | nil => simp [Glob.accepts] at h
    | cons u below =>
      rw [Glob.accepts_lit_cons, Bool.and_eq_true, decide_eq_true_eq, Glob.accepts_many,
        Glob.manyThen_iff] at h
      obtain ⟨rfl, dots, rest, rfl, hdots, hrest⟩ := h
      obtain rfl : rest = [] := by simpa using hrest
      exact ⟨dots, by rw [List.append_nil], hdots⟩
  · rintro ⟨below, rfl, hdots⟩
    rw [Glob.accepts_lit_cons, Glob.accepts_many, Bool.and_eq_true]
    exact ⟨decide_eq_true rfl, Glob.manyThen_iff.mpr ⟨below, [], by simp, hdots, rfl⟩⟩

/-- The rule of a directory covers it and all below it. -/
theorem test_directory_iff {name : List ℕ} {path : String} {negated : Bool} :
    IgnoreRule.test
        { negated, directoryOnly := true, anchored := true, tokens := name.map .lit } path = true ↔
      pathUnits path = name ∨
        ∃ below, pathUnits path = name ++ slash :: below ∧ ∀ u ∈ below, isDot u = true := by
  simp only [IgnoreRule.test, Bool.not_true, Bool.false_and, Bool.or_false, Glob.accepts_lits,
    IgnoreRule.suffix_iff]
  constructor
  · rintro ⟨v, hpath, rfl | ⟨-, below, rfl, hdots⟩⟩
    · exact Or.inl (by rwa [List.append_nil] at hpath)
    · exact Or.inr ⟨below, hpath, hdots⟩
  · rintro (hpath | ⟨below, hpath, hdots⟩)
    · exact ⟨[], by rw [hpath, List.append_nil], Or.inl rfl⟩
    · exact ⟨slash :: below, hpath, Or.inr ⟨trivial, below, rfl, hdots⟩⟩

example : (SyncIgnore.create ["*.tmp", "!keep.tmp"] ["private/"]).ignores samplePlatform
    "notes/private/a.md" = true := by decide +kernel

end ObsidianSync
