import ObsidianSync.Shared.Platform

/-!
# Paths

Canonical storage form of vault-relative paths, the folded form used to detect
collisions, and the numeric suffix that resolves one.

## Main definitions

* `normalizePath` — canonical form, or the reason there is none.
* `caseFoldPath` — the key under which two paths collide.
* `suffixPath` — `notes/a.md` to `notes/a (2).md`.
-/

namespace ObsidianSync

/-- What `normalizePath` throws. -/
structure PathValidationError where
  reason : String
  path : String
  deriving DecidableEq, Repr

/-- The text of the error. -/
def PathValidationError.message (e : PathValidationError) : String :=
  "Invalid path \"" ++ e.path ++ "\": " ++ e.reason

/-- Maximal bytes of a path segment. -/
def maxSegmentBytes : ℕ := 255

/-- Maximal bytes of a path. -/
def maxPathBytes : ℕ := 1024

/-- Windows device names, reserved with and without extension. -/
def windowsReserved : List String :=
  ["con", "prn", "aux", "nul",
    "com1", "com2", "com3", "com4", "com5", "com6", "com7", "com8", "com9",
    "lpt1", "lpt2", "lpt3", "lpt4", "lpt5", "lpt6", "lpt7", "lpt8", "lpt9"]

/-- `/[<>:"\\|?*\u0000-\u001f]/` on one character. -/
def illegalChar (c : Char) : Bool :=
  ['<', '>', ':', '"', '\\', '|', '?', '*'].contains c || decide (c.toNat ≤ 0x1f)

/-- The length in UTF-8, `new TextEncoder().encode(s).length`. -/
def byteLength (s : List Char) : ℕ := (encodeText (String.ofList s)).length

/-- `replace(/\/+/g, '/')`: runs of slashes become one. -/
def collapseSlashes : List Char → List Char
  | '/' :: '/' :: cs => collapseSlashes ('/' :: cs)
  | c :: cs => c :: collapseSlashes cs
  | [] => []

/-- Slashes collapsed and trimmed on both sides. -/
def trimSlashes (p : List Char) : List Char :=
  let p := (collapseSlashes p).dropWhile (· = '/')
  (p.reverse.dropWhile (· = '/')).reverse

/-- The checks on one path segment, in order. -/
def validateSegment (P : Platform) (seg : List Char) (raw : String) :
    Except PathValidationError Unit :=
  if seg = [] then .error ⟨"empty segment", raw⟩
  else if seg = ['.'] ∨ seg = ['.', '.'] then .error ⟨"dot segment", raw⟩
  else if byteLength seg > maxSegmentBytes then .error ⟨"segment too long", raw⟩
  else if seg.any illegalChar then .error ⟨"illegal character", raw⟩
  else if seg.getLast? = some ' ' ∨ seg.getLast? = some '.' then
    .error ⟨"trailing space or dot", raw⟩
  else if windowsReserved.contains
      (P.toLowerCase (String.ofList ((seg.splitOn '.').headD []))) then
    .error ⟨"reserved name", raw⟩
  else .ok ()

/-- The checks on all segments, stopping at the first failure. -/
def validateSegments (P : Platform) (raw : String) :
    List (List Char) → Except PathValidationError Unit
  | [] => .ok ()
  | seg :: segs =>
    match validateSegment P seg raw with
    | .error e => .error e
    | .ok _ => validateSegments P raw segs

/-- Canonical storage form of a raw path. -/
def normalizePath (P : Platform) (raw : String) : Except PathValidationError String :=
  -- NFC, separators unified, slashes collapsed and trimmed
  let p := trimSlashes ((P.normalizeNFC raw).toList.map fun c => if c = '\\' then '/' else c)
  if p = [] then .error ⟨"empty path", raw⟩
  else if byteLength p > maxPathBytes then .error ⟨"path too long", raw⟩
  else
    match validateSegments P raw (p.splitOn '/') with
    | .error e => .error e
    | .ok _ => .ok (String.ofList p)

/-- Whether `normalizePath` does not throw. -/
def isValidPath (P : Platform) (raw : String) : Bool :=
  match normalizePath P raw with
  | .error _ => false
  | .ok _ => true

theorem ne_empty_of_normalizePath {P : Platform} {raw path : String}
    (h : normalizePath P raw = .ok path) : path ≠ "" := by
  unfold normalizePath at h
  dsimp only at h
  split at h
  · simp at h
  next hne =>
  split at h
  · simp at h
  split at h
  · simp at h
  · rw [Except.ok.injEq] at h
    rintro rfl
    exact hne (by simpa using congrArg String.toList h)

/-- Case-folded key for collision detection. -/
def caseFoldPath (P : Platform) (canonicalPath : String) : String := P.toLowerCase canonicalPath

/-! ### Suffixes -/

/-- What stands before and after the last `c`. -/
def splitAtLast (c : Char) : List Char → Option (List Char × List Char)
  | [] => none
  | x :: xs =>
    match splitAtLast c xs with
    | some (before, after) => some (x :: before, after)
    | none => if x = c then some ([], xs) else none

/-- The parent directory, empty at the root, and the base name. -/
def splitPath (canonicalPath : String) : String × String :=
  match splitAtLast '/' canonicalPath.toList with
  | none => ("", canonicalPath)
  | some (dir, base) => (String.ofList dir, String.ofList base)

/-- A parent directory and a base name joined. -/
def joinPath (parentDir baseName : String) : String :=
  if parentDir = "" then baseName else parentDir ++ "/" ++ baseName

/-- The extension with its dot, empty if there is none. -/
def extname (canonicalPath : String) : String :=
  match splitAtLast '.' (splitPath canonicalPath).2.toList with
  | none => ""
  | some ([], _) => ""
  | some (_ :: _, ext) => "." ++ String.ofList ext

/-- The path with a numeric suffix before its extension. -/
def suffixPath (canonicalPath : String) (n : ℕ) : String :=
  let base := (splitPath canonicalPath).2
  let ext := extname base
  let stem := base.toList.take (base.toList.length - ext.toList.length)
  joinPath (splitPath canonicalPath).1
    (String.ofList stem ++ " (" ++ toString n ++ ")" ++ ext)

example : suffixPath "notes/a.md" 2 = "notes/a (2).md" := by decide

end ObsidianSync
