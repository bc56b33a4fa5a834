import Mathlib.Data.List.Basic
import Mathlib.Data.List.GetD
import Mathlib.Data.String.Basic

/-!
# Platform functions

What the program takes from its JavaScript platform.  SHA-256, Unicode
normalization and Unicode case folding are parameters, collected in `Platform`;
the text codec, the comparison of strings and the hexadecimal rendering of a
digest are computed here.

## Main definitions

* `Platform` — the digest, `String.prototype.normalize('NFC')` and
  `String.prototype.toLowerCase`.
* `encodeText`, `decodeText` — `TextEncoder` and `TextDecoder`.
* `utf16Lt` — the order `<` on JavaScript strings.
* `increment` — `n + 1` on JavaScript numbers.
* `trimWhitespace` — `String.prototype.trim`.
* `Collation` — `String.prototype.localeCompare`, or the collation of a database.
* `contentHash`, `contentHashText`, `isValidContentHash` — content addressing.

## Main results

* `isValidContentHash_contentHash` — the hashes the program computes pass its
  own format check.
* `decodeText_encodeText` — decoding an encoded text gives it back unless it
  starts with a byte order mark, which `TextDecoder` drops.
-/

namespace ObsidianSync

/-- A point in time, in milliseconds. -/
abbrev Time := ℕ

/-- A byte string, `Uint8Array`. -/
abbrev Bytes := List UInt8

/-- What holds of the characters of a list is decided by going through the list. -/
instance (priority := high) decidableForallMemChar {p : Char → Prop} [DecidablePred p]
    (cs : List Char) : Decidable (∀ c ∈ cs, p c) :=
  List.decidableBAll p cs

/-- The functions the platform provides. -/
structure Platform where
  /-- `crypto.subtle.digest('SHA-256', _)`: 32 bytes. -/
  sha256 : Bytes → { bs : Bytes // bs.length = 32 }
  /-- `raw.normalize('NFC')`. -/
  normalizeNFC : String → String
  /-- `s.toLowerCase()`. -/
  toLowerCase : String → String
  /-- `TextDecoder` on bytes that are not UTF-8: replacement characters. -/
  decodeLossy : Bytes → String

/-! ### Numbers

A JavaScript number is a double.  Every integer up to `2 ^ 53` is one, from there to `2 ^ 54` the
even integers are, and above that numbers are 4 or more apart. -/

/-- `n + 1`.  Where the sum is no number it is rounded to the nearest one; from `2 ^ 53` to
`2 ^ 54` it is in the middle of two, and the multiple of 4 is taken. -/
def increment (n : ℕ) : ℕ :=
  if n < 2 ^ 53 then n + 1
  else if n < 2 ^ 54 ∧ 2 ≤ n % 4 then n + (4 - n % 4)
  else n

/-- Whether one can count on from a number. -/
def CountsUp (n : ℕ) : Prop := n < increment n

instance (n : ℕ) : Decidable (CountsUp n) := inferInstanceAs (Decidable (_ < _))

theorem increment_of_lt {n : ℕ} (h : n < 2 ^ 53) : increment n = n + 1 := if_pos h

theorem countsUp_of_lt {n : ℕ} (h : n < 2 ^ 53) : CountsUp n := by
  rw [CountsUp, increment_of_lt h]
  exact Nat.lt_succ_self n

theorem le_increment (n : ℕ) : n ≤ increment n := by
  unfold increment
  split_ifs <;> omega

theorem increment_mono {m n : ℕ} (h : m ≤ n) : increment m ≤ increment n := by
  unfold increment
  split_ifs <;> omega

/-! ### Optional strings

JavaScript's `if (s)` is false for `undefined`, for `null` and for the empty
string, whereas `s ?? t` only replaces the first two. -/

/-- Whether an optional string passes `if (s)`. -/
def truthy : Option String → Bool
  | none => false
  | some s => s ≠ ""

@[simp] theorem truthy_none : truthy none = false := rfl

@[simp] theorem truthy_some (s : String) : truthy (some s) = decide (s ≠ "") := rfl

/-! ### Trimming -/

/-- The white space of `trim`. -/
def isTrimmed (c : Char) : Bool :=
  [0x09, 0x0A, 0x0B, 0x0C, 0x0D, 0x20, 0xA0, 0x1680, 0x2000, 0x2001, 0x2002, 0x2003, 0x2004,
    0x2005, 0x2006, 0x2007, 0x2008, 0x2009, 0x200A, 0x2028, 0x2029, 0x202F, 0x205F, 0x3000,
    0xFEFF].contains c.toNat

/-- `s.trim()`. -/
def trimWhitespace (s : List Char) : List Char :=
  ((s.dropWhile isTrimmed).reverse.dropWhile isTrimmed).reverse

/-! ### Collations -/

/-- A comparison of texts by some locale or collation: a total preorder. -/
structure Collation where
  compare : String → String → Ordering
  trans : Std.TransCmp compare

instance (collation : Collation) : Std.TransCmp collation.compare := collation.trans

/-- Things are compared by a text of theirs. -/
theorem Collation.transCmp_on {α : Type} (collation : Collation) (text : α → String) :
    Std.TransCmp fun a b => collation.compare (text a) (text b) where
  eq_swap := collation.trans.eq_swap
  isLE_trans := collation.trans.isLE_trans

/-! ### The text codec -/

/-- `new TextEncoder().encode(text)`. -/
def encodeText (text : String) : Bytes := text.toUTF8.data.toList

/-- The UTF-8 form of U+FEFF, which `TextDecoder` drops from the front. -/
def byteOrderMark : Bytes := [0xEF, 0xBB, 0xBF]

/-- The bytes without a leading byte order mark. -/
def stripByteOrderMark : Bytes → Bytes
  | 0xEF :: 0xBB :: 0xBF :: bytes => bytes
  | bytes => bytes

/-- `new TextDecoder().decode(bytes)`. -/
def decodeText (P : Platform) (bytes : Bytes) : String :=
  let body := stripByteOrderMark bytes
  (String.fromUTF8? ⟨body.toArray⟩).getD (P.decodeLossy body)

/-- Whether `TextDecoder` gives the text back unchanged: it has no leading byte
order mark. -/
def keepsText (text : String) : Bool := !byteOrderMark.isPrefixOf (encodeText text)

theorem stripByteOrderMark_of_not_isPrefixOf {bytes : Bytes}
    (h : byteOrderMark.isPrefixOf bytes = false) : stripByteOrderMark bytes = bytes := by
  unfold stripByteOrderMark
  split
  · next bytes => simp [byteOrderMark] at h
  · rfl

theorem decodeText_encodeText (P : Platform) {text : String} (h : keepsText text = true) :
    decodeText P (encodeText text) = text := by
  have hstrip : stripByteOrderMark (encodeText text) = encodeText text :=
    stripByteOrderMark_of_not_isPrefixOf (by simpa [keepsText] using h)
  have hback : (⟨(encodeText text).toArray⟩ : ByteArray) = text.toUTF8 := by
    simp [encodeText]
  simp only [decodeText, hstrip, hback, String.fromUTF8?, String.toUTF8_eq_toByteArray,
    dif_pos text.isValidUTF8]
  rfl

/-! ### Comparing strings -/

/-- The UTF-16 code units of a character. -/
def utf16Units (c : Char) : List ℕ :=
  if c.toNat < 0x10000 then [c.toNat]
  else [0xD800 + (c.toNat - 0x10000) / 0x400, 0xDC00 + (c.toNat - 0x10000) % 0x400]

/-- `a < b` on JavaScript strings: lexicographic on UTF-16 code units. -/
def utf16Lt (a b : String) : Bool :=
  decide (a.toList.flatMap utf16Units < b.toList.flatMap utf16Units)

/-! ### Content hashes -/

/-- The digits of `toHex`. -/
def hexDigits : List Char := "0123456789abcdef".toList

/-- The digit for the low four bits of `n`. -/
def hexDigit (n : ℕ) : Char := hexDigits.getD (n % 16) '0'

/-- Lowercase hexadecimal, two digits a byte. -/
def toHex (bytes : Bytes) : List Char :=
  bytes.flatMap fun b => [hexDigit (b.toNat / 16), hexDigit b.toNat]

/-- The prefix that keeps content hashes apart from other strings. -/
def hashPrefix : String := "sha256:"

/-- `contentHash`: the hash under which the bytes are stored. -/
def contentHash (P : Platform) (data : Bytes) : String :=
  String.ofList (hashPrefix.toList ++ toHex (P.sha256 data).1)

/-- `contentHashText`: the hash of a text. -/
def contentHashText (P : Platform) (text : String) : String := contentHash P (encodeText text)

/-- `/^sha256:[0-9a-f]{64}$/`. -/
def isValidContentHash (value : String) : Bool :=
  let digits := value.toList.drop 7
  value.toList.take 7 == hashPrefix.toList && digits.length == 64 &&
    digits.all fun c => hexDigits.contains c

theorem length_toHex (bytes : Bytes) : (toHex bytes).length = 2 * bytes.length := by
  induction bytes with
  | nil => rfl
  | cons b bytes ih => simp_all [toHex]; omega

theorem hexDigit_mem (n : ℕ) : hexDigit n ∈ hexDigits := by
  have hlt : n % 16 < hexDigits.length := Nat.mod_lt n (by decide)
  rw [hexDigit, List.getD_eq_getElem _ _ hlt]
  exact List.getElem_mem hlt

theorem mem_toHex {bytes : Bytes} {c : Char} (h : c ∈ toHex bytes) : c ∈ hexDigits := by
  simp only [toHex, List.mem_flatMap, List.mem_cons, List.not_mem_nil, or_false] at h
  obtain ⟨b, -, rfl | rfl⟩ := h <;> exact hexDigit_mem _

theorem isValidContentHash_contentHash (P : Platform) (data : Bytes) :
    isValidContentHash (contentHash P data) = true := by
  have hlen : hashPrefix.toList.length = 7 := by decide
  have htake : (hashPrefix.toList ++ toHex (P.sha256 data).1).take 7 = hashPrefix.toList := by
    rw [← hlen, List.take_left]
  have hdrop : (hashPrefix.toList ++ toHex (P.sha256 data).1).drop 7
      = toHex (P.sha256 data).1 := by
    rw [← hlen, List.drop_left]
  simp only [isValidContentHash, contentHash, String.toList_ofList, htake, hdrop, length_toHex,
    (P.sha256 data).2, Bool.and_eq_true, beq_iff_eq, List.all_eq_true, List.contains_iff_mem]
  exact ⟨⟨trivial, trivial⟩, fun c hc => mem_toHex hc⟩

theorem ne_empty_of_isValidContentHash {value : String} (h : isValidContentHash value = true) :
    value ≠ "" := by
  rintro rfl
  revert h
  decide

/-! ### A platform to compute with -/

/-- SHA-256 of a few texts. -/
def sampleDigests : List (String × { bs : Bytes // bs.length = 32 }) :=
  [
    ("", ⟨[
      0xe3, 0xb0, 0xc4, 0x42, 0x98, 0xfc, 0x1c, 0x14, 0x9a, 0xfb, 0xf4,
      0xc8, 0x99, 0x6f, 0xb9, 0x24, 0x27, 0xae, 0x41, 0xe4, 0x64, 0x9b,
      0x93, 0x4c, 0xa4, 0x95, 0x99, 0x1b, 0x78, 0x52, 0xb8, 0x55], rfl⟩),
    ("one", ⟨[
      0x76, 0x92, 0xc3, 0xad, 0x35, 0x40, 0xbb, 0x80, 0x3c, 0x02, 0x0b,
      0x3a, 0xee, 0x66, 0xcd, 0x88, 0x87, 0x12, 0x32, 0x34, 0xea, 0x0c,
      0x6e, 0x71, 0x43, 0xc0, 0xad, 0xd7, 0x3f, 0xf4, 0x31, 0xed], rfl⟩),
    ("two", ⟨[
      0x3f, 0xc4, 0xcc, 0xfe, 0x74, 0x58, 0x70, 0xe2, 0xc0, 0xd9, 0x9f,
      0x71, 0xf3, 0x0f, 0xf0, 0x65, 0x6c, 0x8d, 0xed, 0xd4, 0x1c, 0xc1,
      0xd7, 0xd3, 0xd3, 0x76, 0xb0, 0xdb, 0xe6, 0x85, 0xe2, 0xf3], rfl⟩),
    ("three", ⟨[
      0x8b, 0x5b, 0x9d, 0xb0, 0xc1, 0x3d, 0xb2, 0x42, 0x56, 0xc8, 0x29,
      0xaa, 0x36, 0x4a, 0xa9, 0x0c, 0x6d, 0x2e, 0xba, 0x31, 0x8b, 0x92,
      0x32, 0xa4, 0xab, 0x93, 0x13, 0xb9, 0x54, 0xd3, 0x55, 0x5f], rfl⟩)
  ]

/-- A platform that agrees with the real one on ASCII paths and on the texts of
`sampleDigests`. -/
def samplePlatform : Platform where
  sha256 bytes :=
    match sampleDigests.find? fun entry => encodeText entry.1 = bytes with
    | some entry => entry.2
    | none => ⟨List.replicate 32 0, List.length_replicate⟩
  normalizeNFC raw := raw
  toLowerCase s := String.ofList (s.toList.map Char.toLower)
  decodeLossy _ := "\uFFFD"

example : contentHashText samplePlatform "one" =
    "sha256:7692c3ad3540bb803c020b3aee66cd8887123234ea0c6e7143c0add73ff431ed" := by decide

end ObsidianSync
