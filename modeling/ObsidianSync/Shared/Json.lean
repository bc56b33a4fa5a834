import ObsidianSync.Shared.Lamport

/-!
# JSON texts

Values as `JSON.parse` gives them and the text `JSON.stringify` makes of an
object of strings.  A string is a sequence of UTF-16 code units; one with a
lone surrogate has no counterpart here, and its text is not read.

## Main definitions

* `Json` — a value.
* `jsonStringify` — the text of an object whose fields are strings.
* `jsonParse` — the value of a text.

## Main results

* `jsonParse_jsonStringify` — such an object is read back.
-/

namespace ObsidianSync

/-- A JSON value, numbers by their literals. -/
inductive Json
  | null
  | bool (value : Bool)
  | num (literal : String)
  | str (value : String)
  | arr (items : List Json)
  | obj (fields : List (String × Json))

/-- `value[key]`; of two fields of one name the last counts. -/
def Json.field (value : Json) (key : String) : Option Json :=
  match value with
  | .obj fields => (fields.reverse.find? fun field => field.1 = key).map Prod.snd
  | _ => none

/-! ### Code units -/

/-- The characters of a sequence of code units without lone surrogates. -/
def ofUtf16 : List ℕ → Option (List Char)
  | [] => some []
  | [unit] => if unit.isValidChar then some [Char.ofNat unit] else none
  | high :: low :: rest =>
    if 0xD800 ≤ high ∧ high < 0xDC00 ∧ 0xDC00 ≤ low ∧ low < 0xE000 then
      (ofUtf16 rest).map
        (Char.ofNat (0x10000 + (high - 0xD800) * 0x400 + (low - 0xDC00)) :: ·)
    else if high.isValidChar then (ofUtf16 (low :: rest)).map (Char.ofNat high :: ·)
    else none

/-! ### Texts of strings -/

/-- A character of a string as `JSON.stringify` writes it. -/
def quoteChar (c : Char) : List Char :=
  if c = '"' then ['\\', '"']
  else if c = '\\' then ['\\', '\\']
  else if c.toNat = 8 then ['\\', 'b']
  else if c.toNat = 9 then ['\\', 't']
  else if c.toNat = 10 then ['\\', 'n']
  else if c.toNat = 12 then ['\\', 'f']
  else if c.toNat = 13 then ['\\', 'r']
  else if c.toNat < 32 then ['\\', 'u', '0', '0', hexDigit (c.toNat / 16), hexDigit c.toNat]
  else [c]

/-- A string in its quotes. -/
def quote (s : String) : List Char := '"' :: (s.toList.flatMap quoteChar ++ ['"'])

/-- The fields of an object, and the brace behind them. -/
def quoteFields : List (String × String) → List Char
  | [] => ['}']
  | [field] => quote field.1 ++ ':' :: (quote field.2 ++ ['}'])
  | field :: rest => quote field.1 ++ ':' :: (quote field.2 ++ ',' :: quoteFields rest)

/-- `JSON.stringify` of an object whose fields are strings. -/
def jsonStringify (fields : List (String × String)) : String :=
  String.ofList ('{' :: quoteFields fields)

/-! ### Reading -/

/-- The code unit for the letter of a short escape. -/
def unescape (c : Char) : Option ℕ :=
  if c = '"' ∨ c = '\\' ∨ c = '/' then some c.toNat
  else if c = 'b' then some 8
  else if c = 't' then some 9
  else if c = 'n' then some 10
  else if c = 'f' then some 12
  else if c = 'r' then some 13
  else none

/-- The value of a hexadecimal digit. -/
def hexValue (c : Char) : Option ℕ := hexDigits.idxOf? c.toLower

/-- The code unit of four hexadecimal digits. -/
def hexUnit (h₁ h₂ h₃ h₄ : Char) : Option ℕ := do
  some (((← hexValue h₁) * 16 + (← hexValue h₂)) * 256 + ((← hexValue h₃) * 16 + (← hexValue h₄)))

/-- The code units up to the closing quote, and what follows it. -/
def parseUnits : List Char → Option (List ℕ × List Char)
  | [] => none
  | c :: rest =>
    if c = '"' then some ([], rest)
    else if c = '\\' then
      match rest with
      | [] => none
      | e :: rest =>
        if e = 'u' then
          match rest with
          | h₁ :: h₂ :: h₃ :: h₄ :: rest =>
            (hexUnit h₁ h₂ h₃ h₄).bind fun unit =>
              (parseUnits rest).map fun read => (unit :: read.1, read.2)
          | _ => none
        else
          (unescape e).bind fun unit =>
            (parseUnits rest).map fun read => (unit :: read.1, read.2)
    else if c.toNat < 32 then none
    else (parseUnits rest).map fun read => (utf16Units c ++ read.1, read.2)

/-- The string up to the closing quote, and what follows it. -/
def parseString (text : List Char) : Option (String × List Char) :=
  (parseUnits text).bind fun read =>
    (ofUtf16 read.1).map fun cs => (String.ofList cs, read.2)

/-- The text without the blanks in front. -/
def skipSpace (text : List Char) : List Char :=
  text.dropWhile fun c => c = ' ' || c = '\n' || c = '\r' || c = '\t'

/-- The digits in front, at least one, and what follows. -/
def parseDigits (text : List Char) : Option (List Char × List Char) :=
  match text.span Char.isDigit with
  | ([], _) => none
  | read => some read

/-- A fraction or an exponent, if there is one that starts with such a letter. -/
def parsePart (starts : Char → Bool) (signed : Bool) (text : List Char) :
    Option (List Char × List Char) :=
  match text with
  | [] => some ([], [])
  | c :: rest =>
    if !starts c then some ([], c :: rest)
    else
      let (sign, rest) : List Char × List Char :=
        match rest with
        | s :: rest' => if signed && (s = '+' || s = '-') then ([s], rest') else ([], rest)
        | [] => ([], [])
      (parseDigits rest).map fun read => (c :: sign ++ read.1, read.2)

/-- A number, by its literal. -/
def parseNumber (text : List Char) : Option (Json × List Char) := do
  let (sign, text) : List Char × List Char :=
    match text with
    | '-' :: rest => (['-'], rest)
    | text => ([], text)
  let (whole, text) ← match text with
    | '0' :: rest => some (['0'], rest)
    | text => parseDigits text
  let (fraction, text) ← parsePart (· = '.') false text
  let (exponent, text) ← parsePart (fun c => c = 'e' || c = 'E') true text
  some (.num (String.ofList (sign ++ whole ++ fraction ++ exponent)), text)

mutual

/-- A value, and what follows it. -/
def parseValue : ℕ → List Char → Option (Json × List Char)
  | 0, _ => none
  | fuel + 1, text =>
    match skipSpace text with
    | '"' :: rest => (parseString rest).map fun read => (.str read.1, read.2)
    | '{' :: rest =>
      match skipSpace rest with
      | '}' :: rest => some (.obj [], rest)
      | rest => (parseFields fuel rest).map fun read => (.obj read.1, read.2)
    | '[' :: rest =>
      match skipSpace rest with
      | ']' :: rest => some (.arr [], rest)
      | rest => (parseItems fuel rest).map fun read => (.arr read.1, read.2)
    | 'n' :: 'u' :: 'l' :: 'l' :: rest => some (.null, rest)
    | 't' :: 'r' :: 'u' :: 'e' :: rest => some (.bool true, rest)
    | 'f' :: 'a' :: 'l' :: 's' :: 'e' :: rest => some (.bool false, rest)
    | text => parseNumber text

/-- The items of an array up to its bracket. -/
def parseItems : ℕ → List Char → Option (List Json × List Char)
  | 0, _ => none
  | fuel + 1, text =>
    (parseValue fuel text).bind fun item =>
      match skipSpace item.2 with
      | ',' :: rest => (parseItems fuel rest).map fun read => (item.1 :: read.1, read.2)
      | ']' :: rest => some ([item.1], rest)
      | _ => none

/-- The fields of an object up to its brace. -/
def parseFields : ℕ → List Char → Option (List (String × Json) × List Char)
  | 0, _ => none
  | fuel + 1, text =>
    match skipSpace text with
    | '"' :: rest =>
      (parseString rest).bind fun name =>
        match skipSpace name.2 with
        | ':' :: rest =>
          (parseValue fuel rest).bind fun value =>
            match skipSpace value.2 with
            | ',' :: rest =>
              (parseFields fuel rest).map fun read => ((name.1, value.1) :: read.1, read.2)
            | '}' :: rest => some ([(name.1, value.1)], rest)
            | _ => none
        | _ => none
    | _ => none

end

/-- `JSON.parse`, where it does not throw.  A value of `n` characters is not nested deeper, and
no longer, than `n`. -/
def jsonParse (text : String) : Option Json :=
  match parseValue (text.toList.length + 1) text.toList with
  | some (value, rest) => if skipSpace rest = [] then some value else none
  | none => none

/-! ### Reading what was written -/

theorem ofUtf16_unit {c : Char} (h : c.toNat < 0x10000) (units : List ℕ) :
    ofUtf16 (c.toNat :: units) = (ofUtf16 units).map (c :: ·) := by
  have hvalid : c.toNat.isValidChar := c.valid
  have hlone := toNat_not_surrogate c
  cases units with
  | nil => simp only [ofUtf16, if_pos hvalid, Char.ofNat_toNat, Option.map_some]
  | cons low rest =>
    have hpair : ¬ (0xD800 ≤ c.toNat ∧ c.toNat < 0xDC00 ∧ 0xDC00 ≤ low ∧ low < 0xE000) := by omega
    simp only [ofUtf16, if_neg hpair, if_pos hvalid, Char.ofNat_toNat]

theorem ofUtf16_pair {c : Char} (h : ¬ c.toNat < 0x10000) (units : List ℕ) :
    ofUtf16 ((0xD800 + (c.toNat - 0x10000) / 0x400) ::
        (0xDC00 + (c.toNat - 0x10000) % 0x400) :: units)
      = (ofUtf16 units).map (c :: ·) := by
  have hmax := toNat_not_surrogate c
  have hback : 0x10000 + (0xD800 + (c.toNat - 0x10000) / 0x400 - 0xD800) * 0x400 +
      (0xDC00 + (c.toNat - 0x10000) % 0x400 - 0xDC00) = c.toNat := by
    omega
  rw [ofUtf16, if_pos (by omega), hback, Char.ofNat_toNat]

/-- The code units of a text give it back. -/
theorem ofUtf16_flatMap (cs : List Char) : ofUtf16 (cs.flatMap utf16Units) = some cs := by
  induction cs with
  | nil => rfl
  | cons c cs ih =>
    rw [List.flatMap_cons, utf16Units]
    split
    · next h => rw [List.singleton_append, ofUtf16_unit h, ih]; rfl
    · next h => rw [List.cons_append, List.singleton_append, ofUtf16_pair h, ih]; rfl

theorem hexValue_hexDigit : ∀ n < 16, hexValue (hexDigit n) = some n := by decide +kernel

theorem parseUnits_close (rest : List Char) : parseUnits ('"' :: rest) = some ([], rest) := by
  rw [parseUnits.eq_def]
  exact if_pos rfl

/-- A short escape. -/
theorem parseUnits_short {e : Char} {unit : ℕ} (he : e ≠ 'u') (hunit : unescape e = some unit)
    (rest : List Char) :
    parseUnits ('\\' :: e :: rest)
      = (parseUnits rest).map fun read => (unit :: read.1, read.2) := by
  rw [parseUnits.eq_def]
  simp [he, hunit]

/-- An escape by digits. -/
theorem parseUnits_hex {h₁ h₂ h₃ h₄ : Char} {unit : ℕ} (hunit : hexUnit h₁ h₂ h₃ h₄ = some unit)
    (rest : List Char) :
    parseUnits ('\\' :: 'u' :: h₁ :: h₂ :: h₃ :: h₄ :: rest)
      = (parseUnits rest).map fun read => (unit :: read.1, read.2) := by
  rw [parseUnits.eq_def]
  simp [hunit]

/-- What `quoteChar` writes is read as the code units of the character. -/
theorem parseUnits_quoteChar (c : Char) (rest : List Char) :
    parseUnits (quoteChar c ++ rest)
      = (parseUnits rest).map fun read => (utf16Units c ++ read.1, read.2) := by
  unfold quoteChar
  split
  · next h => subst h; exact parseUnits_short (by decide) rfl rest
  split
  · next h => subst h; exact parseUnits_short (by decide) rfl rest
  split
  · next h => rw [utf16Units, h]; exact parseUnits_short (by decide) rfl rest
  split
  · next h => rw [utf16Units, h]; exact parseUnits_short (by decide) rfl rest
  split
  · next h => rw [utf16Units, h]; exact parseUnits_short (by decide) rfl rest
  split
  · next h => rw [utf16Units, h]; exact parseUnits_short (by decide) rfl rest
  split
  · next h => rw [utf16Units, h]; exact parseUnits_short (by decide) rfl rest
  split
  · next h =>
    have hhigh := hexValue_hexDigit (c.toNat / 16) (by omega)
    have hlow : hexValue (hexDigit c.toNat) = some (c.toNat % 16) := by
      rw [← hexValue_hexDigit (c.toNat % 16) (Nat.mod_lt _ (by decide)), hexDigit, hexDigit,
        Nat.mod_mod]
    have hzero : hexValue '0' = some 0 := by decide
    have hback : c.toNat / 16 * 16 + c.toNat % 16 = c.toNat := by omega
    have hunit : hexUnit '0' '0' (hexDigit (c.toNat / 16)) (hexDigit c.toNat) = some c.toNat := by
      simp [hexUnit, hzero, hhigh, hlow, hback]
    rw [show utf16Units c = [c.toNat] from if_pos (by omega)]
    exact parseUnits_hex hunit rest
  · next hquote hslash _ _ _ _ _ hplain =>
    rw [List.singleton_append, parseUnits.eq_def]
    simp [hquote, hslash, hplain]

theorem parseString_quote (s : String) (rest : List Char) :
    parseString (s.toList.flatMap quoteChar ++ '"' :: rest) = some (s, rest) := by
  have hunits : ∀ cs : List Char,
      parseUnits (cs.flatMap quoteChar ++ '"' :: rest) = some (cs.flatMap utf16Units, rest) := by
    intro cs
    induction cs with
    | nil => exact parseUnits_close rest
    | cons c cs ih =>
      rw [List.flatMap_cons, List.append_assoc, parseUnits_quoteChar, ih]
      rfl
  rw [parseString, hunits, Option.bind_some, ofUtf16_flatMap, Option.map_some, String.ofList_toList]

theorem skipSpace_quote (s : String) (rest : List Char) :
    skipSpace (quote s ++ rest) = '"' :: (s.toList.flatMap quoteChar ++ '"' :: rest) := by
  rw [quote, List.cons_append, List.append_assoc]
  rfl

theorem parseValue_quote (fuel : ℕ) (s : String) (rest : List Char) :
    parseValue (fuel + 1) (quote s ++ rest) = some (.str s, rest) := by
  rw [parseValue, skipSpace_quote]
  show (parseString _).map _ = _
  rw [parseString_quote]
  rfl

/-- A field, and what follows its value. -/
theorem parseFields_quote (fuel : ℕ) (name value : String) (rest : List Char) :
    parseFields (fuel + 2) (quote name ++ ':' :: (quote value ++ rest))
      = match skipSpace rest with
        | ',' :: rest =>
          (parseFields (fuel + 1) rest).map fun read => ((name, .str value) :: read.1, read.2)
        | '}' :: rest => some ([(name, .str value)], rest)
        | _ => none := by
  rw [parseFields, skipSpace_quote]
  show (parseString _).bind _ = _
  rw [parseString_quote]
  show (parseValue (fuel + 1) _).bind _ = _
  rw [parseValue_quote]
  rfl

/-- The fields of an object of strings. -/
theorem parseFields_quoteFields {fields : List (String × String)} (hfields : fields ≠ [])
    {fuel : ℕ} (hfuel : fields.length < fuel) :
    parseFields fuel (quoteFields fields)
      = some (fields.map fun field => (field.1, .str field.2), []) := by
  induction fields generalizing fuel with
  | nil => exact absurd rfl hfields
  | cons field fields ih =>
    rw [List.length_cons] at hfuel
    obtain ⟨fuel, rfl⟩ : ∃ n, fuel = n + 2 := ⟨fuel - 2, by omega⟩
    cases fields with
    | nil =>
      rw [quoteFields, parseFields_quote]
      rfl
    | cons next rest =>
      rw [quoteFields, parseFields_quote]
      · show (parseFields (fuel + 1) (quoteFields (next :: rest))).map _ = _
        rw [ih (List.cons_ne_nil next rest) (by omega)]
        rfl
      · exact fun h => List.cons_ne_nil next rest h

/-- Texts are not shorter than the number of their fields. -/
theorem length_le_quoteFields (fields : List (String × String)) :
    fields.length ≤ (quoteFields fields).length := by
  induction fields with
  | nil => exact Nat.zero_le _
  | cons field fields ih =>
    cases fields with
    | nil => exact Nat.succ_le_of_lt (List.length_pos_of_ne_nil (List.cons_ne_nil '"' _))
    | cons next rest =>
      rw [quoteFields]
      · simp only [List.length_append, List.length_cons] at ih ⊢
        omega
      · exact fun h => List.cons_ne_nil next rest h

/-- **An object of strings is read back.** -/
theorem jsonParse_jsonStringify (fields : List (String × String)) :
    jsonParse (jsonStringify fields)
      = some (.obj (fields.map fun field => (field.1, .str field.2))) := by
  have htext : (jsonStringify fields).toList = '{' :: quoteFields fields := String.toList_ofList
  have hvalue : parseValue ((quoteFields fields).length + 1 + 1) ('{' :: quoteFields fields)
      = some (.obj (fields.map fun field => (field.1, .str field.2)), []) := by
    rw [parseValue]
    cases fields with
    | nil => rfl
    | cons field fields =>
      have hread := parseFields_quoteFields (List.cons_ne_nil field fields)
        (Nat.lt_succ_of_le (length_le_quoteFields (field :: fields)))
      obtain ⟨rest, hquote⟩ : ∃ rest, quoteFields (field :: fields) = '"' :: rest := by
        cases fields <;> exact ⟨_, rfl⟩
      rw [hquote] at hread ⊢
      show (parseFields _ ('"' :: rest)).map _ = _
      rw [hread]
      rfl
  rw [jsonParse, htext, List.length_cons, hvalue]
  rfl

end ObsidianSync
