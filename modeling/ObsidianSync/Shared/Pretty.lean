import Mathlib.Data.List.TakeDrop
import ObsidianSync.Shared.Json

/-!
# Indented JSON texts

The text that `JSON.stringify(value, null, 2)` makes of a value, and that `JSON.parse`
reads it back.

## Main definitions

* `Json.pretty` — the text of a value at a depth.
* `Json.Readable` — the numbers of a value are literals that are read as they are written.

## Main results

* `jsonParse_pretty` — the text of a value, and a line feed behind it, is read as the value.
-/

namespace ObsidianSync

/-! ### Texts -/

/-- A new line, indented to a depth. -/
def newline (depth : ℕ) : List Char := '\n' :: List.replicate (2 * depth) ' '

mutual

/-- `JSON.stringify(value, null, 2)`, at a depth. -/
def Json.pretty (depth : ℕ) : Json → List Char
  | .null => ['n', 'u', 'l', 'l']
  | .bool true => ['t', 'r', 'u', 'e']
  | .bool false => ['f', 'a', 'l', 's', 'e']
  | .num literal => literal.toList
  | .str value => quote value
  | .arr [] => ['[', ']']
  | .arr (item :: items) =>
    '[' :: (newline (depth + 1) ++ (Json.pretty (depth + 1) item ++
      (prettyItems (depth + 1) items ++ (newline depth ++ [']']))))
  | .obj [] => ['{', '}']
  | .obj ((name, value) :: fields) =>
    '{' :: (newline (depth + 1) ++ (quote name ++ (':' :: ' ' ::
      (Json.pretty (depth + 1) value ++
        (prettyFields (depth + 1) fields ++ (newline depth ++ ['}']))))))

/-- The items after the first. -/
def prettyItems (depth : ℕ) : List Json → List Char
  | [] => []
  | item :: items =>
    ',' :: (newline depth ++ (Json.pretty depth item ++ prettyItems depth items))

/-- The fields after the first. -/
def prettyFields (depth : ℕ) : List (String × Json) → List Char
  | [] => []
  | (name, value) :: fields =>
    ',' :: (newline depth ++ (quote name ++ (':' :: ' ' ::
      (Json.pretty depth value ++ prettyFields depth fields))))

end

/-! ### Numbers -/

/-- What can follow a value: nothing, or what ends it. -/
def EndsValue (rest : List Char) : Prop :=
  ∀ c ∈ rest.head?, c = ',' ∨ c = '\n' ∨ c = ']' ∨ c = '}'

/-- A literal that is read as it is written, whatever comes next. -/
def IsLiteral (literal : String) : Prop :=
  (∃ c cs, literal.toList = c :: cs ∧ (c = '-' ∨ c.isDigit)) ∧
    ∀ rest, EndsValue rest →
      parseNumber (literal.toList ++ rest) = some (.num literal, rest)

theorem parsePart_of_endsValue {rest : List Char} (h : EndsValue rest) (starts : Char → Bool)
    (signed : Bool) (hstarts : ∀ c ∈ [',', '\n', ']', '}'], starts c = false) :
    parsePart starts signed rest = some ([], rest) := by
  cases rest with
  | nil => rfl
  | cons c rest =>
    have hc : starts c = false := hstarts c (by simpa using h c rfl)
    simp [parsePart, hc]

theorem isLiteral_zero : IsLiteral "0" := by
  have htext : "0".toList = ['0'] := by decide
  refine ⟨⟨'0', [], htext, Or.inr (by decide)⟩, fun rest hrest => ?_⟩
  have hfraction := parsePart_of_endsValue hrest (· = '.') false (by decide)
  have hexponent := parsePart_of_endsValue hrest (fun c => c = 'e' || c = 'E') true (by decide)
  have hback : String.ofList ['0'] = "0" := by rw [← htext, String.ofList_toList]
  rw [htext, List.singleton_append, parseNumber]
  simp only [hfraction, hexponent, Option.bind_eq_bind, Option.bind_some, hback, List.nil_append,
    List.append_nil]

/-- Digits of which the first is not zero. -/
theorem isLiteral_of_digits {literal : String} {c : Char} {cs : List Char}
    (hliteral : literal.toList = c :: cs) (hzero : c ≠ '0')
    (hdigits : ∀ d ∈ c :: cs, d.isDigit = true) : IsLiteral literal := by
  refine ⟨⟨c, cs, hliteral, Or.inr (hdigits c List.mem_cons_self)⟩, fun rest hrest => ?_⟩
  have hminus : c ≠ '-' := by
    rintro rfl
    exact absurd (hdigits _ List.mem_cons_self) (by decide)
  have hspan : (c :: cs ++ rest).span Char.isDigit = (c :: cs, rest) := by
    have hnone : rest.takeWhile Char.isDigit = [] ∧ rest.dropWhile Char.isDigit = rest := by
      cases rest with
      | nil => exact ⟨rfl, rfl⟩
      | cons d rest =>
        have hd : d.isDigit = false := by
          rcases hrest d rfl with rfl | rfl | rfl | rfl <;> rfl
        simp [hd]
    rw [List.span_eq_takeWhile_dropWhile, List.takeWhile_append_of_pos hdigits,
      List.dropWhile_append_of_pos hdigits, hnone.1, hnone.2, List.append_nil]
  have hread : parseDigits (c :: cs ++ rest) = some (c :: cs, rest) := by
    rw [parseDigits, hspan]
  have hback : String.ofList (c :: cs) = literal := by rw [← hliteral, String.ofList_toList]
  have hfraction := parsePart_of_endsValue hrest (· = '.') false (by decide)
  have hexponent := parsePart_of_endsValue hrest (fun c => c = 'e' || c = 'E') true (by decide)
  rw [hliteral, parseNumber]
  · simp only [hread, hfraction, hexponent, Option.bind_eq_bind, Option.bind_some, hback,
      List.nil_append, List.append_nil]
  · rintro other heq
    exact hminus (List.cons.inj heq).1
  · rintro other heq
    exact hzero (List.cons.inj heq).1

mutual

/-- The numbers of a value are such literals. -/
def Json.Readable : Json → Prop
  | .num literal => IsLiteral literal
  | .arr items => ReadableItems items
  | .obj fields => ReadableFields fields
  | _ => True

/-- All items of an array are readable. -/
def ReadableItems : List Json → Prop
  | [] => True
  | item :: items => Json.Readable item ∧ ReadableItems items

/-- The values of all fields are readable. -/
def ReadableFields : List (String × Json) → Prop
  | [] => True
  | (_, value) :: fields => Json.Readable value ∧ ReadableFields fields

end

/-! ### Reading -/

theorem skipSpace_newline (depth : ℕ) (rest : List Char) :
    skipSpace (newline depth ++ rest) = skipSpace rest := by
  have hblanks : ∀ n, skipSpace (List.replicate n ' ' ++ rest) = skipSpace rest := by
    intro n
    induction n with
    | zero => rfl
    | succ n ih => rw [List.replicate_succ, List.cons_append]; exact ih
  exact hblanks (2 * depth)

theorem skipSpace_blank (rest : List Char) : skipSpace (' ' :: rest) = skipSpace rest := rfl

/-- A value starts with no blank, and with none of the signs that end one. -/
def StartsValue (c : Char) : Prop :=
  c ≠ ' ' ∧ c ≠ '\n' ∧ c ≠ '\r' ∧ c ≠ '\t' ∧ c ≠ ']' ∧ c ≠ '}'

instance (c : Char) : Decidable (StartsValue c) := inferInstanceAs (Decidable (_ ∧ _))

theorem skipSpace_of_startsValue {c : Char} (h : StartsValue c) (rest : List Char) :
    skipSpace (c :: rest) = c :: rest := by
  obtain ⟨hblank, hline, hreturn, htab, -, -⟩ := h
  simp [skipSpace, hblank, hline, hreturn, htab]

theorem exists_pretty_cons (depth : ℕ) (value : Json) (h : value.Readable) :
    ∃ c cs, Json.pretty depth value = c :: cs ∧ StartsValue c := by
  cases value with
  | null => exact ⟨'n', _, rfl, by decide⟩
  | bool value => cases value <;> exact ⟨_, _, rfl, by decide⟩
  | num literal =>
    obtain ⟨⟨c, cs, hliteral, hfirst⟩, -⟩ := h
    refine ⟨c, cs, hliteral, ?_⟩
    rcases hfirst with rfl | hdigit
    · decide
    · refine ⟨?_, ?_, ?_, ?_, ?_, ?_⟩ <;> rintro rfl <;> exact absurd hdigit (by decide)
  | str value => exact ⟨'"', _, rfl, by decide⟩
  | arr items => cases items <;> exact ⟨'[', _, rfl, by decide⟩
  | obj fields => cases fields <;> exact ⟨'{', _, rfl, by decide⟩

/-- A value may stand on a new line. -/
theorem parseValue_newline (depth fuel : ℕ) (text : List Char) :
    parseValue fuel (newline depth ++ text) = parseValue fuel text := by
  cases fuel with
  | zero => rfl
  | succ fuel => rw [parseValue, parseValue, skipSpace_newline]

theorem parseItems_newline (depth fuel : ℕ) (text : List Char) :
    parseItems fuel (newline depth ++ text) = parseItems fuel text := by
  cases fuel with
  | zero => rfl
  | succ fuel => rw [parseItems, parseItems, parseValue_newline]

theorem parseFields_newline (depth fuel : ℕ) (text : List Char) :
    parseFields fuel (newline depth ++ text) = parseFields fuel text := by
  cases fuel with
  | zero => rfl
  | succ fuel => rw [parseFields, parseFields, skipSpace_newline]

/-- The items of an array, without its brackets. -/
def itemsText (depth : ℕ) : List Json → List Char
  | [] => []
  | item :: items => Json.pretty depth item ++ prettyItems depth items

/-- The fields of an object, without its braces. -/
def fieldsText (depth : ℕ) : List (String × Json) → List Char
  | [] => []
  | (name, value) :: fields =>
    quote name ++ (':' :: ' ' :: (Json.pretty depth value ++ prettyFields depth fields))

theorem pretty_arr_cons (depth : ℕ) (item : Json) (items : List Json) :
    Json.pretty depth (.arr (item :: items)) =
      '[' :: (newline (depth + 1) ++ (itemsText (depth + 1) (item :: items) ++
        (newline depth ++ [']']))) := by
  rw [Json.pretty, itemsText, List.append_assoc]

theorem pretty_obj_cons (depth : ℕ) (field : String × Json) (fields : List (String × Json)) :
    Json.pretty depth (.obj (field :: fields)) =
      '{' :: (newline (depth + 1) ++ (fieldsText (depth + 1) (field :: fields) ++
        (newline depth ++ ['}']))) := by
  obtain ⟨name, value⟩ := field
  rw [Json.pretty, fieldsText]
  simp only [List.append_assoc, List.cons_append]

theorem endsValue_comma (rest : List Char) : EndsValue (',' :: rest) := by
  rintro c ⟨⟩
  exact Or.inl rfl

theorem endsValue_newline (depth : ℕ) (rest : List Char) :
    EndsValue (newline depth ++ rest) := by
  rintro c ⟨⟩
  exact Or.inr (Or.inl rfl)

/-- A literal is read as a number. -/
theorem parseValue_literal {literal : String} (h : IsLiteral literal) (fuel : ℕ) {rest : List Char}
    (hrest : EndsValue rest) :
    parseValue (fuel + 1) (literal.toList ++ rest) = some (.num literal, rest) := by
  obtain ⟨⟨c, cs, hliteral, hfirst⟩, hread⟩ := h
  have hnumber := hread rest hrest
  rw [hliteral, List.cons_append] at hnumber ⊢
  have hsigns : StartsValue c ∧ c ≠ '"' ∧ c ≠ '{' ∧ c ≠ '[' ∧ c ≠ 'n' ∧ c ≠ 't' ∧ c ≠ 'f' := by
    rcases hfirst with rfl | hdigit
    · decide
    · refine ⟨⟨?_, ?_, ?_, ?_, ?_, ?_⟩, ?_, ?_, ?_, ?_, ?_, ?_⟩ <;> rintro rfl <;>
        exact absurd hdigit (by decide)
  obtain ⟨hstart, hquote, hbrace, hbracket, hn, ht, hf⟩ := hsigns
  rw [parseValue, skipSpace_of_startsValue hstart]
  split
  · next heq => exact absurd (List.cons.inj heq).1 hquote
  · next heq => exact absurd (List.cons.inj heq).1 hbrace
  · next heq => exact absurd (List.cons.inj heq).1 hbracket
  · next heq => exact absurd (List.cons.inj heq).1 hn
  · next heq => exact absurd (List.cons.inj heq).1 ht
  · next heq => exact absurd (List.cons.inj heq).1 hf
  · exact hnumber

/-- An array that has items. -/
theorem parseValue_bracket (fuel : ℕ) {text : List Char} {c : Char} {cs : List Char}
    (h : skipSpace text = c :: cs) (hc : StartsValue c) :
    parseValue (fuel + 1) ('[' :: text) =
      (parseItems fuel (c :: cs)).map fun read => (.arr read.1, read.2) := by
  have hbracket : skipSpace ('[' :: text) = '[' :: text := rfl
  simp only [parseValue, hbracket, h]
  split
  · next heq => exact absurd (List.cons.inj heq).1 hc.2.2.2.2.1
  · rfl

/-- An object that has fields. -/
theorem parseValue_brace (fuel : ℕ) {text : List Char} {c : Char} {cs : List Char}
    (h : skipSpace text = c :: cs) (hc : StartsValue c) :
    parseValue (fuel + 1) ('{' :: text) =
      (parseFields fuel (c :: cs)).map fun read => (.obj read.1, read.2) := by
  have hbrace : skipSpace ('{' :: text) = '{' :: text := rfl
  simp only [parseValue, hbrace, h]
  split
  · next heq => exact absurd (List.cons.inj heq).1 hc.2.2.2.2.2
  · rfl

/-- An item, and what comes after it. -/
theorem parseItems_cons {fuel : ℕ} {text rest : List Char} {item : Json}
    (h : parseValue fuel text = some (item, rest)) :
    parseItems (fuel + 1) text =
      match skipSpace rest with
      | ',' :: rest => (parseItems fuel rest).map fun read => (item :: read.1, read.2)
      | ']' :: rest => some ([item], rest)
      | _ => none := by
  rw [parseItems, h]
  rfl

/-- A field, and what comes after it. -/
theorem parseFields_cons {fuel : ℕ} {name : String} {text rest : List Char} {value : Json}
    (h : parseValue fuel text = some (value, rest)) :
    parseFields (fuel + 1) (quote name ++ (':' :: text)) =
      match skipSpace rest with
      | ',' :: rest => (parseFields fuel rest).map fun read => ((name, value) :: read.1, read.2)
      | '}' :: rest => some ([(name, value)], rest)
      | _ => none := by
  rw [parseFields, skipSpace_quote]
  show (parseString _).bind _ = _
  rw [parseString_quote]
  show (parseValue fuel text).bind _ = _
  rw [h]
  rfl

theorem parseValue_blank (fuel : ℕ) (text : List Char) :
    parseValue fuel (' ' :: text) = parseValue fuel text := by
  cases fuel with
  | zero => rfl
  | succ fuel => rw [parseValue, parseValue, skipSpace_blank]

/-- The first item of an array starts a value. -/
theorem itemsText_cons {depth : ℕ} {item : Json} {items : List Json} (h : item.Readable) :
    ∃ c cs, itemsText depth (item :: items) = c :: cs ∧ StartsValue c := by
  obtain ⟨c, cs, htext, hstart⟩ := exists_pretty_cons depth item h
  exact ⟨c, cs ++ prettyItems depth items, by rw [itemsText, htext, List.cons_append], hstart⟩

theorem length_newline (depth : ℕ) : (newline depth).length = 2 * depth + 1 := by
  rw [newline, List.length_cons, List.length_replicate]

mutual

/-- **A value is read back**, with enough fuel, and what follows it is left.  By recursion on the
value, its items and its fields. -/
theorem parseValue_pretty : ∀ (value : Json), value.Readable → ∀ (depth fuel : ℕ)
    (rest : List Char), (value.pretty depth).length < fuel → EndsValue rest →
      parseValue fuel (value.pretty depth ++ rest) = some (value, rest)
  | .null, _, _, fuel + 1, _, _, _ => rfl
  | .bool true, _, _, fuel + 1, _, _, _ => rfl
  | .bool false, _, _, fuel + 1, _, _, _ => rfl
  | .num literal, h, _, fuel + 1, _, _, hrest => parseValue_literal h fuel hrest
  | .str value, _, _, fuel + 1, rest, _, _ => parseValue_quote fuel value rest
  | .arr [], _, _, fuel + 1, _, _, _ => rfl
  | .obj [], _, _, fuel + 1, _, _, _ => rfl
  | .arr (item :: items), h, depth, fuel + 1, rest, hfuel, _ => by
    rw [pretty_arr_cons] at hfuel ⊢
    simp only [List.length_cons, List.length_append, length_newline] at hfuel
    have hitems := parseItems_pretty (item :: items) h (List.cons_ne_nil _ _) depth (depth + 1) fuel
      rest (by omega)
    obtain ⟨c, cs, htext, hstart⟩ := @itemsText_cons (depth + 1) item items h.1
    have hskip : skipSpace (newline (depth + 1) ++ (itemsText (depth + 1) (item :: items) ++
        (newline depth ++ [']'])) ++ rest) = c :: (cs ++ (newline depth ++ ']' :: rest)) := by
      rw [List.append_assoc, skipSpace_newline, htext, List.cons_append, List.cons_append,
        skipSpace_of_startsValue hstart]
      simp only [List.append_assoc, List.singleton_append]
    rw [htext, List.cons_append] at hitems
    rw [List.cons_append, parseValue_bracket fuel hskip hstart, hitems]
    rfl
  | .obj ((name, value) :: fields), h, depth, fuel + 1, rest, hfuel, _ => by
    rw [pretty_obj_cons] at hfuel ⊢
    simp only [List.length_cons, List.length_append, length_newline] at hfuel
    have hfields := parseFields_pretty ((name, value) :: fields) h (List.cons_ne_nil _ _) depth
      (depth + 1) fuel rest (by omega)
    obtain ⟨cs, htext⟩ : ∃ cs, fieldsText (depth + 1) ((name, value) :: fields) = '"' :: cs :=
      ⟨_, rfl⟩
    have hskip : skipSpace (newline (depth + 1) ++ (fieldsText (depth + 1) ((name, value) :: fields)
        ++ (newline depth ++ ['}'])) ++ rest) = '"' :: (cs ++ (newline depth ++ '}' :: rest)) := by
      rw [List.append_assoc, skipSpace_newline, htext, List.cons_append, List.cons_append,
        skipSpace_of_startsValue (by decide)]
      simp only [List.append_assoc, List.singleton_append]
    rw [htext, List.cons_append] at hfields
    rw [List.cons_append, parseValue_brace fuel hskip (by decide), hfields]
    rfl

/-- The items of an array, up to its bracket. -/
theorem parseItems_pretty : ∀ (items : List Json), ReadableItems items → items ≠ [] →
    ∀ (outer depth fuel : ℕ) (rest : List Char), (itemsText depth items).length + 1 < fuel →
      parseItems fuel (itemsText depth items ++ (newline outer ++ ']' :: rest)) =
        some (items, rest)
  | [], _, hne, _, _, _, _, _ => absurd rfl hne
  | [item], h, _, outer, depth, fuel + 1, rest, hfuel => by
    have htext : itemsText depth [item] = item.pretty depth := List.append_nil _
    rw [htext] at hfuel ⊢
    have hitem := parseValue_pretty item h.1 depth fuel (newline outer ++ ']' :: rest)
      (by omega) (endsValue_newline outer _)
    rw [parseItems_cons hitem, skipSpace_newline]
    rfl
  | item :: next :: items, h, _, outer, depth, fuel + 1, rest, hfuel => by
    have htext : itemsText depth (item :: next :: items) = item.pretty depth ++
        (',' :: (newline depth ++ itemsText depth (next :: items))) := rfl
    rw [htext] at hfuel ⊢
    simp only [List.length_cons, List.length_append, length_newline] at hfuel
    have hitem := parseValue_pretty item h.1 depth fuel (',' :: (newline depth ++
      itemsText depth (next :: items)) ++ (newline outer ++ ']' :: rest)) (by omega)
      (endsValue_comma _)
    have hitems := parseItems_pretty (next :: items) h.2 (List.cons_ne_nil _ _) outer depth fuel
      rest (by omega)
    rw [List.append_assoc, parseItems_cons hitem]
    show (parseItems fuel (newline depth ++ itemsText depth (next :: items) ++ _)).map _ = _
    rw [List.append_assoc, parseItems_newline, hitems]
    rfl

/-- The fields of an object, up to its brace. -/
theorem parseFields_pretty : ∀ (fields : List (String × Json)), ReadableFields fields →
    fields ≠ [] → ∀ (outer depth fuel : ℕ) (rest : List Char),
      (fieldsText depth fields).length + 1 < fuel →
        parseFields fuel (fieldsText depth fields ++ (newline outer ++ '}' :: rest)) =
          some (fields, rest)
  | [], _, hne, _, _, _, _, _ => absurd rfl hne
  | [(name, value)], h, _, outer, depth, fuel + 1, rest, hfuel => by
    have htext : fieldsText depth [(name, value)] =
        quote name ++ (':' :: ' ' :: value.pretty depth) := by
      rw [fieldsText, prettyFields, List.append_nil]
    rw [htext] at hfuel ⊢
    simp only [List.length_cons, List.length_append] at hfuel
    have hvalue := parseValue_pretty value h.1 depth fuel (newline outer ++ '}' :: rest)
      (by omega) (endsValue_newline outer _)
    rw [← parseValue_blank] at hvalue
    rw [List.append_assoc, List.cons_append, List.cons_append, parseFields_cons hvalue,
      skipSpace_newline]
    rfl
  | (name, value) :: next :: fields, h, _, outer, depth, fuel + 1, rest, hfuel => by
    have htext : fieldsText depth ((name, value) :: next :: fields) = quote name ++ (':' :: ' ' ::
        (value.pretty depth ++ (',' :: (newline depth ++ fieldsText depth (next :: fields))))) :=
      rfl
    rw [htext] at hfuel ⊢
    simp only [List.length_cons, List.length_append, length_newline] at hfuel
    have hvalue := parseValue_pretty value h.1 depth fuel (',' :: (newline depth ++
      fieldsText depth (next :: fields)) ++ (newline outer ++ '}' :: rest)) (by omega)
      (endsValue_comma _)
    have hfields := parseFields_pretty (next :: fields) h.2 (List.cons_ne_nil _ _) outer depth fuel
      rest (by omega)
    rw [← parseValue_blank] at hvalue
    rw [List.append_assoc, List.cons_append, List.cons_append, List.append_assoc,
      parseFields_cons hvalue]
    show (parseFields fuel (newline depth ++ fieldsText depth (next :: fields) ++ _)).map _ = _
    rw [List.append_assoc, parseFields_newline, hfields]
    rfl

end

/-- **An indented text is read as its value**, also with a line feed behind it. -/
theorem jsonParse_pretty {value : Json} (h : value.Readable) :
    jsonParse (String.ofList (value.pretty 0 ++ ['\n'])) = some value := by
  have hread := parseValue_pretty value h 0 ((value.pretty 0 ++ ['\n']).length + 1) ['\n']
    (by rw [List.length_append]; omega) (endsValue_newline 0 [])
  rw [jsonParse, String.toList_ofList, hread]
  rfl

end ObsidianSync
