import ObsidianSync.Shared.Path

/-!
# Canonical paths

What `normalizePath` returns is a path that it leaves as it is: segments that
pass the checks, joined by single slashes, in NFC.  A numeric suffix keeps all of
this but the lengths: the new base name may be longer than a segment may be, and
the path longer than a path.

## Main definitions

* `UnicodeLaws` — what is used of NFC and of `toLowerCase`.
* `CanonicalPath` — `normalizePath` leaves the path as it is.
* `WithinLimits` — no segment is too long, and the path is not.

## Main results

* `canonicalPath_of_normalizePath` — what is canonicalized is canonical.
* `canonicalPath_suffixPath_iff` — a suffixed path is canonical exactly if it is
  within the limits.
-/

namespace ObsidianSync

/-- Characters that no normalization moves or composes with its neighbours. -/
def inertChars : List Char :=
  ['/', '\\', ' ', '.', '(', ')', '0', '1', '2', '3', '4', '5', '6', '7', '8', '9']

/-- What is used of NFC and of `toLowerCase`. -/
structure UnicodeLaws (P : Platform) : Prop where
  /-- NFC is idempotent. -/
  idempotent : ∀ text, P.normalizeNFC (P.normalizeNFC text) = P.normalizeNFC text
  /-- What a text in NFC consists of is in NFC. -/
  parts : ∀ a b, P.normalizeNFC (a ++ b) = a ++ b →
    P.normalizeNFC a = a ∧ P.normalizeNFC b = b
  /-- Texts in NFC on both sides of an inert character are a text in NFC. -/
  inert : ∀ a b, ∀ c ∈ inertChars, P.normalizeNFC a = a → P.normalizeNFC b = b →
    P.normalizeNFC (a ++ String.singleton c ++ b) = a ++ String.singleton c ++ b
  /-- A parenthesis has no other case. -/
  parenthesis : ∀ text : String, '(' ∈ text.toList → '(' ∈ (P.toLowerCase text).toList

/-- The path is left as it is. -/
def CanonicalPath (P : Platform) (path : String) : Prop := normalizePath P path = .ok path

instance (P : Platform) (path : String) : Decidable (CanonicalPath P path) :=
  inferInstanceAs (Decidable (_ = _))

/-- No segment of the path is too long, and the path is not. -/
def WithinLimits (path : String) : Prop :=
  byteLength path.toList ≤ maxPathBytes ∧
    ∀ seg ∈ path.toList.splitOn '/', byteLength seg ≤ maxSegmentBytes

instance (path : String) : Decidable (WithinLimits path) := inferInstanceAs (Decidable (_ ∧ _))

/-! ### Normal forms -/

/-- The text is in NFC. -/
def InNFC (P : Platform) (text : List Char) : Prop :=
  P.normalizeNFC (String.ofList text) = String.ofList text

section

variable {P : Platform} (laws : UnicodeLaws P)
include laws

theorem inNFC_parts {a b : List Char} (h : InNFC P (a ++ b)) : InNFC P a ∧ InNFC P b := by
  rw [InNFC, String.ofList_append] at h
  exact laws.parts _ _ h

theorem inNFC_inert {a b : List Char} {c : Char} (hc : c ∈ inertChars) (ha : InNFC P a)
    (hb : InNFC P b) : InNFC P (a ++ c :: b) := by
  have h := laws.inert _ _ c hc ha hb
  have htext : String.ofList (a ++ c :: b)
      = String.ofList a ++ String.singleton c ++ String.ofList b := by
    rw [List.append_cons, String.ofList_append, String.ofList_append]
    rfl
  rwa [← htext] at h

/-- An inert character may stand for another text between the same neighbours. -/
theorem inNFC_replace {a b : List Char} (mid : List Char) {c : Char} (hc : c ∈ inertChars)
    (h : InNFC P (a ++ mid ++ b)) : InNFC P (a ++ c :: b) := by
  obtain ⟨hmid, hb⟩ := inNFC_parts laws h
  exact inNFC_inert laws hc (inNFC_parts laws hmid).1 hb

theorem inNFC_separators {text : List Char} (h : InNFC P text) :
    InNFC P (text.map fun c => if c = '\\' then '/' else c) := by
  have hfrom : ∀ front, InNFC P (front ++ text) →
      InNFC P (front ++ text.map fun c => if c = '\\' then '/' else c) := by
    clear h
    induction text with
    | nil => exact fun _ h => h
    | cons c text ih =>
      intro front h
      rw [List.map_cons, List.append_cons]
      split
      · refine ih _ ?_
        rw [← List.append_cons]
        exact inNFC_replace laws [c] (by decide) (by rwa [← List.append_cons])
      · exact ih _ (by rwa [← List.append_cons])
  exact hfrom [] h

end

/-- What canonicalization uses of NFC. -/
structure SlashLaws (P : Platform) : Prop where
  /-- NFC is idempotent. -/
  idempotent : ∀ text, P.normalizeNFC (P.normalizeNFC text) = P.normalizeNFC text
  /-- Slashes may stand for the backslashes of a text in NFC. -/
  separators : ∀ text, InNFC P text → InNFC P (text.map fun c => if c = '\\' then '/' else c)
  /-- One slash may stand for two. -/
  collapse : ∀ a b, InNFC P (a ++ '/' :: '/' :: b) → InNFC P (a ++ '/' :: b)
  /-- A slash may be taken from the front. -/
  front : ∀ a, InNFC P ('/' :: a) → InNFC P a
  /-- A slash may be taken from the end. -/
  back : ∀ a, InNFC P (a ++ ['/']) → InNFC P a

theorem UnicodeLaws.slashLaws {P : Platform} (laws : UnicodeLaws P) : SlashLaws P where
  idempotent := laws.idempotent
  separators := fun _ => inNFC_separators laws
  collapse := fun a b h => inNFC_replace laws (a := a) (b := b) ['/', '/'] (by decide)
    (by rwa [List.append_assoc])
  front := fun _ h => (inNFC_parts laws (a := ['/']) h).2
  back := fun _ h => (inNFC_parts laws h).1

section

variable {P : Platform} (laws : SlashLaws P)
include laws

theorem inNFC_of_normalizeNFC (raw : String) : InNFC P (P.normalizeNFC raw).toList := by
  rw [InNFC, String.ofList_toList]
  exact laws.idempotent raw

theorem inNFC_collapseSlashes {text : List Char} (h : InNFC P text) :
    InNFC P (collapseSlashes text) := by
  have hfrom : ∀ front, InNFC P (front ++ text) → InNFC P (front ++ collapseSlashes text) := by
    clear h
    induction text using collapseSlashes.induct with
    | case1 text ih =>
      intro front h
      rw [collapseSlashes]
      exact ih front (laws.collapse front text h)
    | case2 c text _ ih =>
      intro front h
      rw [collapseSlashes, List.append_cons]
      · exact ih _ (by rwa [← List.append_cons])
      · assumption
    | case3 => exact fun _ h => h
  exact hfrom [] h

theorem inNFC_trimSlashes {text : List Char} (h : InNFC P text) : InNFC P (trimSlashes text) := by
  have hfront : ∀ {text : List Char}, InNFC P text → InNFC P (text.dropWhile (· = '/')) := by
    intro text h
    induction text with
    | nil => exact h
    | cons c text ih =>
      rw [List.dropWhile_cons]
      split
      · next hc => exact ih (laws.front text (of_decide_eq_true hc ▸ h))
      · exact h
  have hback : ∀ {text : List Char}, InNFC P text.reverse →
      InNFC P (text.dropWhile (· = '/')).reverse := by
    intro text h
    induction text with
    | nil => exact h
    | cons c text ih =>
      rw [List.dropWhile_cons]
      split
      · next hc =>
        rw [List.reverse_cons, of_decide_eq_true hc] at h
        exact ih (laws.back _ h)
      · exact h
  refine hback ?_
  rw [List.reverse_reverse]
  exact hfront (inNFC_collapseSlashes laws h)

end

/-! ### Segments -/

/-- The segments with slashes between them. -/
def joinSegments (segs : List (List Char)) : List Char := ['/'].intercalate segs

theorem joinSegments_splitOn (text : List Char) : joinSegments (text.splitOn '/') = text :=
  List.intercalate_splitOn '/'

theorem splitOn_joinSegments {segs : List (List Char)} (hne : segs ≠ [])
    (h : ∀ seg ∈ segs, '/' ∉ seg) : (joinSegments segs).splitOn '/' = segs :=
  List.splitOn_intercalate '/' h hne

theorem joinSegments_singleton (seg : List Char) : joinSegments [seg] = seg :=
  List.intercalate_singleton

theorem joinSegments_cons {segs : List (List Char)} (hne : segs ≠ []) (seg : List Char) :
    joinSegments (seg :: segs) = seg ++ '/' :: joinSegments segs := by
  rw [joinSegments, List.intercalate_cons_of_ne_nil hne, List.append_assoc]
  rfl

/-- A character of a path is a slash or one of a segment. -/
theorem mem_joinSegments {segs : List (List Char)} {c : Char} (h : c ∈ joinSegments segs) :
    c = '/' ∨ ∃ seg ∈ segs, c ∈ seg := by
  induction segs with
  | nil => exact absurd h List.not_mem_nil
  | cons seg segs ih =>
    by_cases hne : segs = []
    · subst hne
      rw [joinSegments_singleton] at h
      exact Or.inr ⟨seg, List.mem_cons_self, h⟩
    · rw [joinSegments_cons hne] at h
      rcases List.mem_append.mp h with hseg | hrest
      · exact Or.inr ⟨seg, List.mem_cons_self, hseg⟩
      · rcases List.mem_cons.mp hrest with hslash | htail
        · exact Or.inl hslash
        · exact (ih htail).imp_right fun ⟨other, hmem, hc⟩ =>
            ⟨other, List.mem_cons_of_mem seg hmem, hc⟩

/-- Slashes are only collapsed behind slashes. -/
theorem collapseSlashes_append {seg : List Char} (h : '/' ∉ seg) (rest : List Char) :
    collapseSlashes (seg ++ rest) = seg ++ collapseSlashes rest := by
  induction seg with
  | nil => rfl
  | cons c seg ih =>
    rw [List.mem_cons, not_or] at h
    rw [List.cons_append, collapseSlashes, ih h.2, List.cons_append]
    exact fun _ hc _ => h.1 hc.symm

theorem collapseSlashes_slash {seg : List Char} (hne : seg ≠ []) (h : '/' ∉ seg)
    (rest : List Char) :
    collapseSlashes ('/' :: (seg ++ rest)) = '/' :: (seg ++ collapseSlashes rest) := by
  rw [collapseSlashes, collapseSlashes_append h]
  intro cs _ hcs
  cases seg with
  | nil => exact hne rfl
  | cons c seg => exact h ((List.cons.inj hcs).1 ▸ List.mem_cons_self)

section

variable {segs : List (List Char)} (hsegs : ∀ seg ∈ segs, seg ≠ [] ∧ '/' ∉ seg)
include hsegs

theorem collapseSlashes_joinSegments : collapseSlashes (joinSegments segs) = joinSegments segs := by
  induction segs with
  | nil => rfl
  | cons seg segs ih =>
    obtain ⟨hne, hslash⟩ := hsegs seg List.mem_cons_self
    have hrest := fun other hmem => hsegs other (List.mem_cons_of_mem seg hmem)
    cases segs with
    | nil =>
      rw [joinSegments_singleton]
      have h := collapseSlashes_append hslash []
      rwa [show collapseSlashes [] = [] from rfl, List.append_nil] at h
    | cons next segs =>
      obtain ⟨hne', hslash'⟩ := hrest next List.mem_cons_self
      rw [joinSegments_cons (List.cons_ne_nil _ _), collapseSlashes_append hslash]
      have ih := ih hrest
      -- the next segment is not empty, so its slash stays
      by_cases hlast : segs = []
      · subst hlast
        rw [joinSegments_singleton] at ih ⊢
        have h := collapseSlashes_slash hne' hslash' []
        rw [show collapseSlashes [] = [] from rfl, List.append_nil] at h
        rw [h]
      · rw [joinSegments_cons hlast, collapseSlashes_append hslash'] at ih
        rw [joinSegments_cons hlast, collapseSlashes_slash hne' hslash',
          List.append_cancel_left ih]

theorem head_joinSegments (hne : segs ≠ []) :
    ∃ c rest, joinSegments segs = c :: rest ∧ c ≠ '/' := by
  cases segs with
  | nil => exact absurd rfl hne
  | cons seg segs =>
    obtain ⟨hseg, hslash⟩ := hsegs seg List.mem_cons_self
    cases seg with
    | nil => exact absurd rfl hseg
    | cons c seg =>
      have hc : c ≠ '/' := fun h => hslash (h ▸ List.mem_cons_self)
      by_cases hlast : segs = []
      · exact ⟨c, seg, by rw [hlast, joinSegments_singleton], hc⟩
      · exact ⟨c, _, joinSegments_cons hlast (c :: seg), hc⟩

theorem last_joinSegments (hne : segs ≠ []) :
    ∃ rest c, joinSegments segs = rest ++ [c] ∧ c ≠ '/' := by
  induction segs with
  | nil => exact absurd rfl hne
  | cons seg segs ih =>
    obtain ⟨hseg, hslash⟩ := hsegs seg List.mem_cons_self
    by_cases hlast : segs = []
    · refine ⟨seg.dropLast, seg.getLast hseg, ?_, fun h => hslash ?_⟩
      · rw [hlast, joinSegments_singleton, List.dropLast_append_getLast]
      · rw [← h]
        exact List.getLast_mem hseg
    · obtain ⟨rest, c, hrest, hc⟩ :=
        ih (fun other hmem => hsegs other (List.mem_cons_of_mem seg hmem)) hlast
      refine ⟨seg ++ '/' :: rest, c, ?_, hc⟩
      rw [joinSegments_cons hlast, hrest, List.append_assoc, List.cons_append]

/-- Segments that are not empty are joined by single slashes. -/
theorem trimSlashes_joinSegments : trimSlashes (joinSegments segs) = joinSegments segs := by
  unfold trimSlashes
  dsimp only
  rw [collapseSlashes_joinSegments hsegs]
  by_cases hne : segs = []
  · subst hne
    rfl
  · obtain ⟨c, rest, hhead, hc⟩ := head_joinSegments hsegs hne
    obtain ⟨front, d, hlast, hd⟩ := last_joinSegments hsegs hne
    have hfront : (joinSegments segs).dropWhile (· = '/') = joinSegments segs := by
      rw [hhead]
      exact List.dropWhile_cons_of_neg (by rw [decide_eq_true_eq]; exact hc)
    rw [hfront, hlast, List.reverse_append, List.reverse_singleton, List.singleton_append,
      List.dropWhile_cons_of_neg (by rw [decide_eq_true_eq]; exact hd), List.reverse_cons,
      List.reverse_reverse]

end

/-! ### The checks -/

/-- A segment that passes the checks. -/
structure ValidSegment (P : Platform) (seg : List Char) : Prop where
  ne_nil : seg ≠ []
  not_dots : ¬ (seg = ['.'] ∨ seg = ['.', '.'])
  bytes : byteLength seg ≤ maxSegmentBytes
  chars : seg.any illegalChar = false
  last : ¬ (seg.getLast? = some ' ' ∨ seg.getLast? = some '.')
  unreserved : windowsReserved.contains
    (P.toLowerCase (String.ofList ((seg.splitOn '.').headD []))) = false

theorem validateSegment_ok_iff {P : Platform} {seg : List Char} (raw : String) :
    validateSegment P seg raw = .ok () ↔ ValidSegment P seg := by
  unfold validateSegment
  constructor
  · intro h
    split at h
    · cases h
    next hne =>
    split at h
    · cases h
    next hdots =>
    split at h
    · cases h
    next hbytes =>
    split at h
    · cases h
    next hchars =>
    split at h
    · cases h
    next hlast =>
    split at h
    · cases h
    next hreserved =>
    exact ⟨hne, hdots, Nat.le_of_not_lt hbytes, Bool.eq_false_iff.mpr hchars, hlast,
      Bool.eq_false_iff.mpr hreserved⟩
  · intro h
    rw [if_neg h.ne_nil, if_neg h.not_dots, if_neg (Nat.not_lt.mpr h.bytes),
      if_neg (Bool.eq_false_iff.mp h.chars), if_neg h.last,
      if_neg (Bool.eq_false_iff.mp h.unreserved)]

theorem validateSegments_ok_iff {P : Platform} {raw : String} {segs : List (List Char)} :
    validateSegments P raw segs = .ok () ↔ ∀ seg ∈ segs, ValidSegment P seg := by
  induction segs with
  | nil => exact iff_of_true rfl fun _ h => absurd h List.not_mem_nil
  | cons seg segs ih =>
    rw [validateSegments, List.forall_mem_cons, ← ih, ← validateSegment_ok_iff raw]
    cases validateSegment P seg raw with
    | error e => exact iff_of_false (by simp) fun h => by cases h.1
    | ok u => exact (and_iff_right rfl).symm

/-- The text of a canonical path. -/
structure CanonicalText (P : Platform) (text : List Char) : Prop where
  nfc : InNFC P text
  bytes : byteLength text ≤ maxPathBytes
  segments : ∀ seg ∈ text.splitOn '/', ValidSegment P seg

section

variable {P : Platform} {text : List Char}

/-- A separator is no character of a part. -/
theorem not_mem_of_mem_splitOn {sep : Char} {seg : List Char} (h : seg ∈ text.splitOn sep) :
    sep ∉ seg := by
  induction text generalizing seg with
  | nil =>
    rw [List.splitOn_nil, List.mem_singleton] at h
    rw [h]
    exact List.not_mem_nil
  | cons c text ih =>
    rw [List.splitOn_cons_eq_if_modifyHead] at h
    split at h
    · rcases List.mem_cons.mp h with rfl | hrest
      · exact List.not_mem_nil
      · exact ih hrest
    · next hc =>
      cases hsplit : text.splitOn sep with
      | nil => exact absurd hsplit (List.splitOn_ne_nil sep text)
      | cons first rest =>
        rw [hsplit] at h ih
        rcases List.mem_cons.mp h with rfl | hrest
        · rw [List.mem_cons, not_or]
          exact ⟨fun hsep => hc (beq_iff_eq.mpr hsep.symm), ih List.mem_cons_self⟩
        · exact ih (List.mem_cons_of_mem first hrest)

theorem ValidSegment.legal {seg : List Char} (h : ValidSegment P seg) {c : Char} (hc : c ∈ seg) :
    illegalChar c = false :=
  Bool.eq_false_iff.mpr fun hillegal =>
    Bool.eq_false_iff.mp h.chars (List.any_eq_true.mpr ⟨c, hc, hillegal⟩)

/-- The text in NFC, its separators unified and its slashes trimmed. -/
def unifiedPath (P : Platform) (raw : String) : List Char :=
  trimSlashes ((P.normalizeNFC raw).toList.map fun c => if c = '\\' then '/' else c)

theorem inNFC_unifiedPath (laws : SlashLaws P) (raw : String) : InNFC P (unifiedPath P raw) :=
  inNFC_trimSlashes laws (laws.separators _ (inNFC_of_normalizeNFC laws raw))

theorem isValidPath_iff {raw : String} :
    isValidPath P raw = true ↔ ∃ path, normalizePath P raw = .ok path := by
  unfold isValidPath
  cases normalizePath P raw with
  | error e => exact iff_of_false (by simp) fun ⟨_, h⟩ => by cases h
  | ok path => exact iff_of_true rfl ⟨path, rfl⟩

theorem normalizePath_eq_ok_iff {raw path : String} :
    normalizePath P raw = .ok path ↔
      path.toList = unifiedPath P raw ∧ byteLength (unifiedPath P raw) ≤ maxPathBytes ∧
        ∀ seg ∈ (unifiedPath P raw).splitOn '/', ValidSegment P seg := by
  have hne : (∀ seg ∈ (unifiedPath P raw).splitOn '/', ValidSegment P seg) →
      unifiedPath P raw ≠ [] := by
    intro hsegs hnil
    rw [hnil] at hsegs
    exact (hsegs [] List.mem_cons_self).ne_nil rfl
  constructor
  · intro h
    unfold normalizePath at h
    dsimp only at h
    split at h
    · cases h
    split at h
    · cases h
    next hbytes =>
    split at h
    · cases h
    next hvalid =>
    rw [Except.ok.injEq] at h
    rw [← h, String.toList_ofList]
    exact ⟨rfl, Nat.le_of_not_lt hbytes, validateSegments_ok_iff.mp hvalid⟩
  · rintro ⟨htext, hbytes, hsegs⟩
    unfold normalizePath
    dsimp only
    rw [← unifiedPath, if_neg (hne hsegs), if_neg (Nat.not_lt.mpr hbytes),
      validateSegments_ok_iff.mpr hsegs, ← htext, String.ofList_toList]

/-- A text of such segments is unified. -/
theorem unifiedPath_eq (hnfc : InNFC P text) (h : ∀ seg ∈ text.splitOn '/', ValidSegment P seg) :
    unifiedPath P (String.ofList text) = text := by
  have hsegs : ∀ seg ∈ text.splitOn '/', seg ≠ [] ∧ '/' ∉ seg := fun seg hseg =>
    ⟨(h seg hseg).ne_nil, not_mem_of_mem_splitOn hseg⟩
  have hseparators : (text.map fun c => if c = '\\' then '/' else c) = text := by
    refine (List.map_congr_left fun c hc => ?_).trans (List.map_id text)
    rw [← joinSegments_splitOn text] at hc
    refine if_neg fun hslash => ?_
    subst hslash
    rcases mem_joinSegments hc with hc | ⟨seg, hseg, hc⟩
    · exact absurd hc (by decide)
    · exact absurd ((h seg hseg).legal hc) (by decide)
  rw [unifiedPath, hnfc, String.toList_ofList, hseparators]
  rw [← joinSegments_splitOn text]
  exact trimSlashes_joinSegments hsegs

/-- Such a path is left as it is. -/
theorem CanonicalText.canonicalPath (h : CanonicalText P text) :
    CanonicalPath P (String.ofList text) := by
  rw [CanonicalPath, normalizePath_eq_ok_iff, unifiedPath_eq h.nfc h.segments]
  exact ⟨String.toList_ofList, h.bytes, h.segments⟩

/-- What is canonicalized has such a text. -/
theorem canonicalText_of_normalizePath (laws : SlashLaws P) {raw path : String}
    (h : normalizePath P raw = .ok path) : CanonicalText P path.toList := by
  obtain ⟨htext, hbytes, hsegs⟩ := normalizePath_eq_ok_iff.mp h
  rw [htext]
  exact ⟨inNFC_unifiedPath laws raw, hbytes, hsegs⟩

/-- **What is canonicalized is canonical.** -/
theorem canonicalPath_of_normalizePath (laws : SlashLaws P) {raw path : String}
    (h : normalizePath P raw = .ok path) : CanonicalPath P path := by
  rw [← String.ofList_toList (s := path)]
  exact (canonicalText_of_normalizePath laws h).canonicalPath

theorem canonicalPath_iff (laws : SlashLaws P) {path : String} :
    CanonicalPath P path ↔ CanonicalText P path.toList := by
  refine ⟨canonicalText_of_normalizePath laws, fun h => ?_⟩
  rw [← String.ofList_toList (s := path)]
  exact h.canonicalPath

theorem path_of_normalizePath_error {raw : String} {e : PathValidationError}
    (h : normalizePath P raw = .error e) : e.path = raw := by
  have hseg : ∀ seg, ∀ e : PathValidationError, validateSegment P seg raw = .error e →
      e.path = raw := by
    intro seg e h
    unfold validateSegment at h
    split_ifs at h <;> (cases h; rfl)
  have hsegs : ∀ segs, ∀ e : PathValidationError, validateSegments P raw segs = .error e →
      e.path = raw := by
    intro segs
    induction segs with
    | nil => exact fun e h => by cases h
    | cons seg segs ih =>
      intro e h
      rw [validateSegments] at h
      split at h
      · next heq => exact hseg seg e (heq.trans h)
      · exact ih e h
  unfold normalizePath at h
  dsimp only at h
  split at h
  · cases h; rfl
  split at h
  · cases h; rfl
  split at h
  · next heq =>
    rw [← Except.error.inj h]
    exact hsegs _ _ heq
  · cases h

/-- **`normalizePath` maps onto the canonical paths**, and leaves each of them as it is. -/
theorem normalizePath_laws (laws : SlashLaws P) (raw : String) :
    ((∃ e, normalizePath P raw = .error e ∧ e.path = raw) ∨
        ∃ path, normalizePath P raw = .ok path ∧ CanonicalText P path.toList) ∧
      (CanonicalText P raw.toList → normalizePath P raw = .ok raw) ∧
      (∀ path, normalizePath P raw = .ok path → normalizePath P path = .ok path) ∧
      (isValidPath P raw = true ↔ CanonicalText P (unifiedPath P raw)) := by
  refine ⟨?_, (canonicalPath_iff laws).mpr, fun path => canonicalPath_of_normalizePath laws, ?_⟩
  · cases h : normalizePath P raw with
    | error e => exact Or.inl ⟨e, rfl, path_of_normalizePath_error h⟩
    | ok path => exact Or.inr ⟨path, rfl, canonicalText_of_normalizePath laws h⟩
  · rw [isValidPath_iff]
    constructor
    · rintro ⟨path, h⟩
      obtain ⟨-, hbytes, hsegs⟩ := normalizePath_eq_ok_iff.mp h
      exact ⟨inNFC_unifiedPath laws raw, hbytes, hsegs⟩
    · intro h
      exact ⟨_, normalizePath_eq_ok_iff.mpr ⟨String.toList_ofList, h.bytes, h.segments⟩⟩

theorem unicodeLaws_samplePlatform : UnicodeLaws samplePlatform where
  idempotent _ := rfl
  parts _ _ _ := ⟨rfl, rfl⟩
  inert _ _ _ _ _ _ := rfl
  parenthesis text h := by
    rw [samplePlatform, String.toList_ofList]
    exact List.mem_map.mpr ⟨'(', h, rfl⟩

theorem normalizePath_laws_backslash :
    (isValidPath samplePlatform "a\\b//c.md/" = true ↔
      CanonicalText samplePlatform (unifiedPath samplePlatform "a\\b//c.md/")) ∧
    isValidPath samplePlatform "a\\b//c.md/" = true :=
  ⟨(normalizePath_laws unicodeLaws_samplePlatform.slashLaws "a\\b//c.md/").2.2.2,
    by decide +kernel⟩

end

/-! ### The last separator -/

theorem splitAtLast_of_not_mem {c : Char} {text : List Char} (h : c ∉ text) :
    splitAtLast c text = none := by
  induction text with
  | nil => rfl
  | cons d text ih =>
    rw [List.mem_cons, not_or] at h
    rw [splitAtLast, ih h.2]
    exact if_neg fun hd => h.1 hd.symm

theorem splitAtLast_append {c : Char} {before after : List Char} (h : c ∉ after) :
    splitAtLast c (before ++ c :: after) = some (before, after) := by
  induction before with
  | nil =>
    rw [List.nil_append, splitAtLast, splitAtLast_of_not_mem h]
    exact if_pos rfl
  | cons d before ih => rw [List.cons_append, splitAtLast, ih]

theorem of_splitAtLast {c : Char} {text before after : List Char}
    (h : splitAtLast c text = some (before, after)) :
    text = before ++ c :: after ∧ c ∉ after := by
  by_cases hc : c ∈ text
  · obtain ⟨front, back, hback, rfl⟩ : ∃ front back, c ∉ back ∧ text = front ++ c :: back := by
      clear h
      induction text with
      | nil => exact absurd hc List.not_mem_nil
      | cons d text ih =>
        by_cases htext : c ∈ text
        · obtain ⟨front, back, hback, rfl⟩ := ih htext
          exact ⟨d :: front, back, hback, rfl⟩
        · rcases List.mem_cons.mp hc with rfl | hmem
          · exact ⟨[], text, htext, rfl⟩
          · exact absurd hmem htext
    rw [splitAtLast_append hback, Option.some.injEq, Prod.mk.injEq] at h
    exact ⟨by rw [h.1, h.2], h.2 ▸ hback⟩
  · rw [splitAtLast_of_not_mem hc] at h
    cases h

theorem joinSegments_concat {segs : List (List Char)} (hne : segs ≠ []) (seg : List Char) :
    joinSegments (segs ++ [seg]) = joinSegments segs ++ '/' :: seg := by
  induction segs with
  | nil => exact absurd rfl hne
  | cons first segs ih =>
    by_cases hsegs : segs = []
    · subst hsegs
      rw [List.singleton_append, joinSegments_cons (List.cons_ne_nil _ _), joinSegments_singleton,
        joinSegments_singleton]
    · rw [List.cons_append, joinSegments_cons (by simp), ih hsegs, joinSegments_cons hsegs,
        List.append_assoc, List.cons_append]

/-- The parent directory and the base name of segments. -/
theorem splitPath_joinSegments (init : List (List Char)) {base : List Char} (h : '/' ∉ base) :
    splitPath (String.ofList (joinSegments (init ++ [base])))
      = (String.ofList (joinSegments init), String.ofList base) := by
  rw [splitPath, String.toList_ofList]
  by_cases hinit : init = []
  · subst hinit
    rw [List.nil_append, joinSegments_singleton, splitAtLast_of_not_mem h]
    rfl
  · rw [joinSegments_concat hinit, splitAtLast_append h]

/-- The extension of a base name: none, or what starts at its last dot. -/
theorem extname_spec {base : List Char} (h : '/' ∉ base) :
    ∃ stem ext, base = stem ++ ext ∧ extname (String.ofList base) = String.ofList ext ∧
      (ext = [] ∨ stem ≠ [] ∧ ∃ rest, ext = '.' :: rest ∧ '.' ∉ rest) := by
  have hsplit : splitPath (String.ofList base) = ("", String.ofList base) := by
    rw [splitPath, String.toList_ofList, splitAtLast_of_not_mem h]
  rw [extname, hsplit, String.toList_ofList]
  cases hdot : splitAtLast '.' base with
  | none => exact ⟨base, [], (List.append_nil _).symm, rfl, Or.inl rfl⟩
  | some parts =>
    obtain ⟨stem, rest⟩ := parts
    obtain ⟨rfl, hrest⟩ := of_splitAtLast hdot
    cases stem with
    | nil => exact ⟨_, [], (List.append_nil _).symm, rfl, Or.inl rfl⟩
    | cons c stem =>
      refine ⟨c :: stem, '.' :: rest, rfl, ?_, Or.inr ⟨List.cons_ne_nil _ _, rest, rfl, hrest⟩⟩
      exact (@String.ofList_append ['.'] rest).symm

/-! ### Suffixes -/

/-- The counter that `suffixPath` puts before the extension. -/
def counter (n : ℕ) : List Char := ' ' :: '(' :: ((toString n).toList ++ [')'])

/-- **A suffixed path, by its segments**: the counter goes into the last one. -/
theorem suffixPath_joinSegments {init : List (List Char)} (hinit : ∀ seg ∈ init, seg ≠ [])
    {base : List Char} (hbase : '/' ∉ base) :
    ∃ stem ext, base = stem ++ ext ∧
      (ext = [] ∨ stem ≠ [] ∧ ∃ rest, ext = '.' :: rest ∧ '.' ∉ rest) ∧
      ∀ n, suffixPath (String.ofList (joinSegments (init ++ [base]))) n
        = String.ofList (joinSegments (init ++ [stem ++ counter n ++ ext])) := by
  obtain ⟨stem, ext, hparts, hext, hspec⟩ := extname_spec hbase
  refine ⟨stem, ext, hparts, hspec, fun n => ?_⟩
  have hstem : base.take (base.length - ext.length) = stem := by
    rw [hparts, List.length_append, Nat.add_sub_cancel, List.take_left']
    rfl
  rw [suffixPath, splitPath_joinSegments init hbase]
  dsimp only
  rw [hext, String.toList_ofList, String.toList_ofList, hstem, joinPath]
  have hname : String.ofList stem ++ " (" ++ toString n ++ ")" ++ String.ofList ext
      = String.ofList (stem ++ counter n ++ ext) := by
    refine String.toList_inj.mp ?_
    simp [counter]
  rw [hname]
  by_cases hempty : init = []
  · subst hempty
    rw [List.nil_append, joinSegments_singleton]
    exact if_pos rfl
  · have hdir : String.ofList (joinSegments init) ≠ "" := by
      rw [Ne, String.ofList_eq_empty_iff]
      cases init with
      | nil => exact absurd rfl hempty
      | cons seg init =>
        have hseg := hinit seg List.mem_cons_self
        by_cases hlast : init = []
        · rwa [hlast, joinSegments_singleton]
        · rw [joinSegments_cons hlast]
          exact List.append_ne_nil_of_left_ne_nil hseg _
    rw [if_neg hdir, joinSegments_concat hempty]
    refine String.toList_inj.mp ?_
    simp

/-- The characters of a number. -/
theorem mem_digits_of_mem_toString {n : ℕ} {c : Char} (h : c ∈ (toString n).toList) :
    c ∈ ['0', '1', '2', '3', '4', '5', '6', '7', '8', '9'] := by
  have hdigit : c.isDigit = true := by
    rw [Nat.toString_eq_repr, Nat.toList_repr] at h
    exact Nat.isDigit_of_mem_toDigits (by decide) le_rfl h
  have hrange : 48 ≤ c.toNat ∧ c.toNat ≤ 57 := by
    rw [Char.isDigit, Bool.and_eq_true, decide_eq_true_eq, decide_eq_true_eq] at hdigit
    exact hdigit
  have hdigits : ∀ k < 58, 48 ≤ k →
      Char.ofNat k ∈ ['0', '1', '2', '3', '4', '5', '6', '7', '8', '9'] := by decide
  rw [← Char.ofNat_toNat c]
  exact hdigits _ (Nat.lt_succ_of_le hrange.2) hrange.1

/-- The characters of a counter. -/
theorem mem_counter {n : ℕ} {c : Char} (h : c ∈ counter n) :
    illegalChar c = false ∧ c ≠ '/' ∧ c ≠ '.' := by
  have hdigits : ∀ d ∈ ['0', '1', '2', '3', '4', '5', '6', '7', '8', '9'],
      illegalChar d = false ∧ d ≠ '/' ∧ d ≠ '.' := by decide
  simp only [counter, List.mem_cons, List.mem_append, List.not_mem_nil, or_false] at h
  rcases h with rfl | rfl | hnumber | rfl
  · decide
  · decide
  · exact hdigits c (mem_digits_of_mem_toString hnumber)
  · decide

theorem mem_counter_parenthesis (n : ℕ) : '(' ∈ counter n :=
  List.mem_cons_of_mem _ List.mem_cons_self

section

variable {P : Platform}

/-- The counter keeps a text in NFC. -/
theorem inNFC_counter (laws : UnicodeLaws P) {stem ext : List Char} (h : InNFC P (stem ++ ext))
    (n : ℕ) : InNFC P (stem ++ counter n ++ ext) := by
  obtain ⟨hstem, hext⟩ := inNFC_parts laws h
  have hnil : InNFC P [] := (inNFC_parts laws (a := []) hstem).1
  have hinert : ∀ c ∈ ['0', '1', '2', '3', '4', '5', '6', '7', '8', '9'], c ∈ inertChars := by
    decide
  have hdigits : ∀ ds : List Char, (∀ c ∈ ds, c ∈ inertChars) → InNFC P ds := by
    intro ds hds
    induction ds with
    | nil => exact hnil
    | cons c ds ih =>
      exact inNFC_inert laws (hds c List.mem_cons_self) hnil
        (ih fun d hd => hds d (List.mem_cons_of_mem c hd))
  have hnumber : InNFC P (toString n).toList :=
    hdigits _ fun c hc => hinert c (mem_digits_of_mem_toString hc)
  have hclose : InNFC P ((toString n).toList ++ ')' :: ext) :=
    inNFC_inert laws (by decide) hnumber hext
  have hopen : InNFC P ('(' :: ((toString n).toList ++ ')' :: ext)) :=
    inNFC_inert laws (a := []) (by decide) hnil hclose
  have hspace : InNFC P (stem ++ ' ' :: '(' :: ((toString n).toList ++ ')' :: ext)) :=
    inNFC_inert laws (by decide) hstem hopen
  have htext : stem ++ counter n ++ ext
      = stem ++ ' ' :: '(' :: ((toString n).toList ++ ')' :: ext) := by
    simp [counter]
  rwa [htext]

/-- What stands before the first dot of a base name with a counter: it has the parenthesis of
the counter, or is the same without the counter. -/
theorem first_counter {stem ext : List Char} (n : ℕ)
    (hext : ext = [] ∨ ∃ rest, ext = '.' :: rest) :
    '(' ∈ ((stem ++ counter n ++ ext).splitOn '.').headD [] ∨
      ((stem ++ counter n ++ ext).splitOn '.').headD [] = ((stem ++ ext).splitOn '.').headD [] := by
  by_cases hdot : '.' ∈ stem
  · obtain ⟨front, back, rfl, hfront⟩ := List.eq_append_cons_of_mem hdot
    refine Or.inr ?_
    simp only [List.append_assoc, List.cons_append]
    rw [List.splitOn_append_cons_self_of_not_mem hfront,
      List.splitOn_append_cons_self_of_not_mem hfront]
    rfl
  · have hplain : '.' ∉ stem ++ counter n := by
      rw [List.mem_append, not_or]
      exact ⟨hdot, fun h => (mem_counter h).2.2 rfl⟩
    refine Or.inl ?_
    have hfirst : ((stem ++ counter n ++ ext).splitOn '.').headD [] = stem ++ counter n := by
      rcases hext with rfl | ⟨rest, rfl⟩
      · rw [List.append_nil, List.splitOn_eq_singleton hplain]
        rfl
      · rw [List.splitOn_append_cons_self_of_not_mem hplain]
        rfl
    rw [hfirst]
    exact List.mem_append_right stem (mem_counter_parenthesis n)

/-- **A counter in a base name is at fault only where it makes it too long.** -/
theorem validSegment_counter (laws : UnicodeLaws P) {stem ext : List Char}
    (h : ValidSegment P (stem ++ ext))
    (hext : ext = [] ∨ stem ≠ [] ∧ ∃ rest, ext = '.' :: rest ∧ '.' ∉ rest) (n : ℕ)
    (hbytes : byteLength (stem ++ counter n ++ ext) ≤ maxSegmentBytes) :
    ValidSegment P (stem ++ counter n ++ ext) where
  ne_nil hnil := by
    rw [List.append_assoc, List.append_eq_nil_iff, List.append_eq_nil_iff] at hnil
    exact List.cons_ne_nil _ _ hnil.2.1
  not_dots hdots := by
    have hmem : '(' ∈ stem ++ counter n ++ ext :=
      List.mem_append_left ext (List.mem_append_right stem (mem_counter_parenthesis n))
    rcases hdots with hdots | hdots <;> rw [hdots] at hmem <;> exact absurd hmem (by decide)
  bytes := hbytes
  chars := by
    refine Bool.eq_false_iff.mpr fun hany => ?_
    obtain ⟨c, hc, hillegal⟩ := List.any_eq_true.mp hany
    have hlegal : illegalChar c = false := by
      rcases List.mem_append.mp hc with hc | hc
      · rcases List.mem_append.mp hc with hc | hc
        · exact h.legal (List.mem_append_left ext hc)
        · exact (mem_counter hc).1
      · exact h.legal (List.mem_append_right stem hc)
    exact Bool.false_ne_true (hlegal.symm.trans hillegal)
  last := by
    rcases hext with rfl | ⟨-, rest, rfl, -⟩
    · have hlast : (stem ++ counter n ++ []).getLast? = some ')' := by
        rw [List.append_nil, counter, ← List.cons_append, ← List.cons_append, ← List.append_assoc,
          List.getLast?_concat]
      rw [hlast]
      decide
    · have hlast : (stem ++ counter n ++ '.' :: rest).getLast?
          = (stem ++ '.' :: rest).getLast? := by
        rw [List.getLast?_append_of_ne_nil _ (List.cons_ne_nil _ _),
          List.getLast?_append_of_ne_nil _ (List.cons_ne_nil _ _)]
      rw [hlast]
      exact h.last
  unreserved := by
    have hdevices : ∀ name ∈ windowsReserved, '(' ∉ name.toList := by decide
    rcases first_counter n (hext.imp_right fun ⟨_, rest, hrest, _⟩ => ⟨rest, hrest⟩) with
      hparen | hsame
    · refine Bool.eq_false_iff.mpr fun hreserved => ?_
      refine hdevices _ (List.contains_iff_mem.mp hreserved) (laws.parenthesis _ ?_)
      rwa [String.toList_ofList]
    · rw [hsame]
      exact h.unreserved

/-- **A suffixed path is canonical exactly if it is within the limits.** -/
theorem canonicalPath_suffixPath_iff (laws : UnicodeLaws P) {path : String}
    (h : CanonicalPath P path) (n : ℕ) :
    CanonicalPath P (suffixPath path n) ↔ WithinLimits (suffixPath path n) := by
  rw [canonicalPath_iff laws.slashLaws]
  refine ⟨fun hsuffix => ⟨hsuffix.bytes, fun seg hseg => (hsuffix.segments seg hseg).bytes⟩, ?_⟩
  rintro ⟨hbytes, hlimit⟩
  have htext := (canonicalPath_iff laws.slashLaws).mp h
  obtain ⟨init, base, hsegs⟩ : ∃ init base, path.toList.splitOn '/' = init ++ [base] :=
    ⟨_, _, (List.dropLast_append_getLast (List.splitOn_ne_nil '/' path.toList)).symm⟩
  have hvalid := htext.segments
  have hslash : ∀ seg ∈ init ++ [base], '/' ∉ seg := fun seg hseg =>
    not_mem_of_mem_splitOn (hsegs ▸ hseg)
  rw [hsegs] at hvalid
  have hpath : path = String.ofList (joinSegments (init ++ [base])) := by
    rw [← hsegs, joinSegments_splitOn, String.ofList_toList]
  obtain ⟨stem, ext, rfl, hext, hsuffix⟩ := suffixPath_joinSegments
    (fun seg hseg => (hvalid seg (List.mem_append_left _ hseg)).ne_nil)
    (hslash base (List.mem_append_right init (List.mem_singleton.mpr rfl)))
  have hlast : stem ++ ext ∈ init ++ [stem ++ ext] :=
    List.mem_append_right init (List.mem_singleton.mpr rfl)
  -- the counter goes into the last segment, before its extension
  have hname : '/' ∉ stem ++ counter n ++ ext := by
    have hbase := hslash _ hlast
    rw [List.mem_append, not_or] at hbase
    rw [List.mem_append, List.mem_append, not_or, not_or]
    exact ⟨⟨hbase.1, fun hc => (mem_counter hc).2.1 rfl⟩, hbase.2⟩
  have htext' : (suffixPath path n).toList
      = joinSegments (init ++ [stem ++ counter n ++ ext]) := by
    rw [hpath, hsuffix, String.toList_ofList]
  have hsegs' : (suffixPath path n).toList.splitOn '/' = init ++ [stem ++ counter n ++ ext] := by
    rw [htext']
    refine splitOn_joinSegments (by simp) fun seg hseg => ?_
    rcases List.mem_append.mp hseg with hinit | hnew
    · exact hslash seg (List.mem_append_left _ hinit)
    · rwa [List.mem_singleton.mp hnew]
  refine ⟨?_, hbytes, fun seg hseg => ?_⟩
  · have hnfc : InNFC P (joinSegments (init ++ [stem ++ ext])) := by
      rw [← hsegs, joinSegments_splitOn]
      exact htext.nfc
    rw [htext']
    -- what stands between starters stays as it is under NFC
    by_cases hinit : init = []
    · subst hinit
      rw [List.nil_append, joinSegments_singleton] at hnfc ⊢
      exact inNFC_counter laws hnfc n
    · rw [joinSegments_concat hinit, List.append_cons] at hnfc
      obtain ⟨hdir, hbase⟩ := inNFC_parts laws hnfc
      rw [joinSegments_concat hinit]
      exact inNFC_inert laws (by decide) (inNFC_parts laws hdir).1 (inNFC_counter laws hbase n)
  · rw [hsegs'] at hseg hlimit
    rcases List.mem_append.mp hseg with hinit | hnew
    · exact hvalid seg (List.mem_append_left _ hinit)
    · rw [List.mem_singleton.mp hnew]
      exact validSegment_counter laws (hvalid _ hlast) hext n
        (hlimit _ (List.mem_append_right init (List.mem_singleton.mpr rfl)))

end

end ObsidianSync
