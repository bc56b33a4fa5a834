import Mathlib.Data.List.Nodup
import Mathlib.Data.Nat.Find
import Mathlib.Order.Basic

/-!
# Paging through a listing that shrinks

A listing is handed out in pages, and between two pages it may lose entries.  A page
starts after the last entry of the page before it.  Where that entry is lost the place
is lost with it, and the page starts at the top.

## Main definitions

* `Cursor.left` — what is left of the listing at a call.
* `Cursor.page`, `Cursor.cursorAt` — a page, and the last entry of the page before it.
* `Cursor.shown` — the pages of some calls one after the other.
* `Cursor.Harmless` — where a place is lost, nothing comes before it that stays.

## Main results

* `Cursor.exists_page_eq_nil` — a page is empty at last.
* `Cursor.shown_filter_eq_iff` — what stays is shown once and in order exactly if each
  loss was harmless.
-/

namespace Cursor

variable {α : Type*} [DecidableEq α] (before : α → α → Bool) (limit : ℕ) (listing : ℕ → List α)

/-! ### Pages -/

/-- What is left of a listing after an entry: all of it if the entry is not in it. -/
def leftAfter (before : α → α → Bool) (listing : List α) : Option α → List α
  | none => listing
  | some cursor => if cursor ∈ listing then listing.filter fun a => before cursor a else listing

/-- The last entry of the page before a call. -/
def cursorAt : ℕ → Option α
  | 0 => none
  | n + 1 => ((leftAfter before (listing n) (cursorAt n)).take limit).getLast?

/-- What is left of the listing at a call. -/
def left (n : ℕ) : List α := leftAfter before (listing n) (cursorAt before limit listing n)

/-- The page of a call. -/
def page (n : ℕ) : List α := (left before limit listing n).take limit

/-- The pages of `count` calls from a call on. -/
def shown (n count : ℕ) : List α :=
  (List.range' n count).flatMap (page before limit listing)

/-- The entry that a call starts after is lost. -/
def Lost (n : ℕ) (cursor : α) : Prop :=
  cursorAt before limit listing n = some cursor ∧ cursor ∉ listing n

/-- Where the entry that a later call starts after is lost, none that stays comes before it. -/
def Harmless (n last : ℕ) : Prop :=
  ∀ call, n < call → call ≤ last → ∀ cursor, Lost before limit listing call cursor →
    ∀ a ∈ listing last, before a cursor = false

theorem shown_succ (n count : ℕ) :
    shown before limit listing n (count + 1) =
      page before limit listing n ++ shown before limit listing (n + 1) count := by
  rw [shown, List.range'_succ, List.flatMap_cons, shown]

/-! ### What is left -/

/-- The listing is ordered and only loses entries. -/
structure Shrinks : Prop where
  ordered : (listing 0).Pairwise fun a b => before a b = true
  shrinks : ∀ n, (listing (n + 1)).Sublist (listing n)
  asymm : ∀ a b, before a b = true → before b a = false
  trans : ∀ a b c, before a b = true → before b c = true → before a c = true

variable {before limit listing}

section

variable (h : Shrinks before listing)

include h

omit [DecidableEq α] in
theorem Shrinks.sublist {n last : ℕ} (hlast : n ≤ last) :
    (listing last).Sublist (listing n) := by
  induction hlast with
  | refl => exact List.Sublist.refl _
  | step _ ih => exact (h.shrinks _).trans ih

omit [DecidableEq α] in
theorem Shrinks.pairwise (n : ℕ) : (listing n).Pairwise fun a b => before a b = true :=
  h.ordered.sublist (h.sublist (Nat.zero_le n))

omit [DecidableEq α] in
theorem Shrinks.irrefl (a : α) : before a a = false :=
  Bool.eq_false_iff.mpr fun ha => by simpa [ha] using h.asymm a a ha

omit [DecidableEq α] in
theorem Shrinks.nodup (n : ℕ) : (listing n).Nodup :=
  (h.pairwise n).imp fun {a b} hab heq => by
    rw [heq, h.irrefl] at hab
    exact Bool.false_ne_true hab

end

omit [DecidableEq α] in
/-- Of two entries of an ordered list one comes first. -/
theorem total_of_pairwise {items : List α} (hitems : items.Pairwise fun a b => before a b = true)
    {a b : α} (ha : a ∈ items) (hb : b ∈ items) (hne : a ≠ b) :
    before a b = true ∨ before b a = true := by
  induction hitems with
  | nil => cases ha
  | cons hfirst _ ih =>
    rcases List.mem_cons.mp ha with rfl | ha'
    · exact Or.inl (hfirst b ((List.mem_cons.mp hb).resolve_left (Ne.symm hne)))
    · rcases List.mem_cons.mp hb with rfl | hb'
      · exact Or.inr (hfirst a ha')
      · exact ih ha' hb'

/-- The entries of a part of a list, in its order. -/
theorem filter_mem_of_sublist {part items : List α} (hitems : items.Nodup)
    (hpart : part.Sublist items) : items.filter (· ∈ part) = part := by
  induction hpart with
  | slnil => rfl
  | cons a hpart ih =>
    obtain ⟨ha, hrest⟩ := List.nodup_cons.mp hitems
    rw [List.filter_cons_of_neg (by simpa using fun hin => ha (hpart.subset hin)), ih hrest]
  | @cons_cons part rest a hpart ih =>
    obtain ⟨ha, hrest⟩ := List.nodup_cons.mp hitems
    rw [List.filter_cons_of_pos (by simp)]
    refine congrArg (a :: ·) ((List.filter_congr fun b hb => ?_).trans (ih hrest))
    have hne : b ≠ a := fun heq => ha (heq ▸ hb)
    simp [hne]

/-- Two parts of a list meet in the same entries from either side. -/
theorem filter_mem_comm {part other items : List α} (hitems : items.Nodup)
    (hpart : part.Sublist items) (hother : other.Sublist items) :
    part.filter (· ∈ other) = other.filter (· ∈ part) := by
  calc part.filter (· ∈ other)
      = (items.filter (· ∈ part)).filter (· ∈ other) := by
        rw [filter_mem_of_sublist hitems hpart]
    _ = (items.filter (· ∈ other)).filter (· ∈ part) := by
        simp only [List.filter_filter, Bool.and_comm]
    _ = other.filter (· ∈ part) := by rw [filter_mem_of_sublist hitems hother]

theorem left_sublist (n : ℕ) : (left before limit listing n).Sublist (listing n) := by
  unfold left leftAfter
  split
  · exact List.Sublist.refl _
  · split
    · exact List.filter_sublist
    · exact List.Sublist.refl _

theorem page_sublist (n : ℕ) : (page before limit listing n).Sublist (listing n) :=
  (List.take_sublist _ _).trans (left_sublist n)

/-- A call starts after an entry that the listing once had. -/
theorem mem_of_cursorAt {n : ℕ} {cursor : α}
    (hcursor : cursorAt before limit listing n = some cursor) : ∃ call, cursor ∈ listing call := by
  cases n with
  | zero => cases hcursor
  | succ n => exact ⟨n, (page_sublist n).subset (List.mem_of_getLast? hcursor)⟩

/-- What comes after an entry that is left is left. -/
theorem mem_left_of_before (h : Shrinks before listing) {n : ℕ} {a b : α}
    (ha : a ∈ left before limit listing n) (hb : b ∈ listing n) (hab : before a b = true) :
    b ∈ left before limit listing n := by
  unfold left leftAfter at ha ⊢
  split at ha
  · exact hb
  · split at ha
    · next hmem =>
      rw [if_pos hmem]
      exact List.mem_filter.mpr ⟨hb, h.trans _ _ _ (List.mem_filter.mp ha).2 hab⟩
    · next hmem =>
      rw [if_neg hmem]
      exact hb

/-- **A page parts what is left**: its last entry comes before the rest and before nothing else. -/
theorem left_split (h : Shrinks before listing) {n : ℕ} {cursor : α}
    (hcursor : cursorAt before limit listing (n + 1) = some cursor) :
    ∃ tail, left before limit listing n = page before limit listing n ++ tail ∧
      cursor ∈ page before limit listing n ∧
      (∀ a ∈ page before limit listing n, a = cursor ∨ before a cursor = true) ∧
      ∀ a ∈ listing n, before cursor a = true ↔ a ∈ tail := by
  have hsplit : left before limit listing n = page before limit listing n ++
      (left before limit listing n).drop limit := (List.take_append_drop _ _).symm
  obtain ⟨front, hfront⟩ := List.getLast?_eq_some_iff.mp hcursor
  have hpage : page before limit listing n = front ++ [cursor] := hfront
  have hmem : cursor ∈ page before limit listing n := by simp [hpage]
  have hsublist : (left before limit listing n).Sublist (listing n) := left_sublist n
  have hordered := (h.pairwise n).sublist hsublist
  rw [hsplit] at hordered
  obtain ⟨hpairs, -, htail⟩ := List.pairwise_append.mp hordered
  have hlast : ∀ a ∈ page before limit listing n, a = cursor ∨ before a cursor = true := by
    intro a ha
    rw [hpage] at ha hpairs
    rcases List.mem_append.mp ha with hin | hin
    · exact Or.inr ((List.pairwise_append.mp hpairs).2.2 a hin cursor List.mem_cons_self)
    · exact Or.inl (List.mem_singleton.mp hin)
  refine ⟨_, hsplit, hmem, hlast, fun a ha => ⟨fun hafter => ?_, htail cursor hmem a⟩⟩
  have hleft : a ∈ left before limit listing n :=
    mem_left_of_before h (hsplit ▸ List.mem_append_left _ hmem) ha hafter
  rw [hsplit] at hleft
  refine (List.mem_append.mp hleft).resolve_left fun hin => ?_
  rcases hlast a hin with rfl | hbefore
  · rw [h.irrefl] at hafter
    exact Bool.false_ne_true hafter
  · rw [h.asymm _ _ hafter] at hbefore
    exact Bool.false_ne_true hbefore

/-! ### The pages come to an end -/

/-- A call that shows something leaves less, or the listing has lost an entry. -/
theorem length_left_succ (h : Shrinks before listing) {n : ℕ}
    (hpage : page before limit listing n ≠ []) :
    (listing (n + 1)).length < (listing n).length ∨
      (listing (n + 1)).length = (listing n).length ∧
        (left before limit listing (n + 1)).length < (left before limit listing n).length := by
  obtain ⟨cursor, hcursor⟩ : ∃ cursor, cursorAt before limit listing (n + 1) = some cursor :=
    ⟨_, List.getLast?_eq_some_getLast hpage⟩
  obtain ⟨tail, hsplit, hmem, -, hafter⟩ := left_split h hcursor
  rcases Nat.lt_or_eq_of_le (h.shrinks n).length_le with hlt | heq
  · exact Or.inl hlt
  · refine Or.inr ⟨heq, ?_⟩
    have hsame : listing (n + 1) = listing n := (h.shrinks n).eq_of_length heq
    have hthere : cursor ∈ listing n :=
      (left_sublist n).subset (hsplit ▸ List.mem_append_left _ hmem)
    have hleft : left before limit listing (n + 1) =
        (listing n).filter fun a => before cursor a := by
      rw [left, hcursor, leftAfter, hsame, if_pos hthere]
    have htail : (left before limit listing (n + 1)).length ≤ tail.length := by
      rw [hleft]
      exact ((h.nodup n).filter _).length_le_of_subset fun a ha =>
        (hafter a (List.mem_filter.mp ha).1).mp (List.mem_filter.mp ha).2
    rw [hsplit, List.length_append]
    have := List.length_pos_iff.mpr hpage
    omega

theorem exists_page_eq_nil_of (h : Shrinks before listing) (n : ℕ) :
    ∃ last, page before limit listing last = [] := by
  by_cases hpage : page before limit listing n = []
  · exact ⟨n, hpage⟩
  · exact exists_page_eq_nil_of h (n + 1)
termination_by ((listing n).length, (left before limit listing n).length)
decreasing_by
  rcases length_left_succ h hpage with hlt | ⟨heq, hlt⟩
  · exact Prod.Lex.left _ _ hlt
  · rw [heq]
    exact Prod.Lex.right _ hlt

/-- **A page is empty at last**, and those before it are not. -/
theorem exists_page_eq_nil (h : Shrinks before listing) :
    ∃ last, page before limit listing last = [] ∧
      ∀ call < last, page before limit listing call ≠ [] := by
  have hex : ∃ last, page before limit listing last = [] := exists_page_eq_nil_of h 0
  exact ⟨Nat.find hex, Nat.find_spec hex, fun _ hcall => Nat.find_min hex hcall⟩

/-! ### What stays is shown -/

/-- The entries left at a call that stay until the last one. -/
def kept (before : α → α → Bool) (limit : ℕ) (listing : ℕ → List α) (n last : ℕ) : List α :=
  (left before limit listing n).filter (· ∈ listing last)

/-- What is left after a page: the entries after its last one, or all if that is lost. -/
theorem kept_succ (h : Shrinks before listing) {n last : ℕ} (hlast : n + 1 ≤ last) {cursor : α}
    (hcursor : cursorAt before limit listing (n + 1) = some cursor) :
    kept before limit listing (n + 1) last =
      if cursor ∈ listing (n + 1) then (listing last).filter fun a => before cursor a
      else listing last := by
  have hsub := h.sublist hlast
  rw [kept, filter_mem_comm (h.nodup (n + 1)) (left_sublist (n + 1)) hsub, left, hcursor, leftAfter]
  split
  · exact List.filter_congr fun a ha => by simp [hsub.subset ha]
  · exact List.filter_eq_self.mpr fun a ha => decide_eq_true (hsub.subset ha)

/-- **A page shows the first of what is left**, the rest comes after its last entry. -/
theorem kept_eq (h : Shrinks before listing) {n last : ℕ} (hlast : n + 1 ≤ last) {cursor : α}
    (hcursor : cursorAt before limit listing (n + 1) = some cursor) :
    kept before limit listing n last =
      (page before limit listing n).filter (· ∈ listing last) ++
        (listing last).filter fun a => before cursor a := by
  obtain ⟨tail, hsplit, -, -, hafter⟩ := left_split h hcursor
  have hsub := h.sublist (Nat.le_of_succ_le hlast)
  have htail : tail.Sublist (listing n) :=
    (hsplit ▸ List.sublist_append_right _ _ : tail.Sublist (left before limit listing n)).trans
      (left_sublist n)
  rw [kept, hsplit, List.filter_append, filter_mem_comm (h.nodup n) htail hsub]
  refine congrArg _ (List.filter_congr fun a ha => ?_)
  rw [Bool.eq_iff_iff, decide_eq_true_iff, hafter a (hsub.subset ha)]

/-- A loss is harmless if all that stays comes after the entry. -/
theorem filter_before_eq_iff (h : Shrinks before listing) {n last : ℕ} (hlast : n + 1 ≤ last)
    {cursor : α} (hlost : Lost before limit listing (n + 1) cursor) :
    (listing last).length ≤ ((listing last).filter fun a => before cursor a).length ↔
      ∀ a ∈ listing last, before a cursor = false := by
  obtain ⟨tail, hsplit, hmem, -, -⟩ := left_split h hlost.1
  have hthere : cursor ∈ listing n :=
    (left_sublist n).subset (hsplit ▸ List.mem_append_left _ hmem)
  have hsub := h.sublist (Nat.le_of_succ_le hlast)
  have hle := List.length_filter_le (fun a => before cursor a) (listing last)
  rw [show (listing last).length ≤ ((listing last).filter fun a => before cursor a).length ↔
      ((listing last).filter fun a => before cursor a).length = (listing last).length from
    ⟨fun hge => le_antisymm hle hge, ge_of_eq⟩, List.length_filter_eq_length_iff]
  refine forall₂_congr fun a ha => ⟨h.asymm _ _, fun hnot => ?_⟩
  have hne : a ≠ cursor := fun heq => hlost.2 ((h.sublist hlast).subset (heq ▸ ha))
  exact (total_of_pairwise (h.pairwise n) (hsub.subset ha) hthere hne).resolve_left
    (by rw [hnot]; exact Bool.false_ne_true)

theorem harmless_succ {n last : ℕ} :
    Harmless before limit listing n last ↔
      (n + 1 ≤ last → ∀ cursor, Lost before limit listing (n + 1) cursor →
        ∀ a ∈ listing last, before a cursor = false) ∧
      Harmless before limit listing (n + 1) last := by
  constructor
  · intro hall
    exact ⟨hall _ n.lt_succ_self, fun call hcall => hall call (n.lt_succ_self.trans hcall)⟩
  · rintro ⟨hfirst, hrest⟩ call hcall hlast
    rcases Nat.eq_or_lt_of_le hcall with rfl | hlt
    · exact hfirst hlast
    · exact hrest call hlt hlast

/-- **What stays is shown as often as it is left**, at least, and just so if losses are harmless.
By induction on the calls to come. -/
theorem shown_filter (h : Shrinks before listing) {last : ℕ}
    (hend : page before limit listing last = []) (hlimit : 1 ≤ limit)
    (hpages : ∀ call < last, page before limit listing call ≠ []) {n count : ℕ}
    (hcount : n + count = last) :
    (kept before limit listing n last).length ≤
        ((shown before limit listing n count).filter (· ∈ listing last)).length ∧
      (((shown before limit listing n count).filter (· ∈ listing last)).length ≤
          (kept before limit listing n last).length → Harmless before limit listing n last) ∧
      (Harmless before limit listing n last →
        (shown before limit listing n count).filter (· ∈ listing last) =
          kept before limit listing n last) := by
  induction count generalizing n with
  | zero =>
    obtain rfl : n = last := hcount
    have hleft : left before limit listing n = [] := by
      rw [page, List.take_eq_nil_iff] at hend
      exact hend.resolve_left (by omega)
    have hnone : Harmless before limit listing n n := fun call hcall hle => by omega
    simp [kept, hleft, shown, hnone]
  | succ count ih =>
    obtain ⟨hle, himp, heq⟩ := ih (n := n + 1) (by omega)
    have hlast : n + 1 ≤ last := by omega
    obtain ⟨cursor, hcursor⟩ : ∃ cursor, cursorAt before limit listing (n + 1) = some cursor :=
      ⟨_, List.getLast?_eq_some_getLast (hpages n (by omega))⟩
    rw [shown_succ, List.filter_append, List.length_append, kept_eq h hlast hcursor,
      List.length_append, harmless_succ]
    rw [kept_succ h hlast hcursor] at hle himp heq
    by_cases hmem : cursor ∈ listing (n + 1)
    · -- the place is kept
      have hnone : ∀ other, ¬ Lost before limit listing (n + 1) other := fun other hlost => by
        obtain rfl : cursor = other := Option.some.inj (hcursor.symm.trans hlost.1)
        exact hlost.2 hmem
      rw [if_pos hmem] at hle himp heq
      refine ⟨by omega, fun hlen => ⟨fun _ other hlost => absurd hlost (hnone other),
        himp (by omega)⟩, fun hall => by rw [heq hall.2]⟩
    · -- the place is lost, so all that stays is left
      have hlost : Lost before limit listing (n + 1) cursor := ⟨hcursor, hmem⟩
      have hfilter := List.length_filter_le (fun a => before cursor a) (listing last)
      rw [if_neg hmem] at hle himp heq
      refine ⟨by omega, fun hlen => ⟨fun _ other hother => ?_, himp (by omega)⟩, fun hall => ?_⟩
      · obtain rfl : cursor = other := Option.some.inj (hcursor.symm.trans hother.1)
        exact (filter_before_eq_iff h hlast hlost).mp (by omega)
      · have hafter := hall.1 hlast cursor hlost
        have hrest := (filter_before_eq_iff h hlast hlost).mpr hafter
        rw [heq hall.2, List.filter_sublist.eq_of_length_le hrest]

/-- **What stays is shown once and in order exactly if each loss is harmless.** -/
theorem shown_filter_eq_iff (h : Shrinks before listing) {last : ℕ}
    (hend : page before limit listing last = []) (hlimit : 1 ≤ limit)
    (hpages : ∀ call < last, page before limit listing call ≠ []) :
    (shown before limit listing 0 last).filter (· ∈ listing last) = listing last ↔
      Harmless before limit listing 0 last := by
  obtain ⟨-, himp, heq⟩ := shown_filter h hend hlimit hpages (Nat.zero_add last)
  have hkept : kept before limit listing 0 last = listing last :=
    (filter_mem_comm (h.nodup 0) (List.Sublist.refl _) (h.sublist (Nat.zero_le last))).trans
      (List.filter_eq_self.mpr fun a ha =>
        decide_eq_true ((h.sublist (Nat.zero_le last)).subset ha))
  rw [hkept] at himp heq
  exact ⟨fun hall => himp (by rw [hall]), heq⟩

end Cursor
