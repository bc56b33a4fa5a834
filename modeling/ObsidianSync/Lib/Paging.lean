import Mathlib.Data.List.Nodup
import Mathlib.Data.List.Perm.Basic
import Mathlib.Order.Basic

/-!
# Keyset pagination

A listing is handed out in pages.  A page starts after the key of the last entry
of the page before it: what is left after a key is found by a comparison of keys,
whatever the order of the listing.  The pages make up the listing exactly if at
the end of each of them the two agree, that is, if the key parts the listing into
what was handed out and what was not.

## Main definitions

* `Paging.remaining` — what is left of a listing after a cursor.
* `Paging.page` — a page, and the cursor of the next one.
* `Paging.follow` — the pages one after the other.
* `Paging.PageEnds` — at the end of each page the key parts the listing.

## Main results

* `Paging.exists_follow` — the pages come to an end.
* `Paging.perm_follow_iff` — they make up the listing exactly if `PageEnds`.
* `Paging.pageEnds_of_pairwise` — which it is in a listing ordered by the
  comparison.
-/

namespace Paging

variable {α κ : Type*}

section

variable (key : α → κ) (after : κ → κ → Bool)

/-- What is left of the listing after the cursor. -/
def remaining (listing : List α) (cursor : Option κ) : List α :=
  listing.filter fun a => cursor.all fun c => after c (key a)

/-- A page, and the cursor of the next one, which there is where enough was left. -/
def page (limit enough : ℕ) (listing : List α) (cursor : Option κ) : List α × Option κ :=
  let left := remaining key after listing cursor
  (left.take limit, if enough ≤ left.length then (left.take limit).getLast?.map key else none)

/-- The entries of the pages from a cursor on, or `none` where the fuel does not last. -/
def follow (page : Option κ → List α × Option κ) : ℕ → Option κ → Option (List α)
  | 0, _ => none
  | fuel + 1, cursor =>
    match page cursor with
    | (items, none) => some items
    | (items, some next) => (follow page fuel (some next)).map (items ++ ·)

/-- At the end of each page that has a next one, its key comes before what follows in the
listing, and before nothing else. -/
def PageEnds (limit enough : ℕ) (handed rest : List α) : Prop :=
  ∀ front last tail, rest = front ++ last :: tail → limit ∣ front.length + 1 →
    enough ≤ limit + tail.length →
      (∀ a ∈ handed ++ front, after (key last) (key a) = false) ∧
        ∀ a ∈ tail, after (key last) (key a) = true

end

variable {key : α → κ} {after : κ → κ → Bool} {limit enough : ℕ} {listing : List α}
  {cursor : Option κ}

/-! ### One page -/

/-- The last page. -/
theorem page_of_lt (h : (remaining key after listing cursor).length < enough)
    (hle : enough ≤ limit + 1) :
    page key after limit enough listing cursor = (remaining key after listing cursor, none) := by
  unfold page
  dsimp only
  rw [if_neg (by omega), List.take_of_length_le (by omega)]

/-- A page that has a next one. -/
theorem page_of_le {front tail : List α} {last : α}
    (hleft : remaining key after listing cursor = front ++ last :: tail)
    (hfull : front.length + 1 = limit) (hle : enough ≤ limit + tail.length) :
    page key after limit enough listing cursor = (front ++ [last], some (key last)) := by
  have htake : (front ++ last :: tail).take limit = front ++ [last] := by
    rw [← hfull, List.take_append, List.take_of_length_le (Nat.le_succ _), Nat.add_sub_cancel_left]
    rfl
  have hlength : enough ≤ (front ++ last :: tail).length := by
    rw [List.length_append, List.length_cons]
    omega
  unfold page
  dsimp only
  rw [hleft, htake, if_pos hlength, List.getLast?_concat]
  rfl

/-- What is left is a last page, or more than one. -/
theorem exists_split {left : List α} (hlimit : 1 ≤ limit) (henough : limit ≤ enough)
    (h : enough ≤ left.length) :
    ∃ front last tail, left = front ++ last :: tail ∧ front.length + 1 = limit ∧
      enough ≤ limit + tail.length := by
  have hlt : limit - 1 < left.length := by omega
  refine ⟨left.take (limit - 1), left[limit - 1], left.drop (limit - 1 + 1), ?_, ?_, ?_⟩
  · rw [List.getElem_cons_drop, List.take_append_drop]
  · rw [List.length_take]
    omega
  · rw [List.length_drop]
    omega

/-- What the key of an entry leaves, where it parts the listing. -/
theorem remaining_of_parts {front tail : List α} {last : α}
    (hirrefl : ∀ k, after k k = false)
    (hfront : ∀ a ∈ front, after (key last) (key a) = false)
    (htail : ∀ a ∈ tail, after (key last) (key a) = true) :
    remaining key after (front ++ last :: tail) (some (key last)) = tail := by
  have hnone : front.filter (fun a => after (key last) (key a)) = [] :=
    List.filter_eq_nil_iff.mpr fun a ha => by rw [hfront a ha]; exact Bool.false_ne_true
  have hall : tail.filter (fun a => after (key last) (key a)) = tail :=
    List.filter_eq_self.mpr htail
  show (front ++ last :: tail).filter (fun a => after (key last) (key a)) = tail
  rw [List.filter_append, hnone, List.nil_append, List.filter_cons_of_neg, hall]
  rw [hirrefl]
  exact Bool.false_ne_true

/-! ### Following the cursors -/

/-- The first entry that is left is handed out. -/
theorem head_mem_follow (hlimit : 1 ≤ limit) (henough : limit ≤ enough) (hle : enough ≤ limit + 1)
    {fuel : ℕ} {a : α} {rest items : List α}
    (hleft : remaining key after listing cursor = a :: rest)
    (h : follow (page key after limit enough listing) fuel cursor = some items) : a ∈ items := by
  cases fuel with
  | zero => cases h
  | succ fuel =>
    rw [follow] at h
    by_cases hmore : enough ≤ (remaining key after listing cursor).length
    · obtain ⟨front, last, tail, hsplit, hfull, htail⟩ := exists_split hlimit henough hmore
      rw [page_of_le hsplit hfull htail] at h
      obtain ⟨next, -, rfl⟩ := Option.map_eq_some_iff.mp h
      rw [hleft, List.append_cons] at hsplit
      cases front with
      | nil => exact List.mem_append_left _ ((List.cons.inj hsplit).1 ▸ List.mem_cons_self)
      | cons b front => exact List.mem_append_left _ ((List.cons.inj hsplit).1 ▸ List.mem_cons_self)
    · rw [page_of_lt (Nat.lt_of_not_le hmore) hle, Option.some.injEq, hleft] at h
      exact h ▸ List.mem_cons_self

/-- The end of the first page, and the ends of the pages after it. -/
theorem pageEnds_iff {handed front tail : List α} {last : α} (hfull : front.length + 1 = limit)
    (htail : enough ≤ limit + tail.length) :
    PageEnds key after limit enough handed (front ++ last :: tail) ↔
      ((∀ a ∈ handed ++ front, after (key last) (key a) = false) ∧
        ∀ a ∈ tail, after (key last) (key a) = true) ∧
      PageEnds key after limit enough (handed ++ front ++ [last]) tail := by
  constructor
  · intro h
    refine ⟨h front last tail rfl (hfull ▸ Nat.dvd_refl _) htail,
      fun front' last' tail' hsplit hdvd hle => ?_⟩
    have hwhole : front ++ last :: tail = (front ++ last :: front') ++ last' :: tail' := by
      rw [hsplit, List.append_assoc, List.cons_append]
    have hlength : (front ++ last :: front').length + 1 = limit + (front'.length + 1) := by
      rw [List.length_append, List.length_cons]
      omega
    have hends := h (front ++ last :: front') last' tail' hwhole
      (hlength ▸ (Nat.dvd_add_right (Nat.dvd_refl limit)).mpr hdvd) hle
    rwa [← List.append_assoc, List.append_cons] at hends
  · rintro ⟨hfirst, hnext⟩ front' last' tail' hsplit hdvd hle
    by_cases hlength : front.length = front'.length
    · -- the end of the first page
      obtain ⟨rfl, hrest⟩ := List.append_inj hsplit hlength
      obtain ⟨rfl, rfl⟩ := List.cons.inj hrest
      exact hfirst
    · have hlonger : limit ≤ front'.length + 1 := Nat.le_of_dvd (Nat.succ_pos _) hdvd
      rcases List.append_eq_append_iff.mp hsplit with ⟨mid, rfl, hmid⟩ | ⟨mid, rfl, -⟩
      · cases mid with
        | nil => exact absurd (by rw [List.append_nil]) hlength
        | cons a mid =>
          obtain ⟨rfl, rfl⟩ := List.cons.inj hmid
          rw [List.length_append, List.length_cons] at hdvd
          have hdvd' : limit ∣ mid.length + 1 := by
            refine (Nat.dvd_add_right (Nat.dvd_refl limit)).mp ?_
            rwa [show limit + (mid.length + 1) = front.length + (mid.length + 1) + 1 by omega]
          have hends := hnext mid last' tail' rfl hdvd' hle
          rwa [← List.append_assoc, List.append_cons]
      · rw [List.length_append] at hfull hlength
        omega

section

variable (htrans : ∀ a b c, after a b = true → after b c = true → after a c = true)
include htrans

/-- What is left after an entry that was left, was left before. -/
theorem remaining_key {last : α} (hlast : last ∈ remaining key after listing cursor) :
    remaining key after listing (some (key last))
      = (remaining key after listing cursor).filter fun a => after (key last) (key a) := by
  obtain ⟨-, hcursor⟩ := List.mem_filter.mp hlast
  rw [remaining, remaining, List.filter_filter]
  refine List.filter_congr fun a _ => ?_
  cases cursor with
  | none => exact (Bool.and_true _).symm
  | some c =>
    cases hafter : after (key last) (key a) with
    | false => rw [Option.all_some, hafter, Bool.false_and]
    | true => rw [Option.all_some, Option.all_some, hafter, htrans c _ _ hcursor hafter]; rfl

/-- What is handed out lies after the cursor. -/
theorem mem_remaining_of_follow (hlimit : 1 ≤ limit) (henough : limit ≤ enough)
    (hle : enough ≤ limit + 1) {fuel : ℕ} {items : List α}
    (h : follow (page key after limit enough listing) fuel cursor = some items) :
    ∀ a ∈ items, a ∈ remaining key after listing cursor := by
  induction fuel generalizing cursor items with
  | zero => cases h
  | succ fuel ih =>
    rw [follow] at h
    by_cases hmore : enough ≤ (remaining key after listing cursor).length
    · obtain ⟨front, last, tail, hleft, hfull, htail⟩ := exists_split hlimit henough hmore
      rw [page_of_le hleft hfull htail] at h
      obtain ⟨rest, hrest, rfl⟩ := Option.map_eq_some_iff.mp h
      have hlast : last ∈ remaining key after listing cursor := by
        rw [hleft]
        exact List.mem_append_right _ List.mem_cons_self
      intro a ha
      rcases List.mem_append.mp ha with hpage | hnext
      · rw [hleft, List.append_cons]
        exact List.mem_append_left tail hpage
      · have hleft' := ih hrest a hnext
        rw [remaining_key htrans hlast] at hleft'
        exact List.mem_of_mem_filter hleft'
    · rw [page_of_lt (Nat.lt_of_not_le hmore) hle, Option.some.injEq] at h
      rw [← h]
      exact fun _ ha => ha

/-- The pages come to an end: each leaves less than the one before. -/
theorem exists_follow (hirrefl : ∀ k, after k k = false) (hlimit : 1 ≤ limit)
    (henough : limit ≤ enough) (hle : enough ≤ limit + 1) {fuel : ℕ}
    (hfuel : (remaining key after listing cursor).length < fuel) :
    ∃ items, follow (page key after limit enough listing) fuel cursor = some items := by
  induction fuel generalizing cursor with
  | zero => omega
  | succ fuel ih =>
    rw [follow]
    by_cases hmore : enough ≤ (remaining key after listing cursor).length
    · obtain ⟨front, last, tail, hleft, hfull, htail⟩ := exists_split hlimit henough hmore
      rw [page_of_le hleft hfull htail]
      have hlast : last ∈ remaining key after listing cursor := by
        rw [hleft]
        exact List.mem_append_right _ List.mem_cons_self
      have hshorter : (remaining key after listing (some (key last))).length
          < (remaining key after listing cursor).length := by
        rw [remaining_key htrans hlast]
        refine List.length_filter_lt_length_iff_exists.mpr ⟨last, hlast, ?_⟩
        rw [hirrefl]
        exact Bool.false_ne_true
      obtain ⟨items, hitems⟩ := ih (Nat.lt_of_lt_of_le hshorter (Nat.lt_succ_iff.mp hfuel))
      exact ⟨front ++ [last] ++ items, by dsimp only; rw [hitems]; rfl⟩
    · rw [page_of_lt (Nat.lt_of_not_le hmore) hle]
      exact ⟨_, rfl⟩

/-- Where the pages after an entry list what follows it, its key parts the listing: what the key
leaves of the entries before it is handed out first, and what it does not leave never. -/
theorem parts_of_perm (hlimit : 1 ≤ limit) (henough : limit ≤ enough) (hle : enough ≤ limit + 1)
    {front tail items : List α} {last : α} (hlisting : listing = front ++ last :: tail)
    (hnodup : listing.Nodup) {fuel : ℕ}
    (h : follow (page key after limit enough listing) fuel (some (key last)) = some items)
    (hperm : items.Perm tail) :
    (∀ a ∈ front, after (key last) (key a) = false) ∧
      ∀ a ∈ tail, after (key last) (key a) = true := by
  have hleft := mem_remaining_of_follow htrans hlimit henough hle h
  constructor
  · intro a ha
    by_contra hafter
    rw [Bool.not_eq_false] at hafter
    -- the first entry that is left stands before `last`, and it is handed out
    have hsplit : remaining key after listing (some (key last))
        = front.filter (fun a => after (key last) (key a)) ++
          (last :: tail).filter (fun a => after (key last) (key a)) := by
      rw [hlisting]
      exact List.filter_append front (last :: tail)
    cases hfront : front.filter (fun a => after (key last) (key a)) with
    | nil => exact List.filter_eq_nil_iff.mp hfront a ha hafter
    | cons b rest =>
      rw [hfront, List.cons_append] at hsplit
      have hhanded : b ∈ items := head_mem_follow hlimit henough hle hsplit h
      have hbefore : b ∈ front := List.mem_of_mem_filter (hfront ▸ List.mem_cons_self)
      rw [hlisting] at hnodup
      exact List.disjoint_of_nodup_append hnodup hbefore
        (List.mem_cons_of_mem last (hperm.mem_iff.mp hhanded))
  · intro a ha
    exact (List.mem_filter.mp (hleft a (hperm.mem_iff.mpr ha))).2

/-- The pages from a cursor that leaves the rest of the listing. -/
theorem perm_follow_rest (hirrefl : ∀ k, after k k = false) (hlimit : 1 ≤ limit)
    (henough : limit ≤ enough) (hle : enough ≤ limit + 1) (hnodup : listing.Nodup) {fuel : ℕ}
    {handed rest items : List α} (hlisting : listing = handed ++ rest)
    (hrest : remaining key after listing cursor = rest)
    (h : follow (page key after limit enough listing) fuel cursor = some items) :
    items.Perm rest ↔ PageEnds key after limit enough handed rest := by
  induction fuel generalizing cursor handed rest items with
  | zero => cases h
  | succ fuel ih =>
    rw [follow] at h
    by_cases hmore : enough ≤ rest.length
    · obtain ⟨front, last, tail, rfl, hfull, htail⟩ := exists_split hlimit henough hmore
      rw [page_of_le hrest hfull htail] at h
      obtain ⟨items', hitems', rfl⟩ := Option.map_eq_some_iff.mp h
      have hlisting' : listing = (handed ++ front) ++ last :: tail := by
        rw [hlisting, List.append_assoc]
      rw [List.append_cons front last tail, List.perm_append_left_iff, ← List.append_cons,
        pageEnds_iff hfull htail]
      -- once the key parts the listing, the next page starts with what follows it
      have hnext : (∀ a ∈ handed ++ front, after (key last) (key a) = false) ∧
          (∀ a ∈ tail, after (key last) (key a) = true) →
            (items'.Perm tail ↔
              PageEnds key after limit enough (handed ++ front ++ [last]) tail) := by
        rintro ⟨hfront, htail'⟩
        refine ih (by rw [hlisting', List.append_cons]) ?_ hitems'
        rw [hlisting']
        exact remaining_of_parts hirrefl hfront htail'
      constructor
      · intro hperm
        have hparts :=
          parts_of_perm htrans hlimit henough hle hlisting' hnodup hitems' hperm
        exact ⟨hparts, (hnext hparts).mp hperm⟩
      · rintro ⟨hparts, hends⟩
        exact (hnext hparts).mpr hends
    · rw [page_of_lt (hrest ▸ Nat.lt_of_not_le hmore) hle, hrest, Option.some.injEq] at h
      refine ⟨fun _ front last tail hsplit hdvd henough' => ?_, fun _ => h ▸ .refl _⟩
      have hlonger : limit ≤ front.length + 1 := Nat.le_of_dvd (Nat.succ_pos _) hdvd
      rw [hsplit, List.length_append, List.length_cons] at hmore
      omega

/-- **The pages make up the listing exactly if it is parted at the end of each of them.** -/
theorem perm_follow_iff (hirrefl : ∀ k, after k k = false) (hlimit : 1 ≤ limit)
    (henough : limit ≤ enough) (hle : enough ≤ limit + 1) (hnodup : listing.Nodup) :
    (∃ fuel items, follow (page key after limit enough listing) fuel none = some items ∧
      items.Perm listing) ↔ PageEnds key after limit enough [] listing := by
  have hall : remaining key after listing none = listing := List.filter_true listing
  constructor
  · rintro ⟨fuel, items, hfollow, hperm⟩
    exact (perm_follow_rest htrans hirrefl hlimit henough hle hnodup rfl hall hfollow).mp hperm
  · intro hends
    obtain ⟨items, hfollow⟩ := exists_follow htrans hirrefl hlimit henough hle
      (Nat.lt_succ_self (remaining key after listing none).length)
    exact ⟨_, items, hfollow,
      (perm_follow_rest htrans hirrefl hlimit henough hle hnodup rfl hall hfollow).mpr hends⟩

end

/-- **A listing that is ordered by the comparison is parted everywhere.** -/
theorem pageEnds_of_pairwise (hasymm : ∀ a b, after a b = true → after b a = false)
    (h : listing.Pairwise fun a b => after (key a) (key b) = true) :
    PageEnds key after limit enough [] listing := by
  intro front last tail hsplit _ _
  rw [hsplit, List.pairwise_append, List.pairwise_cons] at h
  obtain ⟨-, ⟨htail, -⟩, hfront⟩ := h
  exact ⟨fun a ha => hasymm _ _ (hfront a ha last List.mem_cons_self), htail⟩

end Paging
