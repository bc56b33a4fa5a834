import Mathlib.Data.List.Basic

/-!
# Base64 without padding

Three bytes are four sextets, and the last one or two bytes are two or three.
`digits` is the alphabet for files and URLs; letters that stand for no sextet
are passed over on the way back, and the letters `+` and `/` of the other
alphabet are taken as well.

## Main definitions

* `Base64.toSextets`, `Base64.ofSextets` — bytes and sextets.
* `Base64.encode`, `Base64.decode` — bytes and letters.

## Main results

* `Base64.decode_encode` — every list of bytes is read back.
-/

namespace Base64

/-- The sextets of the bytes. -/
def toSextets : List UInt8 → List ℕ
  | a :: b :: c :: rest =>
    a.toNat / 4 :: (a.toNat % 4 * 16 + b.toNat / 16) :: (b.toNat % 16 * 4 + c.toNat / 64) ::
      c.toNat % 64 :: toSextets rest
  | [a, b] => [a.toNat / 4, a.toNat % 4 * 16 + b.toNat / 16, b.toNat % 16 * 4]
  | [a] => [a.toNat / 4, a.toNat % 4 * 16]
  | [] => []

/-- The bytes of the sextets; what is less than a byte is dropped. -/
def ofSextets : List ℕ → List UInt8
  | p :: q :: r :: s :: rest =>
    .ofNat (p * 4 + q / 16) :: .ofNat (q % 16 * 16 + r / 4) :: .ofNat (r % 4 * 64 + s) ::
      ofSextets rest
  | [p, q, r] => [.ofNat (p * 4 + q / 16), .ofNat (q % 16 * 16 + r / 4)]
  | [p, q] => [.ofNat (p * 4 + q / 16)]
  | _ => []

theorem lt_of_mem_toSextets (bytes : List UInt8) : ∀ n ∈ toSextets bytes, n < 64 := by
  have hbyte : ∀ a : UInt8, a.toNat < 256 := UInt8.toNat_lt
  induction bytes using toSextets.induct with
  | case1 a b c rest ih =>
    have ha := hbyte a
    have hb := hbyte b
    have hc := hbyte c
    intro n hn
    simp only [toSextets, List.mem_cons] at hn
    rcases hn with rfl | rfl | rfl | rfl | hn
    · omega
    · omega
    · omega
    · omega
    · exact ih n hn
  | case2 a b =>
    have ha := hbyte a
    have hb := hbyte b
    simp only [toSextets, List.mem_cons, List.not_mem_nil, or_false]
    rintro n (rfl | rfl | rfl) <;> omega
  | case3 a =>
    have ha := hbyte a
    simp only [toSextets, List.mem_cons, List.not_mem_nil, or_false]
    rintro n (rfl | rfl) <;> omega
  | case4 => exact fun n hn => absurd hn List.not_mem_nil

theorem ofSextets_toSextets (bytes : List UInt8) : ofSextets (toSextets bytes) = bytes := by
  have hback : ∀ (a : UInt8) (n : ℕ), n = a.toNat → UInt8.ofNat n = a := by
    rintro a n rfl
    exact UInt8.ofNat_toNat
  induction bytes using toSextets.induct with
  | case1 a b c rest ih =>
    have ha := UInt8.toNat_lt a
    have hb := UInt8.toNat_lt b
    have hc := UInt8.toNat_lt c
    rw [toSextets, ofSextets, ih, hback a _ (by omega), hback b _ (by omega),
      hback c _ (by omega)]
  | case2 a b =>
    have ha := UInt8.toNat_lt a
    have hb := UInt8.toNat_lt b
    rw [toSextets, ofSextets, hback a _ (by omega), hback b _ (by omega)]
  | case3 a =>
    have ha := UInt8.toNat_lt a
    rw [toSextets, ofSextets, hback a _ (by omega)]
  | case4 => rfl

/-- The letters for the sextets. -/
def digits : List Char :=
  "ABCDEFGHIJKLMNOPQRSTUVWXYZabcdefghijklmnopqrstuvwxyz0123456789-_".toList

/-- The letter for a sextet. -/
def digit (n : ℕ) : Char := digits.getD n 'A'

/-- The sextet a letter stands for. -/
def sextet (c : Char) : Option ℕ :=
  if c = '+' then some 62 else if c = '/' then some 63 else digits.idxOf? c

theorem sextet_digit : ∀ n < 64, sextet (digit n) = some n := by decide +kernel

/-- The letters for the bytes. -/
def encode (bytes : List UInt8) : List Char := (toSextets bytes).map digit

/-- The bytes the letters stand for. -/
def decode (text : List Char) : List UInt8 := ofSextets (text.filterMap sextet)

theorem decode_encode (bytes : List UInt8) : decode (encode bytes) = bytes := by
  have hsextets : ∀ ns : List ℕ, (∀ n ∈ ns, n < 64) → (ns.map digit).filterMap sextet = ns := by
    intro ns hns
    induction ns with
    | nil => rfl
    | cons n ns ih =>
      rw [List.map_cons, List.filterMap_cons_some (sextet_digit n (hns n List.mem_cons_self)),
        ih fun m hm => hns m (List.mem_cons_of_mem n hm)]
  rw [decode, encode, hsextets _ (lt_of_mem_toSextets bytes), ofSextets_toSextets]

theorem encode_ne_nil {bytes : List UInt8} (h : bytes ≠ []) : encode bytes ≠ [] := by
  intro hnil
  rw [← decode_encode bytes, hnil] at h
  exact h rfl

end Base64
