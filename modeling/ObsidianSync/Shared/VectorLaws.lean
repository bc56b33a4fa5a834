import Mathlib.Data.List.Sort
import Mathlib.Order.Bounds.Basic
import Mathlib.Order.Lattice
import ObsidianSync.Shared.Pretty
import ObsidianSync.Shared.VersionVector

/-!
# The laws of version vectors

The counters of a vector are a function to the natural numbers, and these functions are
ordered pointwise: `dominates` is the order and `join` the supremum.  A vector may have
entries of zero, and so two vectors with the same counters need not have the same entries;
`serializeVV` leaves these entries out.  Device ids are no names that an object inherits.

A counter is a number, and the sum that `bump` stores is rounded to one.  Below `2 ^ 53` it is
the sum itself, and at `2 ^ 53` the counter stays where it is.

## Main definitions

* `bumpNumber` — `bump`, with the sum rounded.
* `compareVV` — the relation of two vectors.
* `serializeVV` — the text of a vector.
* `VectorLaws` — the laws.

## Main results

* `serializeVV_eq_iff` — the text is that of the counters.
* `vectorLaws` — **vectors are a join semilattice, and a bump is above as long as the counter
  counts up.**
* `not_strictlyDominates_countedOut` — a vector is not below its bump at `2 ^ 53`.
-/

namespace ObsidianSync
namespace VersionVector

/-! ### Incrementing a counter -/

/-- The vector with the device's counter incremented, as a number. -/
def bumpNumber (vv : VersionVector) (deviceId : String) : VersionVector :=
  vv.set (deviceId, increment (counterFor vv deviceId))

/-- Below `2 ^ 53` the sum is a number. -/
theorem bumpNumber_eq_bump {vv : VersionVector} {deviceId : String}
    (h : counterFor vv deviceId < 2 ^ 53) : bumpNumber vv deviceId = bump vv deviceId := by
  rw [bumpNumber, bump, increment_of_lt h]

theorem counterFor_bumpNumber (vv : VersionVector) (d e : String) :
    counterFor (bumpNumber vv d) e
      = if d = e then increment (counterFor vv d) else counterFor vv e := by
  rw [bumpNumber, counterFor_set]

/-- The bump of a vector is strictly above what the vector dominates, if the counter counts up. -/
theorem strictlyDominates_bumpNumber {a b : VersionVector} (h : dominates a b = true) {d : String}
    (hcount : CountsUp (counterFor a d)) : strictlyDominates (bumpNumber a d) b = true := by
  rw [dominates_iff] at h
  rw [strictlyDominates, Bool.and_eq_true, Bool.not_eq_true', ← Bool.not_eq_true, dominates_iff,
    dominates_iff]
  constructor
  · intro e
    rw [counterFor_bumpNumber]
    split
    · next heq =>
      subst heq
      exact (h d).trans hcount.le
    · exact h e
  · intro hall
    have hd := hall d
    rw [counterFor_bumpNumber, if_pos rfl] at hd
    exact absurd (hd.trans (h d)) hcount.not_ge

/-- A vector is strictly below its bump exactly if the counter counts up. -/
theorem strictlyDominates_bumpNumber_iff {vv : VersionVector} {d : String} :
    strictlyDominates (bumpNumber vv d) vv = true ↔ CountsUp (counterFor vv d) := by
  refine ⟨?_, strictlyDominates_bumpNumber (dominates_refl vv)⟩
  intro h
  have hagree : ∀ e, e ≠ d → counterFor (bumpNumber vv d) e = counterFor vv e := by
    intro e he
    rw [counterFor_bumpNumber, if_neg he.symm]
  rw [strictlyDominates_iff_of_agree hagree, counterFor_bumpNumber, if_pos rfl] at h
  exact h

/-! ### The relation of two vectors -/

/-- The names of the relations. -/
inductive VVRelation
  | equal
  | dominates
  | dominated
  | concurrent
  deriving DecidableEq, Repr

/-- The relation of `a` to `b`. -/
def compareVV (a b : VersionVector) : VVRelation :=
  let aDomB := dominates a b
  let bDomA := dominates b a
  if aDomB && bDomA then .equal
  else if aDomB then .dominates
  else if bDomA then .dominated
  else .concurrent

/-! ### The text of a vector -/

/-- Whether a key is an array index. -/
def isArrayIndex (key : String) : Bool :=
  match key.toNat? with
  | some n => decide (toString n = key ∧ n < 2 ^ 32 - 1)
  | none => false

/-- The keys of an object in their order: array indices first, the others as they were set. -/
def objectKeys (keys : List String) : List String :=
  ((keys.filter isArrayIndex).insertionSort fun a b => a.toNat?.getD 0 ≤ b.toNat?.getD 0) ++
    keys.filter (!isArrayIndex ·)

/-- The order of `sort()`. -/
def NotAfter (a b : String) : Prop := utf16Lt b a = false

instance : DecidableRel NotAfter := fun a b => inferInstanceAs (Decidable (utf16Lt b a = false))

/-- `Object.keys(vv).filter((k) => (vv[k] ?? 0) !== 0).sort()`. -/
def sortedKeys (vv : VersionVector) : List String :=
  ((vv.rows.map Prod.fst).filter fun k => counterFor vv k ≠ 0).insertionSort NotAfter

/-- The fields of an object of counters, and the brace behind them.  A counter below `2 ^ 53` is
written with all its digits. -/
def counterFields : List (String × ℕ) → List Char
  | [] => ['}']
  | [field] => quote field.1 ++ ':' :: (Nat.toDigits 10 field.2 ++ ['}'])
  | field :: rest =>
    quote field.1 ++ ':' :: (Nat.toDigits 10 field.2 ++ ',' :: counterFields rest)

/-- The text of a vector, which depends on the counters only. -/
def serializeVV (vv : VersionVector) : String :=
  let obj := (objectKeys (sortedKeys vv)).map fun k => (k, counterFor vv k)
  String.ofList ('{' :: counterFields obj)

/-! ### The order of the keys -/

theorem notAfter_iff {a b : String} :
    NotAfter a b ↔ a.toList.flatMap utf16Units ≤ b.toList.flatMap utf16Units := by
  rw [NotAfter, utf16Lt, decide_eq_false_iff_not, not_lt]

instance : IsTrans String NotAfter :=
  ⟨fun _ _ _ hab hbc => notAfter_iff.mpr ((notAfter_iff.mp hab).trans (notAfter_iff.mp hbc))⟩

instance : Std.Total NotAfter :=
  ⟨fun a b => (le_total (a.toList.flatMap utf16Units) (b.toList.flatMap utf16Units)).imp
    notAfter_iff.mpr notAfter_iff.mpr⟩

instance : Std.Antisymm NotAfter :=
  ⟨fun _ _ hab hba => String.toList_inj.mp
    (flatMap_utf16Units_injective ((notAfter_iff.mp hab).antisymm (notAfter_iff.mp hba)))⟩

theorem mem_objectKeys {keys : List String} {key : String} :
    key ∈ objectKeys keys ↔ key ∈ keys := by
  simp only [objectKeys, List.mem_append, List.mem_insertionSort, List.mem_filter]
  cases isArrayIndex key <;> simp

theorem mem_sortedKeys {vv : VersionVector} {key : String} :
    key ∈ sortedKeys vv ↔ counterFor vv key ≠ 0 := by
  rw [sortedKeys, List.mem_insertionSort, List.mem_filter, decide_eq_true_eq]
  refine and_iff_right_of_imp fun h => ?_
  cases hget : vv.get? key with
  | none => exact absurd (by simp [counterFor, hget]) h
  | some entry =>
    obtain ⟨hmem, rfl⟩ := Table.get?_eq_some_iff.mp hget
    exact List.mem_map_of_mem hmem

/-- The sorted keys are those of the counters. -/
theorem sortedKeys_eq {a b : VersionVector} (h : counterFor a = counterFor b) :
    sortedKeys a = sortedKeys b := by
  have hnodup : ∀ vv : VersionVector, (sortedKeys vv).Nodup := fun vv =>
    (List.perm_insertionSort _ _).nodup_iff.mpr (vv.nodup.filter _)
  have hperm : (sortedKeys a).Perm (sortedKeys b) :=
    (List.perm_ext_iff_of_nodup (hnodup a) (hnodup b)).mpr fun key => by
      rw [mem_sortedKeys, mem_sortedKeys, h]
  exact hperm.eq_of_pairwise' (List.pairwise_insertionSort _ _) (List.pairwise_insertionSort _ _)

/-! ### Reading the text -/

/-- A field of the text, and what comes after it. -/
theorem field_inj {key key' : String} {n n' : ℕ} {rest rest' : List Char}
    (hrest : EndsValue rest) (hrest' : EndsValue rest')
    (h : quote key ++ ':' :: (Nat.toDigits 10 n ++ rest) =
      quote key' ++ ':' :: (Nat.toDigits 10 n' ++ rest')) :
    (key, n) = (key', n') ∧ rest = rest' := by
  have hspan : ∀ (n : ℕ) {rest : List Char}, EndsValue rest →
      (Nat.toDigits 10 n ++ rest).span Char.isDigit = (Nat.toDigits 10 n, rest) := by
    intro n rest hrest
    have hdigits : ∀ c ∈ Nat.toDigits 10 n, c.isDigit = true := fun c hc =>
      Nat.isDigit_of_mem_toDigits (by decide) (by decide) hc
    have hnone : rest.takeWhile Char.isDigit = [] ∧ rest.dropWhile Char.isDigit = rest := by
      cases rest with
      | nil => exact ⟨rfl, rfl⟩
      | cons c rest =>
        have hc : c.isDigit = false := by
          rcases hrest c rfl with rfl | rfl | rfl | rfl <;> rfl
        simp [hc]
    rw [List.span_eq_takeWhile_dropWhile, List.takeWhile_append_of_pos hdigits,
      List.dropWhile_append_of_pos hdigits, hnone.1, hnone.2, List.append_nil]
  have hquoted := congrArg skipSpace h
  rw [skipSpace_quote, skipSpace_quote] at hquoted
  have hkey := congrArg parseString (List.cons.inj hquoted).2
  rw [parseString_quote, parseString_quote, Option.some.injEq, Prod.mk.injEq] at hkey
  have hcounter := congrArg (List.span Char.isDigit) (List.cons.inj hkey.2).2
  rw [hspan n hrest, hspan n' hrest', Prod.mk.injEq] at hcounter
  have hn := congrArg (fun digits => Nat.ofDigitChars 10 digits 0) hcounter.1
  simp only [Nat.ofDigitChars_toDigits (b := 10) (by decide) (by decide)] at hn
  exact ⟨Prod.ext hkey.1 hn, hcounter.2⟩

/-- What comes after the counter of a field. -/
theorem exists_counterFields_cons (field : String × ℕ) (fields : List (String × ℕ)) :
    ∃ rest, counterFields (field :: fields) =
        quote field.1 ++ ':' :: (Nat.toDigits 10 field.2 ++ rest) ∧ EndsValue rest ∧
      ((fields = [] ∧ rest = ['}']) ∨ fields ≠ [] ∧ rest = ',' :: counterFields fields) := by
  cases fields with
  | nil => exact ⟨_, rfl, by rintro c ⟨⟩; simp, Or.inl ⟨rfl, rfl⟩⟩
  | cons next fields =>
    exact ⟨_, counterFields.eq_3 _ _ (List.cons_ne_nil _ _), endsValue_comma _,
      Or.inr ⟨List.cons_ne_nil _ _, rfl⟩⟩

theorem counterFields_injective : Function.Injective counterFields := by
  intro l l' h
  induction l generalizing l' with
  | nil =>
    cases l' with
    | nil => rfl
    | cons field' fields' =>
      obtain ⟨rest, heq, -⟩ := exists_counterFields_cons field' fields'
      rw [heq] at h
      exact absurd h (by simp [counterFields, quote])
  | cons field fields ih =>
    obtain ⟨rest, heq, hends, hrest⟩ := exists_counterFields_cons field fields
    cases l' with
    | nil =>
      rw [heq] at h
      exact absurd h (by simp [counterFields, quote])
    | cons field' fields' =>
      obtain ⟨rest', heq', hends', hrest'⟩ := exists_counterFields_cons field' fields'
      rw [heq, heq'] at h
      obtain ⟨hfield, rfl⟩ := field_inj hends hends' h
      rcases hrest with ⟨rfl, rfl⟩ | ⟨-, rfl⟩ <;> rcases hrest' with ⟨rfl, hlast⟩ | ⟨-, hlast⟩
      · exact congrArg (· :: []) hfield
      · exact absurd hlast (by simp)
      · exact absurd hlast (by simp)
      · exact congrArg₂ List.cons hfield (ih (List.cons.inj hlast).2)

/-- **Vectors with the same counters, and only those, have the same text.** -/
theorem serializeVV_eq_iff {a b : VersionVector} :
    serializeVV a = serializeVV b ↔ counterFor a = counterFor b := by
  constructor
  · intro h
    have hfields := counterFields_injective (List.cons.inj (String.ofList_injective h)).2
    have hread : ∀ vv : VersionVector, ∀ key n, n ≠ 0 →
        ((key, n) ∈ (objectKeys (sortedKeys vv)).map (fun k => (k, counterFor vv k)) ↔
          counterFor vv key = n) := by
      intro vv key n hn
      simp only [List.mem_map, mem_objectKeys, mem_sortedKeys, Prod.mk.injEq]
      grind
    funext key
    by_cases ha : counterFor a key = 0
    · by_contra hne
      exact hne (((hread a key _ fun hb => hne (ha.trans hb.symm)).mp
        (hfields ▸ (hread b key _ fun hb => hne (ha.trans hb.symm)).mpr rfl)))
    · exact ((hread b key _ ha).mp (hfields ▸ (hread a key _ ha).mpr rfl)).symm
  · intro h
    rw [serializeVV, serializeVV, sortedKeys_eq h, h]

/-! ### The laws -/

/-- Domination is the order of the counters. -/
theorem dominates_iff_le {a b : VersionVector} :
    dominates a b = true ↔ counterFor b ≤ counterFor a :=
  dominates_iff

theorem counterFor_join_eq_sup (a b : VersionVector) :
    counterFor (join a b) = counterFor a ⊔ counterFor b :=
  funext (counterFor_join a b)

theorem equals_iff {a b : VersionVector} : equals a b = true ↔ counterFor a = counterFor b := by
  rw [equals, Bool.and_eq_true, dominates_iff_le, dominates_iff_le]
  exact ⟨fun h => h.2.antisymm h.1, fun h => ⟨h.ge, h.le⟩⟩

/-- The name of the relation of `a` to `b`. -/
def Names (a b : VersionVector) : VVRelation → Bool
  | .equal => equals a b
  | .dominates => strictlyDominates a b
  | .dominated => strictlyDominates b a
  | .concurrent => isConcurrent a b

/-- **One relation holds, and `compareVV` is its name.** -/
theorem names_iff {a b : VersionVector} {relation : VVRelation} :
    Names a b relation = true ↔ compareVV a b = relation := by
  unfold compareVV
  cases relation <;> simp only [Names, equals, strictlyDominates, isConcurrent] <;>
    cases dominates a b <;> cases dominates b a <;> decide

/-- The laws of three vectors and a device. -/
structure VectorLaws (a b c : VersionVector) (device : String) : Prop where
  refl : dominates a a = true
  trans : dominates a b = true → dominates b c = true → dominates a c = true
  antisymm : (dominates a b = true ∧ dominates b a = true) ↔
    ∀ d, counterFor a d = counterFor b d
  upper : dominates (join a b) a = true ∧ dominates (join a b) b = true
  least : dominates c a = true → dominates c b = true → dominates c (join a b) = true
  assoc : equals (join (join a b) c) (join a (join b c)) = true
  comm : equals (join a b) (join b a) = true
  idem : equals (join a a) a = true
  countsUp : counterFor a device < 2 ^ 53 → CountsUp (counterFor a device)
  bump_strict : strictlyDominates (bumpNumber a device) a = true ↔ CountsUp (counterFor a device)
  bump_entry : ∀ d, (bumpNumber a device).get? d =
    if d = device then some (device, increment (counterFor a device)) else a.get? d
  bump_join : CountsUp (counterFor (join a b) device) →
    dominates a (bumpNumber (join a b) device) = false ∧
      dominates b (bumpNumber (join a b) device) = false
  relation : ∀ relation, Names a b relation = true ↔ compareVV a b = relation
  serialize : serializeVV a = serializeVV b ↔ equals a b = true

/-- **Version vectors are a join semilattice**, up to their entries of zero, in which a vector is
below its bump as long as the counter counts up. -/
theorem vectorLaws (a b c : VersionVector) (device : String) : VectorLaws a b c device where
  refl := dominates_refl a
  trans := dominates_trans
  antisymm := by
    rw [← Bool.and_eq_true, ← equals, equals_iff, funext_iff]
  upper := ⟨dominates_join_left a b, dominates_join_right a b⟩
  least := by
    simp only [dominates_iff_le, counterFor_join_eq_sup]
    exact sup_le
  assoc := equals_iff.mpr (by simp only [counterFor_join_eq_sup, sup_assoc])
  comm := equals_iff.mpr (by rw [counterFor_join_eq_sup, counterFor_join_eq_sup, sup_comm])
  idem := equals_iff.mpr (by rw [counterFor_join_eq_sup, sup_idem])
  countsUp := countsUp_of_lt
  bump_strict := strictlyDominates_bumpNumber_iff
  bump_entry := fun d => by
    rw [bumpNumber, Table.get?_set]
    simp only [eq_comm]
  bump_join := by
    intro hcount
    have hnot : ∀ vv : VersionVector, dominates (join a b) vv = true →
        dominates vv (bumpNumber (join a b) device) = false := by
      intro vv hvv
      have h := strictlyDominates_bumpNumber hvv hcount
      rw [strictlyDominates, Bool.and_eq_true, Bool.not_eq_true'] at h
      exact h.2
    exact ⟨hnot a (dominates_join_left a b), hnot b (dominates_join_right a b)⟩
  relation := fun _ => names_iff
  serialize := serializeVV_eq_iff.trans equals_iff.symm

/-- A vector with a counter at which numbers stop counting up. -/
def sampleCountedOut : VersionVector := emptyVV.set ("d1", 2 ^ 53)

/-- **At `2 ^ 53` a bump changes nothing**, and a vector dominates the bump of its join. -/
theorem not_strictlyDominates_countedOut :
    strictlyDominates (bumpNumber sampleCountedOut "d1") sampleCountedOut = false ∧
      dominates sampleCountedOut
        (bumpNumber (join sampleCountedOut emptyVV) "d1") = true := by
  decide +kernel

end VersionVector
end ObsidianSync
