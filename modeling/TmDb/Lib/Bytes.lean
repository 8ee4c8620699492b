import Mathlib.Data.List.Lex
import Mathlib.Data.Nat.Digits.Defs
import Mathlib.Order.Lex

/-! Byte strings under the lexicographic order. A common leading part does not
matter to a comparison, the strings with a given prefix are an interval, and
strings of one length are ordered as the numbers they spell. -/

namespace TmDb.Lib

instance byteOrder : LinearOrder UInt8 where
  le_refl := UInt8.le_refl
  le_trans _ _ _ := UInt8.le_trans
  lt_iff_le_not_ge _ _ := Std.LawfulOrderLT.lt_iff _ _
  le_antisymm _ _ := UInt8.le_antisymm
  le_total := UInt8.le_total
  toDecidableLE := inferInstance
  toDecidableLT := inferInstance
  toDecidableEq := inferInstance

abbrev Bytes := List UInt8

@[simp] theorem Bytes.nil_le (bz : Bytes) : [] ≤ bz := not_lt.mp (List.not_lt_nil bz)

theorem Bytes.append_lt_append {common first second : Bytes} :
    common ++ first < common ++ second ↔ first < second := by
  induction common with
  | nil => rfl
  | cons byte common ih => simp [ih]

theorem Bytes.append_le_append {common first second : Bytes} :
    common ++ first ≤ common ++ second ↔ first ≤ second := by
  simp only [← not_lt, append_lt_append]

@[simp] theorem Bytes.le_append (bz suffix : Bytes) : bz ≤ bz ++ suffix := by
  have extended := @append_le_append bz [] suffix
  simpa using extended

/-- A string that is not below a prefix and does not begin with it is above every
string that does. -/
theorem Bytes.append_lt_of_foreign {pfx key : Bytes} (above : pfx ≤ key) (foreign : ¬ pfx <+: key) (suffix : Bytes) :
    pfx ++ suffix < key := by
  induction pfx generalizing key with
  | nil => exact absurd List.nil_prefix foreign
  | cons byte pfx ih =>
    cases key with
    | nil => exact absurd above (by simp)
    | cons other key =>
      rcases lt_trichotomy byte other with less | rfl | more
      · exact List.cons_lt_cons_iff.mpr (.inl less)
      · have below : pfx ≤ key := (@append_le_append [byte] pfx key).mp above
        have apart : ¬ pfx <+: key := fun starts => foreign (List.cons_prefix_cons.mpr ⟨rfl, starts⟩)
        exact List.cons_lt_cons_iff.mpr (.inr ⟨rfl, ih below apart⟩)
      · exact absurd (List.cons_lt_cons_iff.mpr (.inl more)) (not_lt.mpr above)

/-- Extending two different strings of one length does not change their order. -/
theorem Bytes.append_lt_of_length {first second : Bytes} (less : first < second) (same : first.length = second.length)
    (suffix other : Bytes) : first ++ suffix < second ++ other := by
  have apart : ¬ first <+: second := fun starts => less.ne (starts.eq_of_length same)
  exact (append_lt_of_foreign less.le apart suffix).trans_le (le_append second other)

/-- The number that a string spells in big-endian order. -/
def Bytes.value (bz : Bytes) : Nat := Nat.ofDigits 256 (bz.reverse.map UInt8.toNat)

theorem Bytes.value_concat (bz : Bytes) (byte : UInt8) : value (bz ++ [byte]) = byte.toNat + 256 * value bz := by
  simp [value, Nat.ofDigits_cons]

theorem Bytes.value_cons (byte : UInt8) (bz : Bytes) : value (byte :: bz) = value bz + 256 ^ bz.length * byte.toNat := by
  simp [value, Nat.ofDigits_append]

theorem Bytes.value_lt (bz : Bytes) : value bz < 256 ^ bz.length := by
  have bounded : ∀ digit ∈ bz.reverse.map UInt8.toNat, digit < 256 := by
    intro digit member
    obtain ⟨byte, _, rfl⟩ := List.mem_map.mp member
    exact byte.toNat_lt
  simpa [value] using Nat.ofDigits_lt_base_pow_length (by decide) bounded

theorem Bytes.value_lt_value {first second : Bytes} (same : first.length = second.length) (less : first < second) :
    value first < value second := by
  induction first generalizing second with
  | nil =>
    obtain rfl := List.length_eq_zero_iff.mp same.symm
    exact absurd less (lt_irrefl _)
  | cons byte first ih =>
    obtain ⟨other, second, rfl⟩ := List.exists_cons_of_length_eq_add_one same.symm
    have tails : first.length = second.length := Nat.succ.inj same
    rw [value_cons, value_cons, tails]
    rcases List.cons_lt_cons_iff.mp less with smaller | ⟨rfl, smaller⟩
    · have digits : byte.toNat + 1 ≤ other.toNat := UInt8.lt_iff_toNat_lt.mp smaller
      calc value first + 256 ^ second.length * byte.toNat
          < 256 ^ second.length + 256 ^ second.length * byte.toNat := by
            simpa [tails] using value_lt first
        _ = 256 ^ second.length * (byte.toNat + 1) := by rw [Nat.mul_succ, Nat.add_comm]
        _ ≤ 256 ^ second.length * other.toNat := Nat.mul_le_mul_left _ digits
        _ ≤ value second + 256 ^ second.length * other.toNat := Nat.le_add_left _ _
    · exact Nat.add_lt_add_right (ih tails smaller) _

theorem Bytes.value_lt_iff {first second : Bytes} (same : first.length = second.length) :
    value first < value second ↔ first < second := by
  refine ⟨fun less => ?_, value_lt_value same⟩
  rcases lt_trichotomy first second with below | rfl | above
  · exact below
  · exact absurd less (lt_irrefl _)
  · exact absurd (value_lt_value same.symm above) less.asymm

/-- Between two strings of one length with neighbouring values there are only
extensions of the lower one. -/
theorem Bytes.starts_between {bz above key : Bytes} (same : above.length = bz.length) (next : value above = value bz + 1)
    (long : bz.length ≤ key.length) (low : bz ≤ key) (high : key < above) : bz <+: key := by
  have length : (key.take bz.length).length = bz.length := List.length_take_of_le long
  have split : key.take bz.length ++ key.drop bz.length = key := List.take_append_drop _ _
  have notBelow : ¬ key.take bz.length < bz := by
    intro less
    have under := append_lt_of_length less length (key.drop bz.length) []
    rw [split, List.append_nil] at under
    exact not_lt.mpr low under
  have below : key.take bz.length < above := by
    refine lt_of_le_of_lt ?_ high
    have extended := le_append (key.take bz.length) (key.drop bz.length)
    rwa [split] at extended
  have bounded : value (key.take bz.length) < value above := (value_lt_iff (length.trans same.symm)).mpr below
  have notAbove : ¬ bz < key.take bz.length := by
    intro more
    have values := (value_lt_iff length.symm).mpr more
    omega
  have equal : key.take bz.length = bz := le_antisymm (not_lt.mp notAbove) (not_lt.mp notBelow)
  exact ⟨key.drop bz.length, by rw [← equal, length, split]⟩

end TmDb.Lib
