import TmDb.Util

/-! cpIncr as arithmetic. The increment is the next number of the same length, so
the keys from a byte string up to its increment are those that begin with it. -/

namespace TmDb.Proofs
open Lib

theorem byte_full {byte : UInt8} (tight : ¬ byte < 0xFF) : byte = 0xFF := by
  apply le_antisymm _ (not_lt.mp tight)
  exact UInt8.le_iff_toNat_le.mpr (Nat.le_of_lt_succ byte.toNat_lt)

private theorem cpIncrLoop_none {bytes : List UInt8} : cpIncrLoop bytes = none ↔ ∀ byte ∈ bytes, byte = 0xFF := by
  induction bytes with
  | nil => simp [cpIncrLoop]
  | cons byte rest ih =>
    rw [cpIncrLoop, List.forall_mem_cons]
    split
    next room =>
      have short : byte ≠ 0xFF := fun full => absurd room (full ▸ lt_irrefl _)
      simp [short]
    next tight =>
      rw [Option.map_eq_none_iff, ih]
      exact (and_iff_right (byte_full tight)).symm

private theorem cpIncrLoop_value {bytes result : List UInt8} (made : cpIncrLoop bytes = some result) :
    result.length = bytes.length ∧ Bytes.value result.reverse = Bytes.value bytes.reverse + 1 := by
  induction bytes generalizing result with
  | nil => cases made
  | cons byte rest ih =>
    rw [cpIncrLoop] at made
    split at made
    next room =>
      obtain rfl := Option.some.inj made
      refine ⟨rfl, ?_⟩
      have grown : (byte + 1).toNat = byte.toNat + 1 := by
        rw [UInt8.lt_iff_toNat_lt] at room
        rw [UInt8.toNat_add]
        simp at room ⊢
        omega
      simp only [List.reverse_cons, Bytes.value_concat, grown]
      omega
    next tight =>
      obtain ⟨carried, found, rfl⟩ := Option.map_eq_some_iff.mp made
      obtain ⟨same, next⟩ := ih found
      refine ⟨by simp [same], ?_⟩
      have full : byte.toNat = 255 := congrArg UInt8.toNat (byte_full tight)
      have zero : (0x00 : UInt8).toNat = 0 := rfl
      simp only [List.reverse_cons, Bytes.value_concat, full, next, zero]
      omega

theorem cpIncr_value {bz : Bytes} (nonempty : bz ≠ []) :
    (cpIncr (some bz) = some none ∧ ∀ byte ∈ bz, byte = 0xFF) ∨
      ∃ above, cpIncr (some bz) = some (some above) ∧ above.length = bz.length ∧
        Bytes.value above = Bytes.value bz + 1 := by
  have length : Slice.len (some bz) ≠ 0 := by simpa [Slice.len] using nonempty
  rw [cpIncr, if_neg length]
  cases found : cpIncrLoop (cp (some bz)).reverse with
  | none => exact .inl ⟨rfl, by simpa [cp] using cpIncrLoop_none.mp found⟩
  | some result =>
    obtain ⟨same, next⟩ := cpIncrLoop_value found
    refine .inr ⟨result.reverse, rfl, ?_, ?_⟩
    · simpa [cp] using same
    · simpa [cp] using next

/-- Nothing above a string of greatest bytes leaves its prefix. -/
theorem starts_of_full {bz key : Bytes} (full : ∀ byte ∈ bz, byte = 0xFF) (low : bz ≤ key) : bz <+: key := by
  induction bz generalizing key with
  | nil => exact List.nil_prefix
  | cons byte bz ih =>
    obtain ⟨rfl, others⟩ := List.forall_mem_cons.mp full
    cases key with
    | nil => exact absurd low (by simp)
    | cons first key =>
      have greatest : first = 0xFF := by
        apply byte_full
        intro less
        exact not_lt.mpr low (List.cons_lt_cons_iff.mpr (.inl less))
      subst greatest
      have rest : bz ≤ key := (@Bytes.append_le_append [0xFF] bz key).mp low
      exact List.cons_prefix_cons.mpr ⟨rfl, ih others rest⟩

/-- For every non-empty string the increment is nil exactly when all bytes are
0xFF; otherwise it has the same length and the next value, and with the string
it encloses exactly the strings of at least that length that begin with it. -/
theorem cpIncr_next_prefix (bz : Bytes) (nonempty : bz ≠ []) :
    ∃ result, cpIncr (some bz) = some result ∧ (result = none ↔ ∀ byte ∈ bz, byte = 0xFF) ∧
      (∀ above, result = some above →
        above.length = bz.length ∧ Bytes.value above = Bytes.value bz + 1 ∧
        (∀ key, bz <+: key → bz ≤ key ∧ key < above) ∧
        ∀ key, bz.length ≤ key.length → bz ≤ key → key < above → bz <+: key) ∧
      (result = none → ∀ key, bz ≤ key → bz <+: key) := by
  rcases cpIncr_value nonempty with ⟨overflow, full⟩ | ⟨above, made, same, next⟩
  · refine ⟨none, overflow, iff_of_true rfl full, ?_, ?_⟩
    · intro above impossible
      cases impossible
    · intro _ key low
      exact starts_of_full full low
  · have less : bz < above := (Bytes.value_lt_iff same.symm).mp (next ▸ Nat.lt_succ_self _)
    have notFull : ¬ ∀ byte ∈ bz, byte = 0xFF := by
      intro full
      exact less.ne ((starts_of_full full less.le).eq_of_length same.symm)
    refine ⟨some above, made, iff_of_false (by simp) notFull, ?_, ?_⟩
    · intro other equal
      obtain rfl := Option.some.inj equal
      refine ⟨same, next, ?_, ?_⟩
      · intro key starts
        obtain ⟨suffix, rfl⟩ := starts
        have below := Bytes.append_lt_of_length less same.symm suffix []
        rw [List.append_nil] at below
        exact ⟨Bytes.le_append bz suffix, below⟩
      · intro key long low high
        exact Bytes.starts_between same next long low high
    · intro impossible
      cases impossible

theorem cpIncr_next_prefix_carry : cpIncr (some [1, 0xFF]) = some (some [2, 0]) ∧
    ∀ key : Bytes, [1, 0xFF] <+: key → [1, 0xFF] ≤ key ∧ key < [2, 0] := by
  obtain ⟨result, made, _, within, _⟩ := cpIncr_next_prefix [1, 0xFF] (by decide)
  have computed : cpIncr (some [1, 0xFF]) = some (some [2, 0]) := by decide
  obtain rfl := Option.some.inj (made.symm.trans computed)
  exact ⟨computed, (within _ rfl).2.2.1⟩

end TmDb.Proofs
