import Mathlib.Data.List.TakeWhile
import TmDb.Lib.Cursor
import TmDb.Proofs.Increment
import TmDb.Proofs.PrefixNamespaces

/-! The range of parent keys that stands for a namespace. Every key of the namespace
is in it; when the increment of the prefix carries, so may be keys without the
prefix, and these lie above all the others. -/

namespace TmDb.Proofs
open Lib

theorem cpIncr_cases {pfx : Bytes} (nonempty : pfx ≠ []) :
    cpIncr (some pfx) = some none ∨
      ∃ above, cpIncr (some pfx) = some (some above) ∧ above.length = pfx.length ∧ pfx < above := by
  rcases cpIncr_value nonempty with ⟨overflow, _⟩ | ⟨above, made, same, next⟩
  · exact .inl overflow
  · have grown : Bytes.value pfx < Bytes.value above := next ▸ Nat.lt_succ_self _
    exact .inr ⟨above, made, same, (Bytes.value_lt_iff same.symm).mp grown⟩

/-- The end of the range that PrefixDB asks its parent for. -/
def rangeEnd (pfx : Bytes) (stop : Slice) : Option Slice :=
  match stop with
  | none => cpIncr (some pfx)
  | some stop => some (some (cp (some pfx) ++ stop))

theorem rangeEnd_made {pfx : Bytes} (nonempty : pfx ≠ []) (stop : Slice) : ∃ pend, rangeEnd pfx stop = some pend := by
  cases stop with
  | none =>
    rcases cpIncr_cases nonempty with overflow | ⟨above, made, _⟩
    · exact ⟨none, overflow⟩
    · exact ⟨some above, made⟩
  | some stop => exact ⟨_, rfl⟩

section Range
variable {pfx : Bytes} {start stop pend : Slice} (nonempty : pfx ≠ []) (made : rangeEnd pfx stop = some pend)
include nonempty made

theorem below_rangeEnd (suffix : Bytes) :
    (∀ bound, pend = some bound → pfx ++ suffix < bound) ↔ ∀ bound, stop = some bound → suffix < bound := by
  cases stop with
  | some stop =>
    obtain rfl := Option.some.inj made
    simp [cp, Bytes.append_lt_append]
  | none =>
    rcases cpIncr_cases nonempty with overflow | ⟨above, carried, same, less⟩
    · obtain rfl := Option.some.inj (overflow.symm.trans made)
      simp
    · obtain rfl := Option.some.inj (carried.symm.trans made)
      have apart : ¬ pfx <+: above := fun starts => less.ne (starts.eq_of_length same.symm)
      simpa using Bytes.append_lt_of_foreign less.le apart suffix

theorem inDomain_under (suffix : Bytes) :
    isKeyInDomain (pfx ++ suffix) (some (pfx ++ start.bytes)) pend = isKeyInDomain suffix start stop := by
  rw [Bool.eq_iff_iff, isKeyInDomain_iff, isKeyInDomain_iff, below_rangeEnd nonempty made, Slice.bytes_some,
    Bytes.append_le_append]

theorem checkBounds_range : checkBounds (some (pfx ++ start.bytes)) pend = .ok () := by
  have high : ∀ bound, pend = some bound → bound ≠ [] := by
    rintro bound rfl rfl
    cases stop with
    | some stop =>
      have empty : pfx ++ stop = [] := Option.some.inj (Option.some.inj made)
      exact nonempty (List.append_eq_nil_iff.mp empty).1
    | none =>
      rcases cpIncr_cases nonempty with overflow | ⟨above, carried, same, _⟩
      · cases overflow.symm.trans made
      · obtain rfl := Option.some.inj (Option.some.inj (carried.symm.trans made))
        exact nonempty (List.length_eq_zero_iff.mp same.symm)
  cases pend with
  | none => simp [checkBounds, Slice.len, nonempty]
  | some bound => simp [checkBounds, Slice.len, nonempty, high bound rfl]

end Range

def strip (pfx : Bytes) (items : List Entry) : List Entry :=
  (items.filter fun entry => pfx.isPrefixOf entry.1 && entry.1 ≠ pfx).map fun entry =>
    (entry.1.drop pfx.length, entry.2)

theorem entries_under (pfx : Bytes) (store : Store) : (under pfx store).entries = strip pfx store.entries := rfl

theorem strip_reverse (pfx : Bytes) (items : List Entry) : strip pfx items.reverse = (strip pfx items).reverse := by
  simp [strip, List.filter_reverse]

/-- What a prefix iterator makes of its source: it ends at the first key without
the prefix. -/
def visited (pfx : Bytes) (items : List Entry) : List Entry :=
  strip pfx (items.takeWhile fun entry => pfx.isPrefixOf entry.1)

section Visits
variable {pfx : Bytes} {start stop pend : Slice} (store : Store)

theorem strip_scan (nonempty : pfx ≠ []) (made : rangeEnd pfx stop = some pend) (reverse : Bool) :
    strip pfx (Store.scan store (some (pfx ++ start.bytes)) pend reverse) = Store.scan (under pfx store) start stop reverse := by
  have forward : strip pfx (store.entries.filter fun entry => isKeyInDomain entry.1 (some (pfx ++ start.bytes)) pend) =
      (strip pfx store.entries).filter fun entry => isKeyInDomain entry.1 start stop := by
    simp only [strip, List.filter_map, List.filter_filter]
    congr 1
    apply List.filter_congr
    intro entry _
    cases starts : pfx.isPrefixOf entry.1 with
    | false => simp
    | true =>
      obtain ⟨suffix, same⟩ := List.isPrefixOf_iff_prefix.mp starts
      simp only [Function.comp_apply, ← same, List.drop_left, inDomain_under nonempty made]
      simp [Bool.and_comm]
  cases reverse with
  | false => exact forward
  | true =>
    change strip pfx (List.reverse _) = List.reverse _
    rw [strip_reverse, forward, entries_under]

/-- In the range, keys without the prefix come after all that have it. -/
theorem foreign_above {pend : Slice} {first second : Entry}
    (inside : isKeyInDomain first.1 (some (pfx ++ start.bytes)) pend = true) (foreign : ¬ pfx <+: first.1)
    (member : pfx <+: second.1) : second.1 < first.1 := by
  obtain ⟨suffix, same⟩ := member
  have above : pfx ≤ first.1 := (Bytes.le_append pfx start.bytes).trans (isKeyInDomain_iff.mp inside).1
  exact same ▸ Bytes.append_lt_of_foreign above foreign suffix

theorem visited_forward (nonempty : pfx ≠ []) (made : rangeEnd pfx stop = some pend) :
    visited pfx (Store.scan store (some (pfx ++ start.bytes)) pend false) = Store.scan (under pfx store) start stop false := by
  have falling : (Store.scan store (some (pfx ++ start.bytes)) pend false).Pairwise fun first second =>
      pfx.isPrefixOf second.1 = true → pfx.isPrefixOf first.1 = true := by
    apply (Store.scan_ordered store (some (pfx ++ start.bytes)) pend false).imp_of_mem
    intro first second inside _ less starts
    rw [List.isPrefixOf_iff_prefix] at starts ⊢
    by_contra foreign
    exact less.asymm (foreign_above (Store.mem_scan.mp inside).2 foreign starts)
  have absorbed : ∀ items, strip pfx (items.filter fun entry => pfx.isPrefixOf entry.1) = strip pfx items := by
    intro items
    simp only [strip, List.filter_filter]
    congr 2
    funext entry
    cases pfx.isPrefixOf entry.1 <;> simp
  rw [visited, takeWhile_eq_filter falling, absorbed, strip_scan store nonempty made]

theorem visited_reverse_foreign {entry : Entry} (member : entry ∈ store.entries)
    (inside : isKeyInDomain entry.1 (some (pfx ++ start.bytes)) pend = true) (foreign : ¬ pfx <+: entry.1) :
    visited pfx (Store.scan store (some (pfx ++ start.bytes)) pend true) = [] := by
  have ordered := Store.scan_ordered store (some (pfx ++ start.bytes)) pend true
  have present : entry ∈ Store.scan store (some (pfx ++ start.bytes)) pend true := Store.mem_scan.mpr ⟨member, inside⟩
  cases found : Store.scan store (some (pfx ++ start.bytes)) pend true with
  | nil => rfl
  | cons head rest =>
    rw [found] at ordered present
    have apart : ¬ pfx <+: head.1 := by
      intro starts
      have less := foreign_above inside foreign starts
      rcases List.mem_cons.mp present with rfl | later
      · exact less.false
      · exact less.asymm ((List.pairwise_cons.mp ordered).1 entry later)
    rw [← List.isPrefixOf_iff_prefix] at apart
    simp [visited, strip, apart]

theorem visited_reverse_clean (nonempty : pfx ≠ []) (made : rangeEnd pfx stop = some pend)
    (clean : ∀ entry ∈ store.entries, isKeyInDomain entry.1 (some (pfx ++ start.bytes)) pend = true → pfx <+: entry.1) :
    visited pfx (Store.scan store (some (pfx ++ start.bytes)) pend true) = Store.scan (under pfx store) start stop true := by
  have whole : (Store.scan store (some (pfx ++ start.bytes)) pend true).takeWhile (fun entry => pfx.isPrefixOf entry.1) =
      Store.scan store (some (pfx ++ start.bytes)) pend true := by
    rw [List.takeWhile_eq_self_iff]
    intro entry member
    obtain ⟨stored, inside⟩ := Store.mem_scan.mp member
    exact List.isPrefixOf_iff_prefix.mpr (clean entry stored inside)
  rw [visited, whole, strip_scan store nonempty made]

end Visits

end TmDb.Proofs
