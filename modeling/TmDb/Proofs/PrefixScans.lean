import TmDb.Proofs.PrefixCursor

/-! Range scans of a namespace. Upwards PrefixDB is exact; downwards with no end, and
in IteratePrefix, a key without the prefix may lie inside the parent's range. -/

namespace TmDb.Proofs
open Lib

def InNamespace (store : Store) (pfx : Bytes) (start stop : Slice) (entry : Entry) : Prop :=
  entry.1 ≠ [] ∧ store.get? (pfx ++ entry.1) = some entry.2 ∧ (∀ low, start = some low → low ≤ entry.1) ∧
    ∀ high, stop = some high → entry.1 < high

/-- A key without the prefix in the range that stands for all keys with it. -/
def Stray (store : Store) (pfx key : Bytes) : Prop :=
  (∃ value, store.get? key = some value) ∧ ¬ pfx <+: key ∧ pfx ≤ key ∧
    ∀ above, cpIncr (some pfx) = some (some above) → key < above

theorem mem_scan_under {store : Store} {pfx : Bytes} {start stop : Slice} {reverse : Bool} {entry : Entry} :
    entry ∈ Store.scan (under pfx store) start stop reverse ↔ InNamespace store pfx start stop entry := by
  have low : start.bytes ≤ entry.1 ↔ ∀ low, start = some low → low ≤ entry.1 := by cases start <;> simp
  rw [Store.mem_scan, mem_under, isKeyInDomain_iff, low, InNamespace, SortedMap.get?_eq_some, and_assoc]

variable {db : DB} (contract : Contract db) (state : db.State)

/-- PrefixDB.Iterator is a cursor over the namespace's range, whatever the prefix and
the bounds, and never reports an error. -/
theorem prefixDB_iterator_exact {pfx : Bytes} (nonempty : pfx ≠ []) {start stop : Slice}
    (bounds : checkBounds start stop = .ok ()) :
    ∃ it items, (prefixDB db pfx).iterator state start stop = some (.ok it) ∧
      (∀ entry, entry ∈ items ↔ InNamespace (contract.contents state) pfx start stop entry) ∧
      (items.Pairwise fun first second => first.1 < second.1) ∧
      CursorOver (prefixDB db pfx).iter it items ∧
      ∀ calls, (prefixDB db pfx).iter.error ((iteration (prefixDB db pfx).iter).run it calls).2 = none := by
  have scannable := (Contract.scannable contract).prefixDB nonempty
  obtain ⟨it, opened, stands⟩ := scannable.opens state bounds
  refine ⟨it, _, opened, fun entry => mem_scan_under, Store.scan_ordered _ start stop false,
    .of_simulates scannable.scanning.simulates stands, fun calls => ?_⟩
  exact scannable.scanning.error (scannable.scanning.run_related stands calls)

theorem prefixDB_iterator_exact_overflow :
    let store : Store := ((SortedMap.empty.insert [255] [1]).insert [255, 7] [2]).insert [254] [3]
    ∃ it items, (prefixDB memDB [255]).iterator store none none = some (.ok it) ∧ ([7], [2]) ∈ items ∧
      CursorOver (prefixDB memDB [255]).iter it items := by
  intro store
  obtain ⟨it, items, opened, inside, _, cursor, _⟩ := prefixDB_iterator_exact memContract store
    (List.cons_ne_nil 255 []) (rfl : checkBounds none none = .ok ())
  exact ⟨it, items, opened, (inside _).mpr ⟨by decide, by decide, nofun, nofun⟩, cursor⟩

section Strays
variable {store : Store} {pfx : Bytes} {start stop pend : Slice}

theorem Stray.inside {key : Bytes} (stray : Stray store pfx key) (made : rangeEnd pfx none = some pend) :
    isKeyInDomain key (some (pfx ++ start.bytes)) pend = true := by
  obtain ⟨_, foreign, above, below⟩ := stray
  rw [isKeyInDomain_iff]
  refine ⟨(Bytes.append_lt_of_foreign above foreign start.bytes).le, ?_⟩
  rintro bound rfl
  exact below bound made

private theorem cpIncr_concat (front : Bytes) {byte : UInt8} (room : byte < 0xFF) :
    cpIncr (some (front ++ [byte])) = some (some (front ++ [byte + 1])) := by
  simp [cpIncr, cp, cpIncrLoop, Slice.len, room]

private theorem starts_of_next {front key : Bytes} {byte : UInt8} (room : byte < 0xFF) (low : front ++ [byte] ≤ key)
    (high : key < front ++ [byte + 1]) : front ++ [byte] <+: key := by
  have within : front <+: key := by
    by_contra foreign
    exact high.asymm (Bytes.append_lt_of_foreign ((Bytes.le_append front [byte]).trans low) foreign [byte + 1])
  obtain ⟨rest, rfl⟩ := within
  rw [Bytes.append_le_append] at low
  rw [Bytes.append_lt_append] at high
  cases rest with
  | nil => exact absurd low (by simp)
  | cons first rest =>
    have least : byte ≤ first := by
      by_contra less
      exact not_lt.mpr low (List.cons_lt_cons_iff.mpr (.inl (not_le.mp less)))
    have most : first ≤ byte := by
      rcases List.cons_lt_cons_iff.mp high with less | ⟨_, less⟩
      · have small : byte.toNat < 255 := UInt8.lt_iff_toNat_lt.mp room
        have next : first.toNat < (byte.toNat + 1) % 256 := UInt8.lt_iff_toNat_lt.mp less
        rw [UInt8.le_iff_toNat_le]
        omega
      · exact absurd less (List.not_lt_nil rest)
    obtain rfl := le_antisymm least most
    exact (List.prefix_append_right_inj front).mpr (List.cons_prefix_cons.mpr ⟨rfl, List.nil_prefix⟩)

theorem Stray.carries {key : Bytes} (stray : Stray store pfx key) :
    (∃ front, pfx = front ++ [0xFF]) ∧ ∃ byte ∈ pfx, byte ≠ 0xFF := by
  obtain ⟨_, foreign, above, below⟩ := stray
  constructor
  · rcases List.eq_nil_or_concat pfx with rfl | ⟨front, byte, rfl⟩
    · exact absurd List.nil_prefix foreign
    · rw [List.concat_eq_append] at foreign above below ⊢
      by_cases room : byte < 0xFF
      · exact absurd (starts_of_next room above (below _ (cpIncr_concat front room))) foreign
      · exact ⟨front, by rw [byte_full room]⟩
  · by_contra full
    push Not at full
    exact foreign (starts_of_full full above)

theorem range_clean (made : rangeEnd pfx stop = some pend) (none : stop = none → ∀ key, ¬ Stray store pfx key) :
    ∀ entry ∈ store.entries, isKeyInDomain entry.1 (some (pfx ++ start.bytes)) pend = true → pfx <+: entry.1 := by
  intro entry member inside
  by_contra foreign
  obtain ⟨low, high⟩ := isKeyInDomain_iff.mp inside
  have above : pfx ≤ entry.1 := (Bytes.le_append pfx start.bytes).trans low
  cases stop with
  | some stop =>
    obtain rfl := Option.some.inj made
    exact (high _ rfl).asymm (Bytes.append_lt_of_foreign above foreign stop)
  | none =>
    refine none rfl entry.1 ⟨⟨entry.2, SortedMap.get?_eq_some.mpr member⟩, foreign, above, ?_⟩
    intro bound carried
    exact high bound (Option.some.inj (made.symm.trans carried))

end Strays

/-- PrefixDB.ReverseIterator under the documented loop: exact, except that without an
end one stray key hides the whole namespace. -/
theorem prefixDB_reverseIterator_exact_iff {pfx : Bytes} (nonempty : pfx ≠ []) {start stop : Slice}
    (bounds : checkBounds start stop = .ok ()) :
    ∃ it visits after, (prefixDB db pfx).reverseIterator state start stop = some (.ok it) ∧
      (prefixDB db pfx).iter.loop it = (some visits, after) ∧
      ((∀ entry, entry ∈ visits ↔ InNamespace (contract.contents state) pfx start stop entry) ∧
          (visits.Pairwise fun first second => second.1 < first.1) ∧ (prefixDB db pfx).iter.error after = none ↔
        (stop = none → (∃ key, Stray (contract.contents state) pfx key) →
          ∀ entry, ¬ InNamespace (contract.contents state) pfx start stop entry)) := by
  obtain ⟨pend, made⟩ := rangeEnd_made nonempty stop
  obtain ⟨it, opened, stands⟩ := reverseIterator_stands contract state nonempty bounds made
  obtain ⟨after, visits, clear⟩ := (prefix_scanning (Contract.scanning contract)).loop stands
  refine ⟨it, _, after, opened, visits, ?_⟩
  dsimp only
  by_cases hidden : stop = none ∧ ∃ key, Stray (contract.contents state) pfx key
  · obtain ⟨rfl, key, stray⟩ := hidden
    obtain ⟨value, found⟩ := stray.1
    have empty := visited_reverse_foreign (contract.contents state) (SortedMap.get?_eq_some.mp found)
      (@Stray.inside _ _ start _ _ stray made) stray.2.1
    rw [empty]
    constructor
    · exact fun exact_ _ _ entry inside => List.not_mem_nil ((exact_.1 entry).mpr inside)
    · intro nothing
      refine ⟨fun entry => ?_, .nil, clear⟩
      exact iff_of_false List.not_mem_nil (nothing rfl ⟨key, stray⟩ entry)
  · have clean : stop = none → ∀ key, ¬ Stray (contract.contents state) pfx key :=
      fun none key stray => hidden ⟨none, key, stray⟩
    rw [visited_reverse_clean (contract.contents state) nonempty made (range_clean made clean)]
    exact iff_of_true ⟨fun entry => mem_scan_under, Store.scan_ordered _ start stop true, clear⟩
      fun none ⟨key, stray⟩ => absurd stray (clean none key)

theorem prefixDB_reverseIterator_bounded :
    let store : Store := (SortedMap.empty.insert [1, 255, 5] [1]).insert [2] [2]
    ∃ it visits after, (prefixDB memDB [1, 255]).reverseIterator store none (some [9]) = some (.ok it) ∧
      (prefixDB memDB [1, 255]).iter.loop it = (some visits, after) ∧ ([5], [1]) ∈ visits := by
  intro store
  obtain ⟨it, visits, after, opened, loop, exactly⟩ := prefixDB_reverseIterator_exact_iff memContract store
    (List.cons_ne_nil 1 [255]) (rfl : checkBounds none (some [9]) = .ok ())
  refine ⟨it, visits, after, opened, loop, ((exactly.mpr nofun).1 _).mpr ⟨by decide, by decide, nofun, ?_⟩⟩
  rintro high same
  obtain rfl := Option.some.inj same
  decide

/-- Prefix 01FF, keys 01FF05 and 02. The range ends at 0200, so 02 is visited first,
and the iterator is over before it has begun. -/
theorem prefixDB_reverseIterator_hidden :
    let store : Store := (SortedMap.empty.insert [1, 255, 5] [1]).insert [2] [2]
    ∃ it after, (prefixDB memDB [1, 255]).reverseIterator store none none = some (.ok it) ∧
      (prefixDB memDB [1, 255]).iter.loop it = (some [], after) ∧ InNamespace store [1, 255] none none ([5], [1]) := by
  refine ⟨_, _, rfl, rfl, by decide, by decide, nofun, nofun⟩

private theorem interval_exact_iff {store : Store} {pfx : Bytes} (nonempty : pfx ≠ []) {pend : Slice}
    (made : rangeEnd pfx none = some pend) :
    (∀ entry, entry ∈ Store.scan store (some pfx) pend false ↔ entry ∈ store.entries ∧ pfx <+: entry.1) ↔
      ∀ key, ¬ Stray store pfx key := by
  have start : some pfx = some (pfx ++ Slice.bytes none) := by simp
  constructor
  · rintro exactly key ⟨⟨value, found⟩, foreign, above, below⟩
    have stray : Stray store pfx key := ⟨⟨value, found⟩, foreign, above, below⟩
    have inside := @Stray.inside _ _ none _ _ stray made
    rw [← start] at inside
    exact foreign ((exactly (key, value)).mp (Store.mem_scan.mpr ⟨SortedMap.get?_eq_some.mp found, inside⟩)).2
  · intro clean entry
    rw [Store.mem_scan, start]
    refine and_congr_right fun member => ⟨range_clean made (fun _ => clean) entry member, ?_⟩
    rintro ⟨suffix, same⟩
    rw [← same, inDomain_under nonempty made]
    exact isKeyInDomain_iff.mpr ⟨Bytes.nil_le suffix, nofun⟩

private theorem whole_exact (store : Store) (entry : Entry) :
    entry ∈ Store.scan store none none false ↔ entry ∈ store.entries ∧ [] <+: entry.1 := by
  simp [Store.mem_scan, isKeyInDomain]

/-- IteratePrefix under the documented loop: exact when there are no strays, since it
hands out the range as it is. -/
theorem iteratePrefix_exact_iff (pfx : Slice) :
    ∃ it visits after, iteratePrefix db state pfx = some (.ok it) ∧ db.iter.loop it = (some visits, after) ∧
      ((∀ entry, entry ∈ visits ↔ entry ∈ (contract.contents state).entries ∧ pfx.bytes <+: entry.1) ∧
          (visits.Pairwise fun first second => first.1 < second.1) ↔
        ∀ key, ¬ Stray (contract.contents state) pfx.bytes key) := by
  have scannable := Contract.scannable contract
  by_cases empty : pfx.len = 0
  · obtain ⟨it, opened, at_⟩ := scannable.opens state (rfl : checkBounds none none = .ok ())
    obtain ⟨after, visits, _⟩ := scannable.scanning.loop at_
    refine ⟨it, _, after, ?_, visits, ?_⟩
    · rw [iteratePrefix, if_pos empty, opened]
    · have short : pfx.bytes = [] := List.length_eq_zero_iff.mp empty
      rw [short]
      exact iff_of_true ⟨whole_exact (contract.contents state), Store.scan_ordered _ none none false⟩
        fun key stray => stray.2.1 List.nil_prefix
  · have nonempty : pfx.bytes ≠ [] := fun short => empty (List.length_eq_zero_iff.mpr short)
    obtain ⟨pend, made⟩ := rangeEnd_made nonempty none
    have bounds := @checkBounds_range _ none _ _ nonempty made
    rw [Slice.bytes_none, List.append_nil] at bounds
    obtain ⟨it, opened, at_⟩ := scannable.opens state bounds
    obtain ⟨after, visits, _⟩ := scannable.scanning.loop at_
    refine ⟨it, _, after, ?_, visits, ?_⟩
    · have same : cpIncr pfx = some pend := by
        rw [← made, rangeEnd, cpIncr, cpIncr, if_neg empty, if_neg (by simpa [Slice.len] using nonempty)]
        rfl
      rw [iteratePrefix, if_neg empty, same, Option.bind_some]
      exact opened
    · have ordered := Store.scan_ordered (contract.contents state) (some pfx.bytes) pend false
      exact (and_iff_left ordered).trans (interval_exact_iff nonempty made)

theorem iteratePrefix_strays :
    let store : Store := (SortedMap.empty.insert [1, 255, 5] [1]).insert [2] [2]
    ∃ it after, iteratePrefix memDB store (some [1, 255]) = some (.ok it) ∧
      memDB.iter.loop it = (some [([1, 255, 5], [1]), ([2], [2])], after) := ⟨_, _, rfl, rfl⟩

end TmDb.Proofs
