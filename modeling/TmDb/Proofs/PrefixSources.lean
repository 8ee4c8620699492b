import TmDb.Proofs.PrefixCursor

/-! A prefix iterator over a source in no particular order. It hands out the longest
initial run of source keys that have the prefix, and nothing a caller does takes it
out of that run. -/

namespace TmDb.Proofs
open Lib

variable {ι : Type} {ops : IterOps ι} {related : ι → Scan → Prop} {pfx : Bytes}

theorem run_suffix (scan : Scan) (calls : List IterCall) : ((iteration Scan.ops).run scan calls).2.items <:+ scan.items := by
  apply (iteration Scan.ops).run_invariant fun reached => reached.items <:+ scan.items
  · intro reached call within
    cases call with
    | valid => exact within
    | key => exact within
    | value => exact within
    | next =>
      refine List.IsSuffix.trans ?_ within
      rcases reached with ⟨start, stop, _ | ⟨entry, rest⟩⟩
      · exact List.suffix_rfl
      · exact List.suffix_cons entry rest
  · exact List.suffix_rfl

theorem mem_visited {items : List Entry} {entry : Entry} (member : entry ∈ visited pfx items) :
    entry.1 ≠ [] ∧ pfx ++ entry.1 ∈ items.map Prod.fst := by
  obtain ⟨found, kept, rfl⟩ := List.mem_map.mp member
  obtain ⟨inRun, passes⟩ := List.mem_filter.mp kept
  obtain ⟨starts, proper⟩ := (Bool.and_eq_true _ _).mp passes
  obtain ⟨suffix, same⟩ := List.isPrefixOf_iff_prefix.mp starts
  have dropped : found.1.drop pfx.length = suffix := by rw [← same, List.drop_left]
  have present : found.1 ∈ items.map Prod.fst := List.mem_map_of_mem ((List.takeWhile_prefix _).subset inRun)
  simp only [dropped]
  refine ⟨?_, same ▸ present⟩
  rintro rfl
  rw [List.append_nil] at same
  exact (of_decide_eq_true proper) same.symm

structure Confined (ops : IterOps ι) (pfx : Bytes) (items : List Entry) (it : PrefixIter ι) : Prop where
  /-- The branch of Valid for a key without the prefix has not been taken. -/
  unflagged : it.err = none
  errorless : (PrefixIter.iter ops).error it = none
  /-- Key slices the source's key within its length. -/
  inRange : ∀ asserted key after, PrefixIter.assertIsValid ops it = (some (), asserted) →
    ops.key asserted.source = (some key, after) → asserted.pfx.length ≤ key.length
  own : ∀ key after, (PrefixIter.iter ops).key it = (some key, after) → key ≠ [] ∧ pfx ++ key ∈ items.map Prod.fst
  /-- Next calls itself at most once: with room for that its result is final. -/
  settles : ∀ bound, PrefixIter.next ops (bound + 2) it = (PrefixIter.iter ops).next it

theorem Stands.confined (scanning : Scanning ops related) {it : PrefixIter ι} {scan : Scan} {items : List Entry}
    (stands : Stands related it scan) (within : scan.items <:+ visited pfx items) : Confined ops pfx items it where
  unflagged := by cases stands <;> rfl
  errorless := (prefix_scanning scanning).error stands
  inRange asserted key after checked read := by
    cases stands with
    | on at_ distinct starts proper =>
      obtain ⟨reached, valid, kept⟩ := assertIsValid_on scanning _ _ at_ starts
      obtain ⟨last, found, _⟩ := scanning.key_cons kept
      obtain rfl := (Prod.mk.inj (valid.symm.trans checked)).2
      obtain rfl := Option.some.inj (Prod.mk.inj (found.symm.trans read)).1
      exact starts.length_le
    | off at_ => cases checked
  own key after read := by
    obtain ⟨reached, answer, _⟩ := (prefix_scanning scanning).key stands
    have first : (Scan.ops.key scan).1 = some key := (Prod.mk.inj (answer.symm.trans read)).1
    rcases scan with ⟨start, stop, _ | ⟨entry, rest⟩⟩
    · cases first
    · obtain rfl : entry.1 = key := Option.some.inj first
      exact mem_visited (within.subset List.mem_cons_self)
  settles := next_settles scanning stands

private theorem visited_run (pfx : Bytes) (items : List Entry) :
    visited pfx items = ((items.takeWhile fun entry => pfx.isPrefixOf entry.1).filter fun entry => entry.1 ≠ pfx).map
      fun entry => (entry.1.drop pfx.length, entry.2) := by
  rw [visited, strip]
  congr 1
  apply List.filter_congr
  intro entry member
  simp [List.mem_takeWhile_imp member]

private theorem dropWhile_foreign (pfx : Bytes) (items : List Entry) :
    ∀ entry ∈ (items.dropWhile fun entry => pfx.isPrefixOf entry.1).head?, ¬ pfx <+: entry.1 := by
  intro entry first starts
  rw [← List.find?_not_eq_head?_dropWhile] at first
  have refused := List.find?_some first
  simp [List.isPrefixOf_iff_prefix.mpr starts] at refused

/-- Over any source of distinct keys, in any order, a prefix iterator is a cursor
over the longest initial run of keys that have the prefix, without the prefix itself. -/
theorem prefixIter_initial_run (scanning : Scanning ops related) (pfx : Bytes) (start stop low high : Slice) {source : ι}
    {items : List Entry} (at_ : related source ⟨low, high, items⟩) (distinct : (items.map Prod.fst).Nodup) :
    ∃ it run rest, PrefixIter.new ops pfx start stop source = some it ∧ items = run ++ rest ∧
      (∀ entry ∈ run, pfx <+: entry.1) ∧ (∀ entry ∈ rest.head?, ¬ pfx <+: entry.1) ∧
      CursorOver (PrefixIter.iter ops) it
        ((run.filter fun entry => entry.1 ≠ pfx).map fun entry => (entry.1.drop pfx.length, entry.2)) ∧
      ∀ calls, Confined ops pfx items ((iteration (PrefixIter.iter ops)).run it calls).2 := by
  obtain ⟨it, new, stands⟩ := @new_stands _ _ _ scanning pfx start stop _ _ _ _ at_ distinct
  refine ⟨it, items.takeWhile fun entry => pfx.isPrefixOf entry.1, items.dropWhile fun entry => pfx.isPrefixOf entry.1,
    new, (List.takeWhile_append_dropWhile).symm, ?_, dropWhile_foreign pfx items, ?_, ?_⟩
  · intro entry member
    have passes := @List.mem_takeWhile_imp _ (fun entry : Entry => pfx.isPrefixOf entry.1) _ _ member
    exact List.isPrefixOf_iff_prefix.mp passes
  · rw [← visited_run]
    exact CursorOver.of_simulates (prefix_scanning scanning).simulates stands
  · intro calls
    exact ((prefix_scanning scanning).run_related stands calls).confined scanning (run_suffix _ calls)

/-- A source out of order, with the prefix itself and a key shorter than it. -/
def unsorted : List Entry := [([1, 2], [7]), ([1], [8]), ([], [9]), ([1, 1], [5])]

theorem prefixIter_initial_run_unsorted :
    ∃ it run rest, PrefixIter.new Scan.ops [1] none none ⟨none, none, unsorted⟩ = some it ∧ unsorted = run ++ rest ∧
      (∀ entry ∈ run, [1] <+: entry.1) ∧ (∀ entry ∈ rest.head?, ¬ [1] <+: entry.1) ∧
      CursorOver (PrefixIter.iter Scan.ops) it
        ((run.filter fun entry => entry.1 ≠ [1]).map fun entry => (entry.1.drop 1, entry.2)) := by
  have at_ : (⟨none, none, unsorted⟩ : Scan) = plainContract.cursor ⟨none, none, unsorted⟩ := rfl
  obtain ⟨it, run, rest, new, split, inside, outside, cursor, _⟩ :=
    prefixIter_initial_run (Contract.scanning plainContract) [1] none none none none at_ (by decide)
  exact ⟨it, run, rest, new, split, inside, outside, cursor⟩

end TmDb.Proofs
