import TmDb.BoltDB
import TmDb.Proofs.LevelCursor

/-! BoltDB's iterator is the LevelDB wrapper all of whose methods keep the flag: the
cached pair is always the one the cursor stands on. What is its own is the way it
reaches the last key before the end. -/

namespace TmDb.Proofs
open Lib

namespace BoltIter

/-- The iterator that stands where a wrapper stands, with what the cursor says there. -/
def wrapping (wrapper : LevelIter) : BoltIter where
  itr := wrapper.source
  start := wrapper.start
  stop := wrapper.stop
  currentKey := (BoltIter.answer wrapper.source).1
  currentValue := (BoltIter.answer wrapper.source).2
  isInvalid := wrapper.isInvalid
  isReverse := wrapper.isReverse

private theorem isValid_wrapping (wrapper : LevelIter) :
    (wrapping wrapper).isValid = (wrapper.check.1, wrapping wrapper.check.2) := by
  rcases wrapper with ⟨source, start, stop, isReverse, isInvalid⟩
  cases isInvalid with
  | true => rfl
  | false =>
    cases found : source.current with
    | none => simp [wrapping, BoltIter.isValid, BoltIter.error, BoltIter.answer, LevelIter.check, found]
    | some entry =>
      simp only [wrapping, BoltIter.isValid, BoltIter.error, BoltIter.answer, LevelIter.check, LevelIter.inBound, found]
      cases isReverse with
      | true =>
        cases start with
        | none => simp [found]
        | some bound => by_cases below : entry.1 < bound <;> simp [found, below]
      | false =>
        cases stop with
        | none => simp [found]
        | some bound => by_cases reached : bound ≤ entry.1 <;> simp [found, reached]

private theorem assert_passes {wrapper : LevelIter} (checked : wrapper.check = (true, wrapper)) :
    (wrapping wrapper).assertIsValid = (some (), wrapping wrapper) := by
  simp [BoltIter.assertIsValid, isValid_wrapping, checked]

private theorem assert_panics {wrapper : LevelIter} (checked : wrapper.check.1 = false) :
    (wrapping wrapper).assertIsValid = (none, wrapping wrapper.check.2) := by
  simp [BoltIter.assertIsValid, isValid_wrapping, checked]

theorem ops_wrapping :
    (iteration BoltIter.ops).Simulates (iteration (LevelIter.ops true true true)) fun it wrapper => it = wrapping wrapper := by
  intro it wrapper call related
  subst related
  rcases LevelIter.check_cases wrapper with ⟨entry, current, checked, _⟩ | ⟨_, checked, _⟩
  · have passes := assert_passes checked
    have wrapped : wrapper.assertIsValid true = (some (), wrapper) := by
      simp [LevelIter.assertIsValid, LevelIter.called, checked]
    have key : (wrapping wrapper).currentKey = some entry.1 := by simp [wrapping, BoltIter.answer, current]
    have value : (wrapping wrapper).currentValue = some entry.2 := by simp [wrapping, BoltIter.answer, current]
    cases call with
    | valid => simp [iteration, BoltIter.ops, LevelIter.ops, LevelIter.called, isValid_wrapping]
    | key => simp [iteration, BoltIter.ops, LevelIter.ops, BoltIter.key, LevelIter.key, passes, wrapped, andThen, key, current]
    | value =>
      simp [iteration, BoltIter.ops, LevelIter.ops, BoltIter.value, LevelIter.value, passes, wrapped, andThen, value, current]
    | next =>
      simp only [iteration, BoltIter.ops, LevelIter.ops, BoltIter.next, LevelIter.next, passes, wrapped, andThen]
      exact ⟨rfl, rfl⟩
  · have panics := assert_panics checked
    have wrapped : wrapper.assertIsValid true = (none, wrapper.check.2) := by
      simp [LevelIter.assertIsValid, LevelIter.called, checked]
    cases call with
    | valid => simp [iteration, BoltIter.ops, LevelIter.ops, LevelIter.called, isValid_wrapping]
    | key => simp [iteration, BoltIter.ops, LevelIter.ops, BoltIter.key, LevelIter.key, panics, wrapped, andThen]
    | value => simp [iteration, BoltIter.ops, LevelIter.ops, BoltIter.value, LevelIter.value, panics, wrapped, andThen]
    | next => simp [iteration, BoltIter.ops, LevelIter.ops, BoltIter.next, LevelIter.next, panics, wrapped, andThen]

private def placed (source : Cursor Entry) (start stop : Slice) (reverse : Bool) : LevelIter :=
  ⟨(BoltIter.new source start stop reverse).itr, start, stop, reverse, false⟩

/-- The step back is right whatever the seek has found: past the last key it comes
to that key, and before the first it runs off. -/
private theorem placed_path (source : Cursor Entry) (start stop : Slice) (reverse : Bool) :
    LevelIter.path (placed source start stop reverse) = LevelIter.placement source.items start stop reverse := by
  cases reverse with
  | false =>
    cases start with
    | none => exact (LevelIter.placement_first source.items stop).symm
    | some start => rfl
  | true =>
    cases stop with
    | none => exact source.backward_last.trans (LevelIter.placement_last source.items start).symm
    | some stop => exact source.backward_seek_prev fun entry => decide (entry.1 < stop)

private theorem new_wrapping (source : Cursor Entry) (start stop : Slice) (reverse : Bool) :
    BoltIter.new source start stop reverse = wrapping (placed source start stop reverse) := by
  cases reverse <;> rfl

private theorem new_scan (store : Store) (start stop : Slice) (reverse : Bool) :
    LevelIter.scan (placed (Store.cursor store) start stop reverse) = ⟨start, stop, Store.scan store start stop reverse⟩ :=
  congrArg (Scan.mk start stop) (LevelIter.ahead_placed store.sorted rfl (placed_path (Store.cursor store) start stop reverse))

theorem new_reads (store : Store) (start stop : Slice) (reverse : Bool) :
    ∃ wrapper, BoltIter.new (Store.cursor store) start stop reverse = wrapping wrapper ∧
      ⟨start, stop, Store.scan store start stop reverse⟩ = LevelIter.scan wrapper :=
  ⟨_, new_wrapping (Store.cursor store) start stop reverse, (new_scan store start stop reverse).symm⟩

theorem ops_scan : (iteration BoltIter.ops).Simulates (iteration Scan.ops) fun it plain =>
    ∃ wrapper, it = wrapping wrapper ∧ plain = LevelIter.scan wrapper := by
  rintro _ _ call ⟨wrapper, rfl, rfl⟩
  obtain ⟨same, moved⟩ := ops_wrapping (wrapping wrapper) wrapper call rfl
  obtain ⟨expected, reached⟩ := LevelIter.ops_scan true true true wrapper _ call rfl
  exact ⟨same.trans expected, _, moved, reached⟩

end BoltIter

/-- BoltDB range scans: in both directions, for any bounds and under any calls, the
iterator is a cursor over the domain in strict order. -/
theorem boltDB_scans_exact (engine : Engine) (start stop : Slice) (bounds : checkBounds start stop = .ok ())
    (reverse : Bool) :
    ∃ it items, BoltDB.iteratorWith reverse engine start stop = some (.ok it) ∧
      (∀ entry, entry ∈ items ↔ entry ∈ engine.store.entries ∧ isKeyInDomain entry.1 start stop = true) ∧
      (items.Pairwise fun first second => Precedes reverse first.1 second.1) ∧ CursorOver BoltIter.ops it items := by
  refine ⟨BoltIter.new (Store.cursor engine.store) start stop reverse, Store.scan engine.store start stop reverse,
    ?_, fun entry => Store.mem_scan, Store.scan_ordered _ _ _ _, ?_⟩
  · simp only [BoltDB.iteratorWith, bounds]
  · have initial := BoltIter.new_scan engine.store start stop reverse
    have cursor := CursorOver.of_simulates BoltIter.ops_scan ⟨_, BoltIter.new_wrapping _ start stop reverse, initial.symm⟩
    exact cursor

/-- An end above every key: the step back from past the last key comes to that key. -/
theorem boltDB_scans_exact_past :
    let engine : Engine := ⟨(SortedMap.empty.insert [1] [10]).insert [2] [20], []⟩
    ∃ it items, BoltDB.iteratorWith true engine (some [2]) (some [9]) = some (.ok it) ∧
      ([2], [20]) ∈ items ∧ CursorOver BoltIter.ops it items := by
  intro engine
  obtain ⟨it, items, made, inside, _, cursor⟩ := boltDB_scans_exact engine (some [2]) (some [9]) rfl true
  exact ⟨it, items, made, (inside _).mpr (by decide), cursor⟩

end TmDb.Proofs
