import TmDb.Proofs.Iteration

/-! The wrappers around LevelDB-style cursors are plain iterators, whichever
methods keep the invalid flag: the flag is only ever set when nothing is ahead,
and without it the bound check fails for the same reason each time. -/

namespace TmDb.Proofs
open Lib

namespace LevelIter

def scan (it : LevelIter) : Scan := ⟨it.start, it.stop, it.ahead⟩

def path (it : LevelIter) : List Entry := if it.isReverse then it.source.backward else it.source.forward

def moved (it : LevelIter) : LevelIter :=
  { it with source := if it.isReverse then it.source.prev else it.source.next }

private theorem current_eq_path (it : LevelIter) : it.source.current = (path it).head? := by
  unfold path
  split
  · exact it.source.current_eq_backward
  · exact it.source.current_eq_forward

private theorem path_moved (it : LevelIter) (valid : it.source.valid = true) : path (moved it) = (path it).tail := by
  unfold path moved
  cases it.isReverse with
  | true => exact Cursor.backward_prev valid
  | false => exact Cursor.forward_next valid

private theorem ahead_eq_path (it : LevelIter) (flag : it.isInvalid = false) :
    it.ahead = (path it).takeWhile fun entry => it.inBound entry.1 := by
  simp [LevelIter.ahead, flag, path]

private theorem scan_flagged {it : LevelIter} (empty : it.ahead = []) : scan { it with isInvalid := true } = scan it := by
  simp only [scan, empty]
  rfl

theorem check_cases (it : LevelIter) :
    (∃ entry, it.source.current = some entry ∧ it.check = (true, it) ∧ it.ahead = entry :: (moved it).ahead) ∨
      it.ahead = [] ∧ it.check.1 = false ∧ scan it.check.2 = scan it := by
  cases flag : it.isInvalid with
  | true => exact .inr ⟨by simp [LevelIter.ahead, flag], by simp [LevelIter.check, flag], by simp [LevelIter.check, flag]⟩
  | false =>
    have same := ahead_eq_path it flag
    cases found : path it with
    | nil =>
      have gone : it.source.current = none := by rw [current_eq_path, found]; rfl
      have empty : it.ahead = [] := by rw [same, found]; rfl
      refine .inr ⟨empty, by simp [LevelIter.check, flag, gone], ?_⟩
      simpa [LevelIter.check, flag, gone] using scan_flagged empty
    | cons entry rest =>
      have current : it.source.current = some entry := by rw [current_eq_path, found]; rfl
      by_cases bound : it.inBound entry.1 = true
      · have tail := path_moved it (by simp [Cursor.valid, current])
        have next := ahead_eq_path (moved it) flag
        rw [tail, found, List.tail_cons] at next
        refine .inl ⟨entry, current, by simp [LevelIter.check, flag, current, bound], ?_⟩
        rw [same, found, next, List.takeWhile_cons, if_pos bound]
        rfl
      · have empty : it.ahead = [] := by rw [same, found, List.takeWhile_cons, if_neg bound]
        refine .inr ⟨empty, by simp [LevelIter.check, flag, current, bound], ?_⟩
        simpa [LevelIter.check, flag, current, bound] using scan_flagged empty

private theorem called_scan {α : Type} {keeps : Bool} {it : LevelIter} {result : α × LevelIter}
    (same : scan result.2 = scan it) : scan (LevelIter.called keeps it result).2 = scan it := by
  cases keeps with
  | true => exact same
  | false => rfl

private theorem assert_passes {it : LevelIter} (keeps : Bool) (checked : it.check = (true, it)) :
    it.assertIsValid keeps = (some (), it) := by
  cases keeps <;> simp [LevelIter.assertIsValid, LevelIter.called, checked]

private theorem assert_panics {it : LevelIter} (keeps : Bool) (checked : it.check.1 = false)
    (same : scan it.check.2 = scan it) {α : Type} (rest : Unit → LevelIter → Option α × LevelIter) :
    ∃ after, andThen (it.assertIsValid keeps) rest = (none, after) ∧ scan after = scan it := by
  have outcome : it.assertIsValid keeps = (none, (LevelIter.called keeps it ((none : Option Unit), it.check.2)).2) := by
    simp [LevelIter.assertIsValid, LevelIter.called, checked]
  exact ⟨_, by rw [outcome]; rfl, called_scan same⟩

theorem ops_scan (valid read next : Bool) :
    (iteration (LevelIter.ops valid read next)).Simulates (iteration Scan.ops) fun it plain => plain = scan it := by
  intro it plain call related
  subst related
  rcases check_cases it with ⟨entry, current, checked, ahead⟩ | ⟨empty, checked, same⟩
  · have items : (scan it).items = entry :: (moved it).ahead := ahead
    have plain_valid : (scan it).valid = true := by simp [Scan.valid, items]
    cases call with
    | valid =>
      have kept : LevelIter.called valid it (some true, it) = (some true, it) := by cases valid <;> rfl
      simp [iteration, LevelIter.ops, Scan.ops, checked, kept, plain_valid]
    | key =>
      simp [iteration, LevelIter.ops, Scan.ops, LevelIter.key, assert_passes read checked, andThen, current, items]
    | value =>
      simp [iteration, LevelIter.ops, Scan.ops, LevelIter.value, assert_passes read checked, andThen, current, items]
    | next =>
      simp only [iteration, LevelIter.ops, Scan.ops, LevelIter.next, assert_passes next checked, andThen, items]
      exact ⟨rfl, rfl⟩
  · have items : (scan it).items = [] := empty
    have plain_invalid : (scan it).valid = false := by simp [Scan.valid, items]
    cases call with
    | valid =>
      have kept : scan (LevelIter.called valid it (some false, it.check.2)).2 = scan it := called_scan same
      simpa [iteration, LevelIter.ops, Scan.ops, checked, plain_invalid, LevelIter.called] using kept.symm
    | key =>
      obtain ⟨after, outcome, unchanged⟩ := assert_panics read checked same fun _ it => (it.source.current.map Prod.fst, it)
      simp [iteration, LevelIter.ops, Scan.ops, LevelIter.key, outcome, unchanged, items]
    | value =>
      obtain ⟨after, outcome, unchanged⟩ := assert_panics read checked same fun _ it => (it.source.current.map Prod.snd, it)
      simp [iteration, LevelIter.ops, Scan.ops, LevelIter.value, outcome, unchanged, items]
    | next =>
      obtain ⟨after, outcome, unchanged⟩ := assert_panics next checked same fun _ it => (some (), moved it)
      have panics : LevelIter.next next it = (none, after) := outcome
      simp [iteration, LevelIter.ops, Scan.ops, panics, unchanged, items]

/-- The key found at or after the end is not before it, so the step back is always
taken. -/
private theorem backward_seekBefore (source : Cursor Entry) (stop : Bytes) :
    (LevelIter.seekBefore source stop).backward = (source.items.takeWhile fun entry => entry.1 < stop).reverse := by
  have head := List.head?_dropWhile_not (fun entry : Entry => decide (entry.1 < stop)) source.items
  rw [← Cursor.forward_seek, ← Cursor.current_eq_forward] at head
  rw [← Cursor.backward_below]
  cases found : (source.seek fun entry => decide (entry.1 < stop)).current with
  | none => simp [LevelIter.seekBefore, Cursor.valid, found]
  | some entry =>
    have reached : stop ≤ entry.1 := by simpa [found] using head
    simp [LevelIter.seekBefore, Cursor.valid, found, reached]

/-- Where a constructor has to place the cursor: at the start, or before the end. -/
def placement (items : List Entry) (start stop : Slice) (reverse : Bool) : List Entry :=
  if reverse then (items.takeWhile fun entry => stop.elim true fun bound => decide (entry.1 < bound)).reverse
  else items.dropWhile fun entry => decide (entry.1 < start.bytes)

theorem placement_first (items : List Entry) (stop : Slice) : placement items none stop false = items := by
  cases items <;> simp [placement]

theorem placement_last (items : List Entry) (start : Slice) : placement items start none true = items.reverse := by
  have all : items.takeWhile (fun _ => true) = items := by
    rw [takeWhile_eq_filter (List.pairwise_of_forall fun _ _ => id), List.filter_true]
  simp [placement, all]

variable {absent : Slice → Bool} {start stop : Slice} (source : Cursor Entry)

private theorem new_forward (test : absent start = start.isNone) :
    path (LevelIter.new absent source start stop false) = placement source.items start stop false := by
  cases start with
  | none => simp [LevelIter.new, path, test, placement_first]
  | some start => simp [LevelIter.new, path, test, placement]

private theorem new_backward (test : absent stop = stop.isNone) :
    path (LevelIter.new absent source start stop true) = placement source.items start stop true := by
  cases stop with
  | none => simp [LevelIter.new, path, test, placement_last]
  | some stop => simp [LevelIter.new, path, test, placement, backward_seekBefore]

private theorem placement_forward {items : List Entry} (sorted : items.Pairwise fun first second => first.1 < second.1)
    {it : LevelIter} (forward : it.isReverse = false) :
    (placement items it.start it.stop false).takeWhile (fun entry => it.inBound entry.1) =
      items.filter fun entry => isKeyInDomain entry.1 it.start it.stop := by
  have low : items.dropWhile (fun entry => decide (entry.1 < it.start.bytes)) =
      items.filter fun entry => !decide (entry.1 < it.start.bytes) := by
    apply dropWhile_eq_filter
    exact sorted.imp fun less => by simpa using less.trans
  have bounded : ∀ key, it.inBound key = it.stop.elim true fun bound => !decide (bound ≤ key) := by
    intro key
    cases found : it.stop <;> simp [LevelIter.inBound, forward, found]
  simp only [placement, Bool.false_eq_true, if_false, low, bounded]
  rw [takeWhile_eq_filter, List.filter_filter]
  · congr 1
    funext entry
    rw [Bool.eq_iff_iff, isKeyInDomain_iff]
    cases it.stop <;> simp [and_comm]
  · refine (sorted.filter _).imp fun less => ?_
    cases it.stop with
    | none => simp
    | some stop => simpa using less.trans

private theorem placement_backward {items : List Entry} (sorted : items.Pairwise fun first second => first.1 < second.1)
    {it : LevelIter} (backward : it.isReverse = true) :
    (placement items it.start it.stop true).takeWhile (fun entry => it.inBound entry.1) =
      (items.filter fun entry => isKeyInDomain entry.1 it.start it.stop).reverse := by
  have high : items.takeWhile (fun entry => it.stop.elim true fun bound => decide (entry.1 < bound)) =
      items.filter fun entry => it.stop.elim true fun bound => decide (entry.1 < bound) := by
    apply takeWhile_eq_filter
    refine sorted.imp fun less => ?_
    cases it.stop with
    | none => simp
    | some stop => simpa using less.trans
  have bounded : ∀ key, it.inBound key = it.start.elim true fun bound => !decide (key < bound) := by
    intro key
    cases found : it.start <;> simp [LevelIter.inBound, backward, found]
  simp only [placement, if_true, high, bounded]
  rw [takeWhile_eq_filter, List.filter_reverse, List.filter_filter]
  · congr 2
    funext entry
    rw [Bool.eq_iff_iff, isKeyInDomain_iff]
    cases it.start <;> cases it.stop <;> simp
  · refine List.pairwise_reverse.mpr ((sorted.filter _).imp fun less => ?_)
    cases it.start with
    | none => simp
    | some start => simpa using fun bound => bound.trans less.le

theorem ahead_placed {items : List Entry} (sorted : items.Pairwise fun first second => first.1 < second.1)
    {it : LevelIter} (fresh : it.isInvalid = false) (placed : path it = placement items it.start it.stop it.isReverse) :
    it.ahead =
      let inside := items.filter fun entry => isKeyInDomain entry.1 it.start it.stop
      if it.isReverse then inside.reverse else inside := by
  rw [ahead_eq_path it fresh, placed]
  cases way : it.isReverse with
  | false => simpa using placement_forward sorted way
  | true => simpa using placement_backward sorted way

theorem new_ahead (sorted : source.items.Pairwise fun first second => first.1 < second.1)
    (startTest : absent start = start.isNone) (stopTest : absent stop = stop.isNone) (reverse : Bool) :
    (LevelIter.new absent source start stop reverse).ahead =
      let inside := source.items.filter fun entry => isKeyInDomain entry.1 start stop
      if reverse then inside.reverse else inside := by
  apply ahead_placed sorted rfl
  cases reverse with
  | false => exact new_forward source startTest
  | true => exact new_backward source stopTest

end LevelIter

private theorem bounds_present {bound : Slice} (nonempty : bound.isSome → bound.len ≠ 0) :
    decide (bound.len = 0) = bound.isNone := by
  cases bound with
  | none => rfl
  | some bytes => simpa using nonempty rfl

private theorem new_reads (source : Cursor Entry) {absent : Slice → Bool} {store : Store}
    {start stop : Slice} (sorted : source.items.Pairwise fun first second => first.1 < second.1)
    (covers : (source.items.filter fun entry => isKeyInDomain entry.1 start stop) =
      store.entries.filter fun entry => isKeyInDomain entry.1 start stop)
    (startTest : absent start = start.isNone) (stopTest : absent stop = stop.isNone) (reverse : Bool) :
    (⟨start, stop, Store.scan store start stop reverse⟩ : Scan) =
      LevelIter.scan (LevelIter.new absent source start stop reverse) := by
  have ahead := LevelIter.new_ahead source sorted startTest stopTest reverse
  rw [covers] at ahead
  exact congrArg (Scan.mk start stop) ahead.symm

theorem goLevelDB_reads (store : Store) (start stop : Slice) (reverse : Bool) :
    (⟨start, stop, Store.scan store start stop reverse⟩ : Scan) =
      LevelIter.scan (newGoLevelDBIterator (Store.rangeCursor store start stop) start stop reverse) := by
  apply new_reads (Store.rangeCursor store start stop) (store.sorted.filter _) _ rfl rfl
  simp [Store.rangeCursor, Store.cursor, Cursor.items, SortedMap.filter, List.filter_filter]

/-- An accepted bound is empty only when it is missing. -/
theorem cLevelDB_reads (store : Store) {start stop : Slice} (bounds : checkBounds start stop = .ok ()) (reverse : Bool) :
    (⟨start, stop, Store.scan store start stop reverse⟩ : Scan) =
      LevelIter.scan (newCLevelDBIterator (Store.cursor store) start stop reverse) := by
  have nonempty : (start.isSome → start.len ≠ 0) ∧ (stop.isSome → stop.len ≠ 0) := by
    simpa [checkBounds] using bounds
  exact new_reads (Store.cursor store) store.sorted rfl (bounds_present nonempty.1) (bounds_present nonempty.2) reverse

theorem rocksDB_reads (store : Store) (start stop : Slice) (reverse : Bool) :
    (⟨start, stop, Store.scan store start stop reverse⟩ : Scan) =
      LevelIter.scan (newRocksDBIterator (Store.cursor store) start stop reverse) :=
  new_reads (Store.cursor store) store.sorted rfl rfl rfl reverse

/-- The three wrappers, and goleveldb's over a range or over everything, are one
iterator: the plain one over the domain, which once invalid refuses every call. -/
theorem level_iterators_agree (store : Store) (start stop : Slice) (bounds : checkBounds start stop = .ok ())
    (reverse : Bool) (calls : List IterCall) :
    let plain : Scan := ⟨start, stop, Store.scan store start stop reverse⟩
    let replies := ((iteration Scan.ops).run plain calls).1
    ((iteration goLevelDBIterator).run
        (newGoLevelDBIterator (Store.rangeCursor store start stop) start stop reverse) calls).1 = replies ∧
      ((iteration goLevelDBIterator).run
        (newGoLevelDBIterator (Store.cursor store) start stop reverse) calls).1 = replies ∧
      ((iteration cLevelDBIterator).run
        (newCLevelDBIterator (Store.cursor store) start stop reverse) calls).1 = replies ∧
      ((iteration rocksDBIterator).run
        (newRocksDBIterator (Store.cursor store) start stop reverse) calls).1 = replies ∧
      ∀ first later, calls = first ++ later → ((iteration Scan.ops).run plain first).2.valid = false →
        replies = ((iteration Scan.ops).run plain first).1 ++ later.map IterCall.refused := by
  intro plain replies
  have answers (valid read next : Bool) {wrapper : LevelIter} (reads : plain = LevelIter.scan wrapper) :
      ((iteration (LevelIter.ops valid read next)).run wrapper calls).1 = replies :=
    ((LevelIter.ops_scan valid read next).run reads calls).1
  refine ⟨?_, ?_, ?_, ?_, ?_⟩
  · exact answers true false false (goLevelDB_reads store start stop reverse)
  · exact answers true false false (new_reads (Store.cursor store) store.sorted rfl rfl rfl reverse)
  · exact answers false false false (cLevelDB_reads store bounds reverse)
  · exact answers true true false (rocksDB_reads store start stop reverse)
  · intro first later split invalid
    subst split
    exact run_refused invalid later

/-- Three keys, the last one outside the domain, from the top down and past the end. -/
theorem level_iterators_agree_reverse :
    let store : Store := ((SortedMap.empty.insert [1] [10]).insert [2] [20]).insert [3] [30]
    let calls : List IterCall := [.key, .next, .value, .next, .valid, .next, .key]
    ((iteration cLevelDBIterator).run (newCLevelDBIterator (Store.cursor store) none (some [3]) true) calls).1 =
      [.key (some [2]), .next (some ()), .value (some [10]), .next (some ()), .valid (some false), .next none, .key none] :=
  (level_iterators_agree _ none (some [3]) rfl true _).2.2.1.trans (by decide)

end TmDb.Proofs
