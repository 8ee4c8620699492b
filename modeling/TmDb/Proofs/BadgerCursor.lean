import TmDb.BadgerDB
import TmDb.Proofs.Iteration

/-! BadgerDB's iterator. The constructor drops what lies before the bound it starts
from, Valid stops at the other bound, and in the direction of the iterator both are
ranges of a sorted list. -/

namespace TmDb.Proofs
open Lib

namespace BadgerIter

/-- Whether a key has not reached the bound that the iterator moves towards. -/
def admits (reverse : Bool) (stop : Slice) (key : Bytes) : Bool :=
  if 0 < stop.len then !((!reverse && stop.bytes ≤ key) || (reverse && key < stop.bytes)) else true

def scan (it : BadgerIter) : Scan :=
  ⟨it.start, it.stop, it.iter.ahead.takeWhile fun entry => admits it.reverse it.stop entry.1⟩

/-- Valid looks at one entry; the entry after it is looked at when it comes up. -/
private theorem scan_cases (it : BadgerIter) :
    (∃ entry, it.iter.item = some entry ∧ it.isValid = true ∧
      (scan it).items = entry :: (scan { it with iter := it.iter.next }).items) ∨
    it.isValid = false ∧ (scan it).items = [] := by
  rcases it with ⟨reverse, start, stop, ⟨way, items, _ | ⟨entry, rest⟩⟩⟩
  · exact .inr ⟨rfl, rfl⟩
  · by_cases passes : admits reverse stop entry.1 = true
    · refine .inl ⟨entry, rfl, passes, ?_⟩
      simp [scan, passes, BadgerCursor.next]
    · refine .inr ⟨eq_false_of_ne_true passes, ?_⟩
      simp [scan, passes]

theorem ops_scanning : Scanning BadgerIter.ops fun it plain => plain = scan it where
  domain := by
    intro it plain related
    subst related
    rfl
  valid := by
    intro it plain related
    subst related
    refine ⟨it, ?_, rfl⟩
    rcases scan_cases it with ⟨entry, _, valid, ahead⟩ | ⟨invalid, ahead⟩
    · simp [BadgerIter.ops, Scan.valid, valid, ahead]
    · simp [BadgerIter.ops, Scan.valid, invalid, ahead]
  key := by
    intro it plain related
    subst related
    refine ⟨it, ?_, rfl⟩
    rcases scan_cases it with ⟨entry, item, valid, ahead⟩ | ⟨invalid, ahead⟩
    · simp [BadgerIter.ops, BadgerIter.key, Scan.ops, valid, ahead, item]
    · simp [BadgerIter.ops, BadgerIter.key, Scan.ops, invalid, ahead]
  value := by
    intro it plain related
    subst related
    refine ⟨it, ?_, rfl⟩
    rcases scan_cases it with ⟨entry, item, valid, ahead⟩ | ⟨invalid, ahead⟩
    · simp [BadgerIter.ops, BadgerIter.value, Scan.ops, valid, ahead, item]
    · simp [BadgerIter.ops, BadgerIter.value, Scan.ops, invalid, ahead]
  next := by
    intro it plain related
    subst related
    rcases scan_cases it with ⟨entry, item, valid, ahead⟩ | ⟨invalid, ahead⟩
    · refine ⟨{ it with iter := it.iter.next }, ?_, ?_⟩
      · simp [BadgerIter.ops, BadgerIter.next, Scan.ops, valid, ahead]
      · simp only [Scan.ops, ahead]
        rfl
    · refine ⟨it, ?_, ?_⟩
      · simp [BadgerIter.ops, BadgerIter.next, Scan.ops, invalid, ahead]
      · simp only [Scan.ops, ahead]
  error := by
    intro it plain related
    rfl
  remaining := by
    intro it plain related
    subst related
    exact (List.takeWhile_prefix _).length_le

/-- Whether a key is past the bound that the constructor starts from. Going
backwards that bound is the end, which is exclusive. -/
def starts (reverse : Bool) (start : Slice) (key : Bytes) : Bool :=
  start.elim true fun bound => if reverse then decide (key < bound) else decide (bound ≤ key)

section Placement
variable {items : List Entry}

/-- Of keys at or below the bound, falling strictly, only the first can be the bound. -/
private theorem skip_bound {bound : Bytes} (falling : items.Pairwise fun first second => second.1 < first.1)
    (below : ∀ entry ∈ items, entry.1 ≤ bound) :
    (if items.head?.map Prod.fst = some bound then items.tail else items) =
      items.filter fun entry => decide (entry.1 < bound) := by
  cases items with
  | nil => rfl
  | cons entry rest =>
    obtain ⟨lower, _⟩ := List.pairwise_cons.mp falling
    have first : entry.1 ≤ bound := below entry List.mem_cons_self
    have kept : rest.filter (fun entry => decide (entry.1 < bound)) = rest := by
      rw [List.filter_eq_self]
      intro other member
      exact decide_eq_true ((lower other member).trans_le first)
    by_cases same : entry.1 = bound
    · simp [same, kept]
    · simp [same, kept, lt_of_le_of_ne first same]

private theorem placed_forward (sorted : items.Pairwise fun first second => first.1 < second.1) {start : Slice}
    (nonempty : start ≠ some []) (ahead : List Entry) :
    ((BadgerCursor.mk false items ahead).seek start.bytes).ahead = items.filter fun entry => starts false start entry.1 := by
  cases start with
  | none => simp [BadgerCursor.seek, BadgerCursor.rewind, starts]
  | some bound =>
    have sought : bound ≠ [] := fun empty => nonempty (congrArg some empty)
    have dropped : items.dropWhile (fun entry => decide (entry.1 < bound)) =
        items.filter fun entry => !decide (entry.1 < bound) := by
      apply dropWhile_eq_filter
      exact sorted.imp fun less => by simpa using less.trans
    rw [BadgerCursor.seek, if_neg (by simpa using sought)]
    refine dropped.trans (List.filter_congr fun entry _ => ?_)
    simp [starts, ← decide_not]

private theorem placed_reverse (falling : items.Pairwise fun first second => second.1 < first.1) {start : Slice}
    (nonempty : start ≠ some []) (keyed : ∀ entry ∈ items, entry.1 ≠ []) (ahead : List Entry) :
    let sought := (BadgerCursor.mk true items ahead).seek start.bytes
    (if sought.item.map Prod.fst = some start.bytes then sought.next else sought).ahead =
      items.filter fun entry => starts true start entry.1 := by
  intro sought
  cases start with
  | none =>
    have apart : ¬ sought.item.map Prod.fst = some (Slice.bytes none) := by
      intro first
      obtain ⟨entry, found, empty⟩ := Option.map_eq_some_iff.mp first
      exact keyed entry (List.mem_of_mem_head? found) empty
    rw [if_neg apart]
    simp [sought, BadgerCursor.seek, BadgerCursor.rewind, starts]
  | some bound =>
    have target : bound ≠ [] := fun empty => nonempty (congrArg some empty)
    have reached : sought.ahead = items.filter fun entry => !decide (bound < entry.1) := by
      have dropped : items.dropWhile (fun entry => decide (bound < entry.1)) =
          items.filter fun entry => !decide (bound < entry.1) := by
        apply dropWhile_eq_filter
        exact falling.imp fun less => by simpa using fun above => lt_trans above less
      simp only [sought]
      rw [BadgerCursor.seek, if_neg (by simpa using target)]
      exact dropped
    have below : ∀ entry ∈ sought.ahead, entry.1 ≤ bound := by
      intro entry member
      rw [reached] at member
      simpa using (List.mem_filter.mp member).2
    have ordered : sought.ahead.Pairwise fun first second => second.1 < first.1 := reached ▸ falling.filter _
    have skipped := skip_bound ordered below
    have placed := apply_ite BadgerCursor.ahead (sought.item.map Prod.fst = some bound) sought.next sought
    refine placed.trans (skipped.trans ?_)
    rw [reached, List.filter_filter]
    apply List.filter_congr
    intro entry _
    rw [Bool.eq_iff_iff]
    simpa [starts] using le_of_lt

end Placement

private theorem admitted {items : List Entry} (reverse : Bool)
    (ordered : items.Pairwise fun first second => Precedes reverse first.1 second.1) (stop : Slice) :
    (items.takeWhile fun entry => admits reverse stop entry.1) = items.filter fun entry => admits reverse stop entry.1 := by
  apply takeWhile_eq_filter
  refine ordered.imp fun precedes => ?_
  unfold admits
  split
  · cases reverse with
    | false => simpa using lt_trans precedes
    | true => simpa using fun within => le_trans within (le_of_lt precedes)
  · simp

private theorem starts_iff {reverse : Bool} {start : Slice} {key : Bytes} : starts reverse start key = true ↔
    ∀ bound, start = some bound → if reverse = true then key < bound else bound ≤ key := by
  cases start <;> cases reverse <;> simp [starts]

private theorem admits_iff {reverse : Bool} {stop : Slice} (nonempty : stop ≠ some []) {key : Bytes} :
    admits reverse stop key = true ↔
      ∀ bound, stop = some bound → if reverse = true then bound ≤ key else key < bound := by
  rcases stop with _ | _ | ⟨byte, stop⟩
  · simp [admits, Slice.len]
  · exact absurd rfl nonempty
  · cases reverse with
    | false =>
      have test : admits false (some (byte :: stop)) key = !decide (byte :: stop ≤ key) := by
        simp [admits, Slice.len]
        rfl
      rw [test, Bool.not_eq_true', decide_eq_false_iff_not, not_le]
      simp
    | true =>
      have test : admits true (some (byte :: stop)) key = !decide (key < byte :: stop) := by
        simp [admits, Slice.len]
        rfl
      rw [test, Bool.not_eq_true', decide_eq_false_iff_not, not_lt]
      simp

private theorem between_forward {start stop : Slice} (nonempty : stop ≠ some []) (key : Bytes) :
    (starts false start key && admits false stop key) = isKeyInDomain key start stop := by
  rw [Bool.eq_iff_iff, isKeyInDomain_iff, Bool.and_eq_true, starts_iff, admits_iff nonempty]
  cases start <;> simp

private theorem between_reverse {start stop : Slice} (nonempty : start ≠ some []) (key : Bytes) :
    (starts true stop key && admits true start key) = isKeyInDomain key start stop := by
  rw [Bool.eq_iff_iff, isKeyInDomain_iff, Bool.and_eq_true, starts_iff, admits_iff nonempty, and_comm]
  cases start <;> simp

private def placed (store : Store) (start : Slice) (reverse : Bool) : BadgerCursor :=
  let sought := (BadgerCursor.new store reverse).rewind.seek start.bytes
  if reverse ∧ sought.item.map Prod.fst = some start.bytes then sought.next else sought

private theorem iteratorOpts_placed (engine : Engine) {start stop : Slice} (bounds : checkBounds start stop = .ok ())
    (reverse : Bool) :
    BadgerDB.iteratorOpts engine start stop reverse =
      some (.ok ⟨reverse, start, stop, placed engine.store start reverse⟩) := by
  simp only [BadgerDB.iteratorOpts, bounds]
  rfl

private theorem forward_items (store : Store) {start stop : Slice} (low : start ≠ some []) (high : stop ≠ some []) :
    (scan ⟨false, start, stop, placed store start false⟩).items = Store.scan store start stop false := by
  have ahead : (placed store start false).ahead = store.entries.filter fun entry => starts false start entry.1 := by
    rw [placed, if_neg (by simp)]
    exact placed_forward store.sorted low store.entries
  have range := admitted false (store.sorted.filter fun entry => starts false start entry.1) stop
  simp only [scan, ahead]
  rw [range, List.filter_filter]
  apply List.filter_congr
  intro entry _
  rw [Bool.and_comm, between_forward high]

private theorem reverse_items (store : Store) (keyed : ∀ entry ∈ store.entries, entry.1 ≠ []) {start stop : Slice}
    (low : start ≠ some []) (high : stop ≠ some []) :
    (scan ⟨true, stop, start, placed store stop true⟩).items = Store.scan store start stop true := by
  have falling : store.entries.reverse.Pairwise fun first second => second.1 < first.1 :=
    List.pairwise_reverse.mpr store.sorted
  have ahead : (placed store stop true).ahead = store.entries.reverse.filter fun entry => starts true stop entry.1 := by
    have reached := placed_reverse falling high (fun entry member => keyed entry (List.mem_reverse.mp member))
      store.entries.reverse
    simp only [placed, true_and]
    exact reached
  have range := admitted true (falling.filter fun entry => starts true stop entry.1) start
  simp only [scan, ahead]
  rw [range, List.filter_filter, Store.scan, ← List.filter_reverse]
  apply List.filter_congr
  intro entry _
  rw [Bool.and_comm, between_reverse low]

end BadgerIter

def NoEmptyKey (engine : Engine) : Prop := engine.store.get? [] = none

section NoEmptyKey
variable {engine : Engine} (keyed : NoEmptyKey engine)
include keyed

theorem write_keyed {updates : List (Update Bytes Bytes)} (others : ∀ update ∈ updates, update.key ≠ []) :
    NoEmptyKey (engine.write updates).2 := by
  unfold Engine.write
  cases engine.fault with
  | some fault => exact keyed
  | none => exact (SortedMap.get?_applyAll_untouched engine.store others).trans keyed

theorem set_keyed (key value : Slice) : NoEmptyKey (BadgerDB.set engine key value).2 := by
  unfold BadgerDB.set
  rcases checkPair_cases key value with ⟨err, refused⟩ | ⟨nonempty, content, _, accepted⟩
  · simpa only [refused] using keyed
  · simp only [accepted]
    exact write_keyed keyed (by simpa [Update.key] using nonempty)

theorem delete_keyed (key : Slice) : NoEmptyKey (BadgerDB.delete engine key).2 := by
  unfold BadgerDB.delete
  rcases checkKey_cases key with refused | ⟨nonempty, accepted⟩
  · simpa only [refused] using keyed
  · simp only [accepted]
    exact write_keyed keyed (by simpa [Update.key] using nonempty)

end NoEmptyKey

private theorem withSync_keyed {result : Except Err Unit × Engine} (keyed : NoEmptyKey result.2) :
    NoEmptyKey (BadgerDB.withSync result).2 := by
  obtain ⟨outcome, engine⟩ := result
  cases outcome with
  | error err => exact keyed
  | ok _ => exact write_keyed keyed (by simp)

private theorem withBatch_keyed {api : WriteBatch} {caller : Session (badgerDB api)} (keyed : NoEmptyKey caller.state)
    (name : Nat)
    {method : BadgerBatch api → Reply × Session (badgerDB api)} (kept : ∀ batch, NoEmptyKey (method batch).2.state) :
    NoEmptyKey (caller.withBatch name method).2.state := by
  unfold Session.withBatch
  cases caller.batches name with
  | none => exact keyed
  | some batch => exact kept batch

section Calls
variable (api : WriteBatch) (flushes : ∀ engine wb, NoEmptyKey engine → NoEmptyKey (api.flush engine wb).2.1)
include flushes

private theorem batchWrite_keyed {engine : Engine} (keyed : NoEmptyKey engine) (batch : BadgerBatch api) :
    NoEmptyKey (BadgerBatch.write api engine batch).2.1 := by
  unfold BadgerBatch.write
  split
  · exact flushes engine batch.wb keyed
  · exact keyed

/-- No call puts an empty key into the database, if badger's own batches do not. -/
theorem badgerDB_keyed {caller : Session (badgerDB api)} (keyed : NoEmptyKey caller.state) (calls : List Call) :
    NoEmptyKey ((session (badgerDB api)).run caller calls).2.state := by
  apply (session (badgerDB api)).run_invariant (fun caller => NoEmptyKey caller.state) _ keyed
  intro caller call keyed
  cases call with
  | get key => exact keyed
  | has key => exact keyed
  | set key value => exact set_keyed keyed key value
  | setSync key value => exact withSync_keyed (set_keyed keyed key value)
  | delete key => exact delete_keyed keyed key
  | deleteSync key => exact withSync_keyed (delete_keyed keyed key)
  | newBatch name => exact keyed
  | batchSet name key value => exact withBatch_keyed keyed name fun _ => keyed
  | batchDelete name key => exact withBatch_keyed keyed name fun _ => keyed
  | batchWrite name => exact withBatch_keyed keyed name (batchWrite_keyed api flushes keyed)
  | batchWriteSync name =>
    apply withBatch_keyed keyed name
    intro batch
    exact @withSync_keyed (_, _) (batchWrite_keyed api flushes keyed batch)
  | batchClose name => exact withBatch_keyed keyed name fun _ => keyed

end Calls

theorem BadgerIter.opened_scan (engine : Engine) (keyed : NoEmptyKey engine) {start stop : Slice}
    (bounds : checkBounds start stop = .ok ()) (reverse : Bool) :
    ∃ it, (if reverse then BadgerDB.reverseIterator engine start stop else BadgerDB.iterator engine start stop) = some (.ok it) ∧
      (BadgerIter.scan it).items = Store.scan engine.store start stop reverse := by
  obtain ⟨low, high⟩ := checkBounds_ok.mp bounds
  cases reverse with
  | false => exact ⟨_, BadgerIter.iteratorOpts_placed engine bounds false, BadgerIter.forward_items engine.store low high⟩
  | true =>
    have swapped : checkBounds stop start = .ok () := checkBounds_ok.mpr ⟨high, low⟩
    have nonempty : ∀ entry ∈ engine.store.entries, entry.1 ≠ [] := by
      intro entry member empty
      exact SortedMap.get?_eq_none.mp keyed entry.2 (empty ▸ member)
    exact ⟨_, BadgerIter.iteratorOpts_placed engine swapped true, BadgerIter.reverse_items engine.store nonempty low high⟩

/-- BadgerDB range scans: in both directions, for any bounds and under any calls, the
iterator is a cursor over the domain in strict order. Only a lone empty key would be
missed, going backwards without an end, and no call stores one. -/
theorem badgerDB_scans_exact (engine : Engine) (keyed : NoEmptyKey engine) (start stop : Slice)
    (bounds : checkBounds start stop = .ok ()) (reverse : Bool) :
    ∃ it items, (if reverse then BadgerDB.reverseIterator engine start stop else BadgerDB.iterator engine start stop) =
        some (.ok it) ∧
      (∀ entry, entry ∈ items ↔ entry ∈ engine.store.entries ∧ isKeyInDomain entry.1 start stop = true) ∧
      (items.Pairwise fun first second => Precedes reverse first.1 second.1) ∧ CursorOver BadgerIter.ops it items := by
  obtain ⟨it, made, ahead⟩ := BadgerIter.opened_scan engine keyed bounds reverse
  refine ⟨it, Store.scan engine.store start stop reverse, made, fun entry => Store.mem_scan, Store.scan_ordered _ _ _ _, ?_⟩
  rw [← ahead]
  exact CursorOver.of_simulates BadgerIter.ops_scanning.simulates rfl

/-- Backwards from an end that is a stored key, which the constructor steps over. -/
theorem badgerDB_scans_exact_end :
    let engine : Engine := ⟨(SortedMap.empty.insert [1] [10]).insert [2] [20], []⟩
    ∃ it items, BadgerDB.reverseIterator engine none (some [2]) = some (.ok it) ∧
      ([1], [10]) ∈ items ∧ ([2], [20]) ∉ items ∧ CursorOver BadgerIter.ops it items := by
  intro engine
  obtain ⟨it, items, made, inside, _, cursor⟩ := badgerDB_scans_exact engine rfl none (some [2]) rfl true
  refine ⟨it, items, made, (inside _).mpr (by decide), ?_, cursor⟩
  intro member
  exact absurd ((inside _).mp member) (by decide)

end TmDb.Proofs
