import TmDb.MemDB

/-! MemDB meets the contract. The work is in the iterators: the switch over start,
end and direction, with the skipped and the aborting key, visits exactly the
domain in iteration order. -/

namespace TmDb.Proofs
open Lib

private theorem offered_free (items : List Entry) : (⟨none, none⟩ : Visitor).offered items = items := by
  induction items with
  | nil => rfl
  | cons entry rest ih => simp [Visitor.offered, Visitor.judge, ih]

/-- Descending, an abort at the first key below the bound loses nothing else. -/
private theorem offered_abort (bound : Bytes) {items : List Entry}
    (descending : items.Pairwise fun first second => second.1 < first.1) :
    (⟨none, some bound⟩ : Visitor).offered items = items.filter fun entry => bound ≤ entry.1 := by
  induction items with
  | nil => rfl
  | cons entry rest ih =>
    obtain ⟨below, tail⟩ := List.pairwise_cons.mp descending
    by_cases less : entry.1 < bound
    · have gone : (entry :: rest).filter (fun entry => decide (bound ≤ entry.1)) = [] := by
        rw [List.filter_eq_nil_iff, List.forall_mem_cons]
        exact ⟨by simpa using less, fun other member => by simpa using (below other member).trans less⟩
      rw [gone]
      simp [Visitor.offered, Visitor.judge, less]
    · simp [Visitor.offered, Visitor.judge, less, ih tail, not_lt.mp less]

private theorem offered_start (start : Slice) {items : List Entry}
    (descending : items.Pairwise fun first second => second.1 < first.1) :
    (⟨none, start⟩ : Visitor).offered items = items.filter fun entry => start.bytes ≤ entry.1 := by
  cases start with
  | none => simp [offered_free]
  | some bound => exact offered_abort bound descending

private theorem offered_unskipped (stop : Bytes) (start : Slice) {items : List Entry}
    (absent : ∀ entry ∈ items, entry.1 ≠ stop) :
    (⟨some stop, start⟩ : Visitor).offered items = (⟨none, start⟩ : Visitor).offered items := by
  induction items with
  | nil => rfl
  | cons entry rest ih =>
    obtain ⟨different, others⟩ := List.forall_mem_cons.mp absent
    cases start with
    | none => simp [Visitor.offered, Visitor.judge, Ne.symm different, ih others]
    | some bound =>
      by_cases less : entry.1 < bound
      · simp [Visitor.offered, Visitor.judge, Ne.symm different, less]
      · simp [Visitor.offered, Visitor.judge, Ne.symm different, less, ih others]

/-- The skipped key is the first one visited, if it is there at all. -/
private theorem offered_skip (stop : Bytes) (start : Slice) {items : List Entry}
    (descending : items.Pairwise fun first second => second.1 < first.1) (bounded : ∀ entry ∈ items, entry.1 ≤ stop) :
    (⟨some stop, start⟩ : Visitor).offered items =
      (⟨none, start⟩ : Visitor).offered (items.filter fun entry => entry.1 < stop) := by
  cases items with
  | nil => rfl
  | cons entry rest =>
    obtain ⟨below, _⟩ := List.pairwise_cons.mp descending
    obtain ⟨first, _⟩ := List.forall_mem_cons.mp bounded
    have rest_below : ∀ other ∈ rest, other.1 < stop := fun other member => (below other member).trans_le first
    have rest_kept : rest.filter (fun entry => decide (entry.1 < stop)) = rest := by
      simpa [List.filter_eq_self] using rest_below
    by_cases same : entry.1 = stop
    · simp [Visitor.offered, Visitor.judge, same, rest_kept]
    · have less : entry.1 < stop := lt_of_le_of_ne first same
      rw [offered_unskipped stop start (List.forall_mem_cons.mpr ⟨same, fun other member => (rest_below other member).ne⟩)]
      simp [less, rest_kept]

private theorem descending_filter (tree : Store) (test : Bytes → Bool) :
    ((tree.entries.filter fun entry => test entry.1).reverse).Pairwise fun first second => second.1 < first.1 :=
  List.pairwise_reverse.mpr (tree.sorted.filter _)

theorem offered_traversalOf (tree : Store) (start stop : Slice) (reverse : Bool) :
    (traversalOf start stop reverse).2.offered ((traversalOf start stop reverse).1.items tree) =
      Store.scan tree start stop reverse := by
  cases reverse with
  | false =>
    have covers : ∀ key, (traversalOf start stop false).1.covers key = isKeyInDomain key start stop := by
      intro key
      rw [Bool.eq_iff_iff, isKeyInDomain_iff]
      cases start <;> cases stop <;> simp [traversalOf, Traversal.covers]
    have forward : (traversalOf start stop false).1.reverse = false ∧ (traversalOf start stop false).2 = ⟨none, none⟩ := by
      cases start <;> cases stop <;> exact ⟨rfl, rfl⟩
    simp only [forward.2, offered_free, Traversal.items, forward.1, covers, Store.scan, Bool.false_eq_true, if_false]
  | true =>
    have inside : ∀ entry : Entry, isKeyInDomain entry.1 start stop =
        (decide (start.bytes ≤ entry.1) && stop.elim true fun bound => decide (entry.1 < bound)) := by
      intro entry
      rw [Bool.eq_iff_iff, isKeyInDomain_iff]
      cases stop <;> simp
    cases stop with
    | none =>
      have plan : traversalOf start none true = (.descend, ⟨none, start⟩) := by cases start <;> rfl
      have sent := offered_start start (descending_filter tree fun _ => true)
      simp only [plan, Traversal.items, Traversal.reverse, Traversal.covers, if_true, sent, Store.scan, inside,
        Option.elim, Bool.and_true, List.filter_reverse, List.filter_filter]
    | some bound =>
      have plan : traversalOf start (some bound) true = (.descendLessOrEqual bound, ⟨some bound, start⟩) := by
        cases start <;> rfl
      have below := descending_filter tree fun key => key ≤ bound
      have sent := offered_skip bound start below (by simp)
      rw [offered_start start (below.filter _)] at sent
      simp only [plan, Traversal.items, Traversal.reverse, Traversal.covers, if_true, sent, Store.scan, inside,
        Option.elim, List.filter_reverse, List.filter_filter]
      congr 2
      funext entry
      by_cases less : entry.1 < bound
      · simp [less, less.le]
      · simp [less]

def Operation.update (op : Operation) : Update Bytes Bytes :=
  match op.opType with
  | .set => .set op.key op.value.bytes
  | .delete => .delete op.key

theorem applyAll_operations (tree : Store) (ops : List Operation) :
    ops.foldl MemBatch.applyOp tree = tree.applyAll (ops.map Operation.update) := by
  induction ops generalizing tree with
  | nil => rfl
  | cons op rest ih =>
    rw [List.foldl_cons, List.map_cons, SortedMap.applyAll_cons, ih]
    cases op with
    | mk opType key value => cases opType <;> rfl

/-- The entries an iterator still has ahead, its current one included. -/
def MemIter.ahead (it : MemIter) : List Entry :=
  match it.item with
  | none => []
  | some entry => entry :: it.ch

def MemIter.scan (it : MemIter) : Scan := ⟨it.start, it.stop, MemIter.ahead it⟩

private theorem new_ahead (tree : Store) (start stop : Slice) (reverse : Bool) :
    MemIter.ahead (MemIter.new tree start stop reverse) = Store.scan tree start stop reverse := by
  have sent := offered_traversalOf tree start stop reverse
  simp only [MemIter.ahead, MemIter.new, sent]
  cases Store.scan tree start stop reverse <;> rfl

/-- What the goroutine sends, and so what the iterator gives, is the domain in
strict order. -/
theorem memDB_scans_exact (tree : Store) (start stop : Slice) (bounds : checkBounds start stop = .ok ())
    (reverse : Bool) :
    let sent := (traversalOf start stop reverse).2.offered ((traversalOf start stop reverse).1.items tree)
    (∃ it, MemDB.iteratorWith reverse tree start stop = some (.ok it) ∧ MemIter.ahead it = sent) ∧
      (∀ entry, entry ∈ sent ↔ entry ∈ tree.entries ∧ isKeyInDomain entry.1 start stop = true) ∧
      sent.Pairwise fun first second => Precedes reverse first.1 second.1 := by
  intro sent
  have same : sent = Store.scan tree start stop reverse := offered_traversalOf tree start stop reverse
  refine ⟨⟨MemIter.new tree start stop reverse, ?_, ?_⟩, ?_, ?_⟩
  · simp only [MemDB.iteratorWith, bounds]
  · rw [same, new_ahead]
  · intro entry
    rw [same, Store.mem_scan]
  · rw [same]
    exact Store.scan_ordered tree start stop reverse

/-- Downwards from an end that is stored, to a start that is not. -/
theorem memDB_scans_exact_reverse :
    let tree : Store := ((SortedMap.empty.insert [1] [10]).insert [3] [30]).insert [5] [50]
    (traversalOf (some [2]) (some [5]) true).2.offered ((traversalOf (some [2]) (some [5]) true).1.items tree) =
        [([3], [30])] ∧
      ∃ it, MemDB.iteratorWith true tree (some [2]) (some [5]) = some (.ok it) ∧ MemIter.ahead it = [([3], [30])] :=
  ⟨by decide, (memDB_scans_exact _ (some [2]) (some [5]) rfl true).1⟩

private theorem iteratorWith_scan (reverse : Bool) (tree : Store) (start stop : Slice) :
    (MemDB.iteratorWith reverse tree start stop).map (Except.map MemIter.scan) = Plain.scan reverse tree start stop := by
  unfold MemDB.iteratorWith Plain.scan
  cases checkBounds start stop with
  | error err => rfl
  | ok _ =>
    simp only [Option.map_some, Except.map, MemIter.scan, new_ahead]
    rfl

private theorem operations_set (batch : MemBatch) (key value : Slice) :
    (MemBatch.set batch key value).map id (Option.map (List.map Operation.update)) =
      Pending.set (Option.map (List.map Operation.update) batch) key value := by
  unfold MemBatch.set Pending.set
  cases checkPair key value with
  | error err => rfl
  | ok pair => cases batch <;> simp [Operation.update]

private theorem operations_delete (batch : MemBatch) (key : Slice) :
    (MemBatch.delete batch key).map id (Option.map (List.map Operation.update)) =
      Pending.delete (Option.map (List.map Operation.update) batch) key := by
  unfold MemBatch.delete Pending.delete
  cases checkKey key with
  | error err => rfl
  | ok key => cases batch <;> simp [Operation.update]

private theorem operations_write (tree : Store) (batch : MemBatch) :
    (MemBatch.write tree batch).map id (Prod.map id (Option.map (List.map Operation.update))) =
      Pending.write tree (Option.map (List.map Operation.update) batch) := by
  cases batch with
  | none => rfl
  | some ops => simp [MemBatch.write, MemBatch.close, Pending.write, applyAll_operations]

def memContract : Contract memDB where
  contents tree := tree
  pending := Option.map (List.map Operation.update)
  cursor := MemIter.scan
  get tree key := by
    change MemDB.get tree key = Plain.get tree key
    unfold MemDB.get Plain.get
    cases checkKey key with
    | error err => rfl
    | ok key => cases found : tree.get? key <;> simp [found, Except.map]
  has tree key := by
    change MemDB.has tree key = Plain.has tree key
    unfold MemDB.has Plain.has
    cases checkKey key <;> rfl
  set _ _ _ := rfl
  setSync _ _ _ := rfl
  delete _ _ := rfl
  deleteSync _ _ := rfl
  iterator := iteratorWith_scan false
  reverseIterator := iteratorWith_scan true
  domain _ := rfl
  valid it := by
    change (some it.item.isSome, MemIter.scan it) = (some (MemIter.scan it).valid, MemIter.scan it)
    cases item : it.item <;> simp [MemIter.scan, MemIter.ahead, Scan.valid, item]
  next it := by
    change (MemIter.next it).map id MemIter.scan = Scan.ops.next (MemIter.scan it)
    cases item : it.item with
    | none => simp [MemIter.next, MemIter.valid, MemIter.scan, MemIter.ahead, Scan.ops, item, Prod.map]
    | some entry =>
      cases rest : it.ch <;> simp [MemIter.next, MemIter.valid, MemIter.scan, MemIter.ahead, Scan.ops, item, rest]
  key it := by
    change (it.item.map Prod.fst, MemIter.scan it) = Scan.ops.key (MemIter.scan it)
    cases item : it.item <;> simp [MemIter.scan, MemIter.ahead, Scan.ops, item]
  value it := by
    change (it.item.map Prod.snd, MemIter.scan it) = Scan.ops.value (MemIter.scan it)
    cases item : it.item <;> simp [MemIter.scan, MemIter.ahead, Scan.ops, item]
  error _ := rfl
  remaining it := by
    change (if it.item.isSome then it.ch.length + 1 else 0) = (MemIter.ahead it).length
    cases item : it.item <;> simp [MemIter.ahead, item]
  newBatch := rfl
  batchSet := operations_set
  batchDelete := operations_delete
  batchWrite := operations_write
  batchWriteSync := operations_write
  batchClose _ := rfl

end TmDb.Proofs
