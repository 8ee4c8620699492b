import TmDb.Contract

/-! memdb.go, memdb_batch.go and memdb_iterator.go as one caller sees them. The
B-tree is the ordered map it implements; its traversals are the ranges its
documentation promises. What other goroutines see is in MemConcurrent. -/

namespace TmDb
open Lib

/-- The B-tree traversals MemDB uses, by the items they visit and in which order. -/
inductive Traversal where
  | ascend
  | ascendGreaterOrEqual (pivot : Bytes)
  | ascendRange (greaterOrEqual lessThan : Bytes)
  | descend
  | descendLessOrEqual (pivot : Bytes)
deriving DecidableEq

namespace Traversal

def reverse : Traversal → Bool
  | .ascend | .ascendGreaterOrEqual _ | .ascendRange _ _ => false
  | .descend | .descendLessOrEqual _ => true

def covers : Traversal → Bytes → Bool
  | .ascend, _ | .descend, _ => true
  | .ascendGreaterOrEqual pivot, key => pivot ≤ key
  | .ascendRange low high, key => low ≤ key && key < high
  | .descendLessOrEqual pivot, key => key ≤ pivot

def items (traversal : Traversal) (tree : Store) : List Entry :=
  let covered := tree.entries.filter fun entry => traversal.covers entry.1
  if traversal.reverse then covered.reverse else covered

end Traversal

/-- The variables the visitor closes over. -/
structure Visitor where
  skipEqual : Slice
  abortLessThan : Slice
deriving DecidableEq

/-- What the visitor does with an item: pass over it, end the traversal, or try to
send it. -/
inductive Verdict where
  | skip
  | abort
  | offer
deriving DecidableEq

namespace Visitor

def judge (visitor : Visitor) (key : Bytes) : Verdict × Visitor :=
  if visitor.skipEqual = some key then (.skip, { visitor with skipEqual := none })
  else match visitor.abortLessThan with
    | some bound => if key < bound then (.abort, visitor) else (.offer, visitor)
    | none => (.offer, visitor)

/-- The items a traversal sends when every send goes through. -/
def offered : Visitor → List Entry → List Entry
  | _, [] => []
  | visitor, entry :: rest => match visitor.judge entry.1 with
    | (.skip, visitor) => visitor.offered rest
    | (.abort, _) => []
    | (.offer, visitor) => entry :: visitor.offered rest

end Visitor

/-- The switch of newMemDBIteratorMtxChoice. -/
def traversalOf (start stop : Slice) (reverse : Bool) : Traversal × Visitor :=
  match start, stop, reverse with
  | none, none, false => (.ascend, ⟨none, none⟩)
  | none, none, true => (.descend, ⟨none, none⟩)
  | start, none, false => (.ascendGreaterOrEqual start.bytes, ⟨none, none⟩)
  | start, stop, false => (.ascendRange start.bytes stop.bytes, ⟨none, none⟩)
  | start, none, true => (.descend, ⟨none, start⟩)
  | start, stop, true => (.descendLessOrEqual stop.bytes, ⟨stop, start⟩)

/-- `item` is the primed item; `ch` is what the goroutine still has to deliver. -/
structure MemIter where
  start : Slice
  stop : Slice
  item : Option Entry
  ch : List Entry
deriving DecidableEq

namespace MemIter

def new (tree : Store) (start stop : Slice) (reverse : Bool) : MemIter :=
  let (traversal, visitor) := traversalOf start stop reverse
  let sent := visitor.offered (traversal.items tree)
  ⟨start, stop, sent.head?, sent.tail⟩

def valid (it : MemIter) : Bool := it.item.isSome

def next (it : MemIter) : Option Unit × MemIter :=
  if it.valid then (some (), { it with item := it.ch.head?, ch := it.ch.tail }) else (none, it)

def ops : IterOps MemIter where
  domain it := (it.start, it.stop)
  valid it := (some it.valid, it)
  next := next
  key it := (it.item.map Prod.fst, it)
  value it := (it.item.map Prod.snd, it)
  error _ := none
  remaining it := if it.valid then it.ch.length + 1 else 0

end MemIter

inductive OpType where
  | set
  | delete
deriving DecidableEq

structure Operation where
  opType : OpType
  key : Bytes
  value : Slice
deriving DecidableEq

/-- The operation slice of a batch; `none` is the nil slice of a closed one. -/
abbrev MemBatch := Option (List Operation)

namespace MemBatch

def set (batch : MemBatch) (key value : Slice) : Except Err Unit × MemBatch :=
  match checkPair key value with
  | .error err => (.error err, batch)
  | .ok (key, value) => match batch with
    | none => (.error .batchClosed, batch)
    | some ops => (.ok (), some (ops ++ [⟨.set, key, some value⟩]))

def delete (batch : MemBatch) (key : Slice) : Except Err Unit × MemBatch :=
  match checkKey key with
  | .error err => (.error err, batch)
  | .ok key => match batch with
    | none => (.error .batchClosed, batch)
    | some ops => (.ok (), some (ops ++ [⟨.delete, key, none⟩]))

def close (_ : MemBatch) : Except Err Unit × MemBatch := (.ok (), none)

def applyOp (tree : Store) (op : Operation) : Store :=
  match op.opType with
  | .set => tree.insert op.key op.value.bytes
  | .delete => tree.erase op.key

def write (tree : Store) (batch : MemBatch) : Except Err Unit × Store × MemBatch :=
  match batch with
  | none => (.error .batchClosed, tree, batch)
  | some ops => ((close batch).1, ops.foldl applyOp tree, (close batch).2)

def ops : BatchOps Store MemBatch where
  set := set
  delete := delete
  write := write
  writeSync := write
  close := close

end MemBatch

namespace MemDB

def get (tree : Store) (key : Slice) : Except Err Slice :=
  match checkKey key with
  | .error err => .error err
  | .ok key => match tree.get? key with
    | some value => .ok (some value)
    | none => .ok none

def has (tree : Store) (key : Slice) : Except Err Bool :=
  match checkKey key with
  | .error err => .error err
  | .ok key => .ok (tree.get? key).isSome

def set (tree : Store) (key value : Slice) : Except Err Unit × Store :=
  match checkPair key value with
  | .error err => (.error err, tree)
  | .ok (key, value) => (.ok (), tree.insert key value)

def delete (tree : Store) (key : Slice) : Except Err Unit × Store :=
  match checkKey key with
  | .error err => (.error err, tree)
  | .ok key => (.ok (), tree.erase key)

def iteratorWith (reverse : Bool) (tree : Store) (start stop : Slice) : Option (Except Err MemIter) :=
  match checkBounds start stop with
  | .error err => some (.error err)
  | .ok _ => some (.ok (MemIter.new tree start stop reverse))

def stats (tree : Store) : List (Bytes × Bytes) :=
  [(goString "database.type", goString "memDB"),
    (goString "database.size", goString (toString tree.entries.length))]

end MemDB

def memDB : DB where
  State := Store
  Batch := MemBatch
  Iter := MemIter
  get := MemDB.get
  has := MemDB.has
  set := MemDB.set
  setSync := MemDB.set
  delete := MemDB.delete
  deleteSync := MemDB.delete
  iterator := MemDB.iteratorWith false
  reverseIterator := MemDB.iteratorWith true
  iter := MemIter.ops
  newBatch := some []
  batch := MemBatch.ops
  stats := MemDB.stats

end TmDb
