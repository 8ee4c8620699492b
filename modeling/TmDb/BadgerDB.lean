import TmDb.BoltDB

/-! badger_db.go. One constructor serves both directions: going backwards it is
given the bounds the other way round, and it steps over the key it has sought,
since that bound is exclusive. -/

namespace TmDb
open Lib

/-- badger's iterator in a read-only transaction: the pairs in its direction, and
those from the current one on. -/
structure BadgerCursor where
  reverse : Bool
  items : List Entry
  ahead : List Entry

namespace BadgerCursor

/-- NewIterator, which is not positioned yet. -/
def new (store : Store) (reverse : Bool) : BadgerCursor :=
  ⟨reverse, if reverse then store.entries.reverse else store.entries, []⟩

def rewind (cursor : BadgerCursor) : BadgerCursor := { cursor with ahead := cursor.items }

/-- To the smallest key at or after the one sought, or going backwards to the
greatest at or before it; an empty key is the first of the direction. -/
def seek (cursor : BadgerCursor) (key : Bytes) : BadgerCursor :=
  if key.length = 0 then cursor.rewind
  else { cursor with ahead := cursor.items.dropWhile fun entry =>
    if cursor.reverse then key < entry.1 else entry.1 < key }

def item (cursor : BadgerCursor) : Option Entry := cursor.ahead.head?

def next (cursor : BadgerCursor) : BadgerCursor := { cursor with ahead := cursor.ahead.tail }

end BadgerCursor

structure BadgerIter where
  reverse : Bool
  start : Slice
  stop : Slice
  iter : BadgerCursor

namespace BadgerIter

/-- Valid looks at the cursor anew each time. -/
def isValid (it : BadgerIter) : Bool :=
  match it.iter.item with
  | none => false
  | some (key, _) =>
    if 0 < it.stop.len then
      !((!it.reverse && it.stop.bytes ≤ key) || (it.reverse && key < it.stop.bytes))
    else true

/-- Next, Key and Value panic on an invalid iterator. -/
def next (it : BadgerIter) : Option Unit × BadgerIter :=
  if it.isValid then (some (), { it with iter := it.iter.next }) else (none, it)

def key (it : BadgerIter) : Option Bytes × BadgerIter :=
  if it.isValid then (it.iter.item.map Prod.fst, it) else (none, it)

def value (it : BadgerIter) : Option Bytes × BadgerIter :=
  if it.isValid then (it.iter.item.map Prod.snd, it) else (none, it)

/-- No value fails to be read here, so lastErr stays nil. -/
def ops : IterOps BadgerIter where
  domain it := (it.start, it.stop)
  valid it := (some it.isValid, it)
  next := next
  key := key
  value := value
  error _ := none
  remaining it := it.iter.ahead.length

end BadgerIter

/-- What the batch uses of badger's WriteBatch. -/
structure WriteBatch where
  State : Type
  new : State
  set : State → Bytes → Bytes → Except Err Unit × State
  delete : State → Bytes → Except Err Unit × State
  flush : Engine → State → Except Err Unit × Engine × State
  cancel : State → State

/-- A WriteBatch that keeps its entries until Flush, and takes none after it or after
Cancel. -/
def WriteBatch.buffered : WriteBatch where
  State := Pending
  new := some []
  set wb key value := match wb with
    | none => (.error (.engine "discarded"), none)
    | some updates => (.ok (), some (updates ++ [.set key value]))
  delete wb key := match wb with
    | none => (.error (.engine "discarded"), none)
    | some updates => (.ok (), some (updates ++ [.delete key]))
  flush engine wb := match wb with
    | none => (.error (.engine "discarded"), engine, none)
    | some updates => (engine.write updates).map id fun after => (after, none)
  cancel _ := none

/-- `firstFlush` is whether the channel of that name has an element to receive. -/
structure BadgerBatch (api : WriteBatch) where
  wb : api.State
  firstFlush : Bool

namespace BadgerDB

def get (engine : Engine) (key : Slice) : Except Err Slice :=
  match checkKey key with
  | .error err => .error err
  | .ok key => .ok (engine.store.get? key)

def has (engine : Engine) (key : Slice) : Except Err Bool :=
  match checkKey key with
  | .error err => .error err
  | .ok key => .ok (engine.store.get? key).isSome

def set (engine : Engine) (key value : Slice) : Except Err Unit × Engine :=
  match checkPair key value with
  | .error err => (.error err, engine)
  | .ok (key, value) => engine.write [.set key value]

def delete (engine : Engine) (key : Slice) : Except Err Unit × Engine :=
  match checkKey key with
  | .error err => (.error err, engine)
  | .ok key => engine.write [.delete key]

/-- A Sync that fails does not undo the write before it. -/
def withSync (result : Except Err Unit × Engine) : Except Err Unit × Engine :=
  match result with
  | (.error err, engine) => (.error err, engine)
  | (.ok _, engine) => engine.write []

def setSync (engine : Engine) (key value : Slice) : Except Err Unit × Engine := withSync (set engine key value)

def deleteSync (engine : Engine) (key : Slice) : Except Err Unit × Engine := withSync (delete engine key)

def iteratorOpts (engine : Engine) (start stop : Slice) (reverse : Bool) : Option (Except Err BadgerIter) :=
  match checkBounds start stop with
  | .error err => some (.error err)
  | .ok _ =>
    let sought := (BadgerCursor.new engine.store reverse).rewind.seek start.bytes
    let placed := if reverse ∧ sought.item.map Prod.fst = some start.bytes then sought.next else sought
    some (.ok ⟨reverse, start, stop, placed⟩)

def iterator (engine : Engine) (start stop : Slice) : Option (Except Err BadgerIter) :=
  iteratorOpts engine start stop false

def reverseIterator (engine : Engine) (start stop : Slice) : Option (Except Err BadgerIter) :=
  iteratorOpts engine stop start true

end BadgerDB

namespace BadgerBatch
variable (api : WriteBatch)

def set (batch : BadgerBatch api) (key value : Slice) : Except Err Unit × BadgerBatch api :=
  match checkPair key value with
  | .error err => (.error err, batch)
  | .ok (key, value) => (api.set batch.wb key value).map id fun wb => { batch with wb := wb }

def delete (batch : BadgerBatch api) (key : Slice) : Except Err Unit × BadgerBatch api :=
  match checkKey key with
  | .error err => (.error err, batch)
  | .ok key => (api.delete batch.wb key).map id fun wb => { batch with wb := wb }

def write (engine : Engine) (batch : BadgerBatch api) : Except Err Unit × Engine × BadgerBatch api :=
  if batch.firstFlush then
    (api.flush engine batch.wb).map id fun after => (after.1, ⟨after.2, false⟩)
  else (.error .batchFlushed, engine, batch)

def writeSync (engine : Engine) (batch : BadgerBatch api) : Except Err Unit × Engine × BadgerBatch api :=
  let written := write api engine batch
  let synced := BadgerDB.withSync (written.1, written.2.1)
  (synced.1, synced.2, written.2.2)

/-- Close takes the element as well, so that no later Write flushes what it cancels. -/
def close (batch : BadgerBatch api) : Except Err Unit × BadgerBatch api := (.ok (), ⟨api.cancel batch.wb, false⟩)

def ops : BatchOps Engine (BadgerBatch api) where
  set := set api
  delete := delete api
  write := write api
  writeSync := writeSync api
  close := close api

end BadgerBatch

def badgerDB (api : WriteBatch) : DB where
  State := Engine
  Batch := BadgerBatch api
  Iter := BadgerIter
  get := BadgerDB.get
  has := BadgerDB.has
  set := BadgerDB.set
  setSync := BadgerDB.setSync
  delete := BadgerDB.delete
  deleteSync := BadgerDB.deleteSync
  iterator := BadgerDB.iterator
  reverseIterator := BadgerDB.reverseIterator
  iter := BadgerIter.ops
  newBatch := ⟨api.new, true⟩
  batch := BadgerBatch.ops api
  stats _ := []

end TmDb
