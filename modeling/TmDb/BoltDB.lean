import TmDb.Batches
import TmDb.LevelIterator

/-! boltdb.go and boltdb_iterator.go. The iterator keeps the key and value its
cursor last returned, and decides from them whether it is still valid. -/

namespace TmDb
open Lib

structure BoltIter where
  itr : Cursor Entry
  start : Slice
  stop : Slice
  currentKey : Slice
  currentValue : Slice
  isInvalid : Bool
  isReverse : Bool

namespace BoltIter

/-- What a method of bbolt's cursor returns from the place it has reached. -/
def answer (itr : Cursor Entry) : Slice × Slice := (itr.current.map Prod.fst, itr.current.map Prod.snd)

/-- newBoltDBIterator. Going backwards it seeks the end and steps back, whatever
the seek has found. -/
def new (itr : Cursor Entry) (start stop : Slice) (isReverse : Bool) : BoltIter :=
  let placed :=
    if isReverse then
      match stop with
      | none => itr.last
      | some stop => (itr.seek fun entry => entry.1 < stop).prev
    else
      match start with
      | none => itr.first
      | some start => itr.seek fun entry => entry.1 < start
  ⟨placed, start, stop, (answer placed).1, (answer placed).2, false, isReverse⟩

def error (_ : BoltIter) : Option Err := none

def isValid (it : BoltIter) : Bool × BoltIter :=
  let invalid := (false, { it with isInvalid := true })
  if it.isInvalid then (false, it)
  else if it.error.isSome then invalid
  else match it.currentKey with
    | none => invalid
    | some currentKey =>
      if it.isReverse then if it.start.isSome ∧ currentKey < it.start.bytes then invalid else (true, it)
      else if it.stop.isSome ∧ it.stop.bytes ≤ currentKey then invalid
      else (true, it)

def assertIsValid (it : BoltIter) : Option Unit × BoltIter :=
  (if it.isValid.1 then some () else none, it.isValid.2)

def next (it : BoltIter) : Option Unit × BoltIter :=
  andThen it.assertIsValid fun _ it =>
    let moved := if it.isReverse then it.itr.prev else it.itr.next
    (some (), { it with itr := moved, currentKey := (answer moved).1, currentValue := (answer moved).2 })

def key (it : BoltIter) : Option Bytes × BoltIter :=
  andThen it.assertIsValid fun _ it => (some it.currentKey.bytes, it)

def value (it : BoltIter) : Option Bytes × BoltIter :=
  andThen it.assertIsValid fun _ it => (some it.currentValue.bytes, it)

def ops : IterOps BoltIter where
  domain it := (it.start, it.stop)
  valid it := (some it.isValid.1, it.isValid.2)
  next := next
  key := key
  value := value
  error := error
  remaining it := (if it.isReverse then it.itr.backward else it.itr.forward).length

end BoltIter

namespace BoltDB

def get (engine : Engine) (key : Slice) : Except Err Slice :=
  match checkKey key with
  | .error err => .error err
  | .ok key => .ok (engine.store.get? key)

def has (engine : Engine) (key : Slice) : Except Err Bool := (get engine key).map Option.isSome

def iteratorWith (reverse : Bool) (engine : Engine) (start stop : Slice) : Option (Except Err BoltIter) :=
  match checkBounds start stop with
  | .error err => some (.error err)
  | .ok _ => some (.ok (BoltIter.new (Store.cursor engine.store) start stop reverse))

end BoltDB

/-- What the calls return. That one may have to wait for the read transaction of an open
iterator is not in it. Stats are the engine's own counters. -/
def boltDB (stats : Engine → List (Bytes × Bytes)) : DB where
  State := Engine
  Batch := MemBatch
  Iter := BoltIter
  get := BoltDB.get
  has := BoltDB.has
  set := BoltDB.set
  setSync := BoltDB.set
  delete := BoltDB.delete
  deleteSync := BoltDB.delete
  iterator := BoltDB.iteratorWith false
  reverseIterator := BoltDB.iteratorWith true
  iter := BoltIter.ops
  newBatch := some []
  batch := boltDBBatch
  stats := stats

end TmDb
