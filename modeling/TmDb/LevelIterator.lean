import TmDb.Lib.Cursor
import TmDb.Contract

/-! goleveldb_iterator.go, cleveldb_iterator.go and rocksdb_iterator.go. The three
wrappers do the same around an engine cursor; they differ in how they recognise a
missing bound and in which methods keep the invalid flag, a method with a value
receiver setting it on a copy. -/

namespace TmDb
open Lib

/-- An engine's cursor before its first positioning. -/
def Store.cursor (store : Store) : Cursor Entry := .beforeStart store.entries

/-- The cursor that goleveldb's NewIterator makes for a util.Range. -/
def Store.rangeCursor (store : Store) (start stop : Slice) : Cursor Entry :=
  Store.cursor (store.filter fun key => isKeyInDomain key start stop)

structure LevelIter where
  source : Cursor Entry
  start : Slice
  stop : Slice
  isReverse : Bool
  isInvalid : Bool

namespace LevelIter

/-- To the last key before the end: seek it, and step back or go to the last key. -/
def seekBefore (source : Cursor Entry) (stop : Bytes) : Cursor Entry :=
  let sought := source.seek fun entry => entry.1 < stop
  match sought.current with
  | some (eoakey, _) => if stop ≤ eoakey then sought.prev else sought
  | none => sought.last

/-- The positioning that the three constructors share. `absent` is how the
constructor tests for a missing bound. -/
def new (absent : Slice → Bool) (source : Cursor Entry) (start stop : Slice) (isReverse : Bool) : LevelIter :=
  let placed :=
    if isReverse then if absent stop then source.last else seekBefore source stop.bytes
    else if absent start then source.first
    else source.seek fun entry => entry.1 < start.bytes
  ⟨placed, start, stop, isReverse, false⟩

/-- Whether a key is on the right side of the bound the iterator moves towards. -/
def inBound (it : LevelIter) (key : Bytes) : Bool :=
  if it.isReverse then
    match it.start with
    | some start => !(key < start)
    | none => true
  else
    match it.stop with
    | some stop => !(stop ≤ key)
    | none => true

/-- Valid, with what it does to the flag. -/
def check (it : LevelIter) : Bool × LevelIter :=
  if it.isInvalid then (false, it)
  else match it.source.current with
    | none => (false, { it with isInvalid := true })
    | some entry => if it.inBound entry.1 then (true, it) else (false, { it with isInvalid := true })

/-- Calls a method that may set the flag, on the iterator itself or on a copy. -/
def called {α : Type} (keeps : Bool) (it : LevelIter) (result : α × LevelIter) : α × LevelIter :=
  (result.1, if keeps then result.2 else it)

def assertIsValid (keeps : Bool) (it : LevelIter) : Option Unit × LevelIter :=
  called keeps it (if it.check.1 then some () else none, it.check.2)

def next (keeps : Bool) (it : LevelIter) : Option Unit × LevelIter :=
  andThen (assertIsValid keeps it) fun _ it =>
    (some (), { it with source := if it.isReverse then it.source.prev else it.source.next })

def key (keeps : Bool) (it : LevelIter) : Option Bytes × LevelIter :=
  andThen (assertIsValid keeps it) fun _ it => (it.source.current.map Prod.fst, it)

def value (keeps : Bool) (it : LevelIter) : Option Bytes × LevelIter :=
  andThen (assertIsValid keeps it) fun _ it => (it.source.current.map Prod.snd, it)

/-- The entries a caller can still reach. -/
def ahead (it : LevelIter) : List Entry :=
  if it.isInvalid then []
  else (if it.isReverse then it.source.backward else it.source.forward).takeWhile fun entry => it.inBound entry.1

/-- The methods, by which of Valid, Key and Value, and Next keep the flag. -/
def ops (valid read next : Bool) : IterOps LevelIter where
  domain it := (it.start, it.stop)
  valid it := called valid it (some it.check.1, it.check.2)
  next := LevelIter.next next
  key := key read
  value := value read
  error _ := none
  remaining it := it.ahead.length

end LevelIter

/-- Valid, Key, Value and Next have pointer receivers, assertIsValid a value receiver. -/
def goLevelDBIterator : IterOps LevelIter := LevelIter.ops true false false

/-- All methods have value receivers. -/
def cLevelDBIterator : IterOps LevelIter := LevelIter.ops false false false

/-- Only Next has a value receiver. -/
def rocksDBIterator : IterOps LevelIter := LevelIter.ops true true false

def newGoLevelDBIterator : Cursor Entry → Slice → Slice → Bool → LevelIter := LevelIter.new Option.isNone

def newCLevelDBIterator : Cursor Entry → Slice → Slice → Bool → LevelIter := LevelIter.new fun bound => bound.len = 0

def newRocksDBIterator : Cursor Entry → Slice → Slice → Bool → LevelIter := LevelIter.new Option.isNone

/-- The calls of a loop over an iterator. The caller may go on after a panic it has
recovered from. -/
inductive IterCall where
  | valid
  | key
  | value
  | next
deriving DecidableEq

inductive IterReply where
  | valid (result : Option Bool)
  | key (result : Option Bytes)
  | value (result : Option Bytes)
  | next (result : Option Unit)
deriving DecidableEq

def iteration {ι : Type} (ops : IterOps ι) : Machine ι IterCall IterReply where
  step it
    | .valid => (ops.valid it).map .valid id
    | .key => (ops.key it).map .key id
    | .value => (ops.value it).map .value id
    | .next => (ops.next it).map .next id

end TmDb
