import TmDb.Contract

/-! prefixdb.go, prefixdb_batch.go and prefixdb_iterator.go: a namespace of any
database, as a database. The wrapper keeps no state of its own; its batches and
iterators are those of the parent. -/

namespace TmDb
open Lib

def prefixed (pfx : Bytes) (key : Slice) : Bytes := cp (some pfx) ++ key.bytes

namespace PrefixBatch
variable {σ β : Type} (pfx : Bytes) (source : BatchOps σ β)

def set (batch : β) (key value : Slice) : Except Err Unit × β :=
  match checkPair key value with
  | .error err => (.error err, batch)
  | .ok (_, value) => source.set batch (some (cp (some pfx) ++ key.bytes)) (some value)

def delete (batch : β) (key : Slice) : Except Err Unit × β :=
  match checkKey key with
  | .error err => (.error err, batch)
  | .ok _ => source.delete batch (some (cp (some pfx) ++ key.bytes))

def ops : BatchOps σ β where
  set := set pfx source
  delete := delete pfx source
  write := source.write
  writeSync := source.writeSync
  close := source.close

end PrefixBatch

structure PrefixIter (ι : Type) where
  pfx : Bytes
  start : Slice
  stop : Slice
  source : ι
  valid : Bool
  err : Option Err
deriving DecidableEq

namespace PrefixIter
variable {ι : Type} (ops : IterOps ι)

/-- Use the result of a call on the source iterator. -/
def onSource {α : Type} (it : PrefixIter ι) (result : Option α × ι) : Option α × PrefixIter ι :=
  (result.1, { it with source := result.2 })

/-- Empty keys are not allowed, so a key equal to the prefix is skipped. -/
def skipExact (it : PrefixIter ι) : Option Unit × PrefixIter ι :=
  andThen (it.onSource (ops.valid it.source)) fun ok it =>
    if !ok then (some (), it)
    else andThen (it.onSource (ops.key it.source)) fun key it =>
      if key = it.pfx then it.onSource (ops.next it.source) else (some (), it)

/-- Whether the source stands on a key of the namespace. -/
def inside (it : PrefixIter ι) : Option Bool × PrefixIter ι :=
  andThen (it.onSource (ops.valid it.source)) fun ok it =>
    if !ok then (some false, it)
    else andThen (it.onSource (ops.key it.source)) fun key it => (some (it.pfx.isPrefixOf key), it)

/-- newPrefixIterator. -/
def new (pfx : Bytes) (start stop : Slice) (source : ι) : Option (PrefixIter ι) :=
  let checked := andThen (skipExact ops ⟨pfx, start, stop, source, true, none⟩) fun _ it => inside ops it
  checked.1.map fun valid => { checked.2 with valid := valid }

def isValid (it : PrefixIter ι) : Option Bool × PrefixIter ι :=
  if !it.valid || it.err.isSome then (some false, it)
  else andThen (it.onSource (ops.valid it.source)) fun ok it =>
    if !ok then (some false, it)
    else andThen (it.onSource (ops.key it.source)) fun key it =>
      if key.length < it.pfx.length ∨ key.take it.pfx.length ≠ it.pfx then
        (some false, { it with err := some (.invalidKey key it.pfx) })
      else (some true, it)

def assertIsValid (it : PrefixIter ι) : Option Unit × PrefixIter ι :=
  andThen (isValid ops it) fun ok it => if ok then (some (), it) else (none, it)

/-- Next calls itself to skip the key equal to the prefix. The bound is only run
out by a source that yields that key again and again. -/
def next : Nat → PrefixIter ι → Option Unit × PrefixIter ι
  | 0, it => (none, it)
  | bound + 1, it =>
    andThen (assertIsValid ops it) fun _ it =>
      andThen (it.onSource (ops.next it.source)) fun _ it =>
        andThen (it.onSource (ops.valid it.source)) fun ok it =>
          if !ok then (some (), { it with valid := false })
          else andThen (it.onSource (ops.key it.source)) fun key it =>
            if !it.pfx.isPrefixOf key then (some (), { it with valid := false })
            else andThen (it.onSource (ops.key it.source)) fun key it =>
              if key = it.pfx then next bound it else (some (), it)

def key (it : PrefixIter ι) : Option Bytes × PrefixIter ι :=
  andThen (assertIsValid ops it) fun _ it =>
    andThen (it.onSource (ops.key it.source)) fun key it => (some (key.drop it.pfx.length), it)

def value (it : PrefixIter ι) : Option Bytes × PrefixIter ι :=
  andThen (assertIsValid ops it) fun _ it => it.onSource (ops.value it.source)

def error (it : PrefixIter ι) : Option Err :=
  match ops.error it.source with
  | some err => some err
  | none => it.err

def iter : IterOps (PrefixIter ι) where
  domain it := (it.start, it.stop)
  valid := isValid ops
  next it := next ops (ops.remaining it.source + 1) it
  key := key ops
  value := value ops
  error := error ops
  remaining it := ops.remaining it.source

end PrefixIter

namespace PrefixDB
variable (db : DB) (pfx : Bytes)

def get (state : db.State) (key : Slice) : Except Err Slice :=
  match checkKey key with
  | .error err => .error err
  | .ok _ => db.get state (some (prefixed pfx key))

def has (state : db.State) (key : Slice) : Except Err Bool :=
  match checkKey key with
  | .error err => .error err
  | .ok _ => db.has state (some (prefixed pfx key))

/-- Set and SetSync differ only in the parent's method. -/
def setWith (method : db.State → Slice → Slice → Except Err Unit × db.State)
    (state : db.State) (key value : Slice) : Except Err Unit × db.State :=
  match checkPair key value with
  | .error err => (.error err, state)
  | .ok (_, value) => method state (some (prefixed pfx key)) (some value)

def deleteWith (method : db.State → Slice → Except Err Unit × db.State)
    (state : db.State) (key : Slice) : Except Err Unit × db.State :=
  match checkKey key with
  | .error err => (.error err, state)
  | .ok _ => method state (some (prefixed pfx key))

/-- Iterator and ReverseIterator differ only in the parent's method. -/
def iteratorWith (method : db.State → Slice → Slice → Option (Except Err db.Iter))
    (state : db.State) (start stop : Slice) : Option (Except Err (PrefixIter db.Iter)) :=
  match checkBounds start stop with
  | .error err => some (.error err)
  | .ok _ =>
    let pstart : Slice := some (cp (some pfx) ++ start.bytes)
    let pend : Option Slice := match stop with
      | none => cpIncr (some pfx)
      | some stop => some (some (cp (some pfx) ++ stop))
    pend.bind fun pend => (method state pstart pend).bind fun made => match made with
      | .error err => some (.error err)
      | .ok source => (PrefixIter.new db.iter pfx start stop source).map .ok

def stats (state : db.State) : List (Bytes × Bytes) :=
  [(goString "prefixdb.prefix.string", pfx), (goString "prefixdb.prefix.hex", goString (hex pfx).toUpper)] ++
    (db.stats state).map fun entry => (goString "prefixdb.source." ++ entry.1, entry.2)

end PrefixDB

def prefixDB (db : DB) (pfx : Bytes) : DB where
  State := db.State
  Batch := db.Batch
  Iter := PrefixIter db.Iter
  get := PrefixDB.get db pfx
  has := PrefixDB.has db pfx
  set := PrefixDB.setWith db pfx db.set
  setSync := PrefixDB.setWith db pfx db.setSync
  delete := PrefixDB.deleteWith db pfx db.delete
  deleteSync := PrefixDB.deleteWith db pfx db.deleteSync
  iterator := PrefixDB.iteratorWith db pfx db.iterator
  reverseIterator := PrefixDB.iteratorWith db pfx db.reverseIterator
  iter := PrefixIter.iter db.iter
  newBatch := db.newBatch
  batch := PrefixBatch.ops pfx db.batch
  stats := PrefixDB.stats db pfx

/-- IteratePrefix, which hands out the iterator of the database itself. -/
def iteratePrefix (db : DB) (state : db.State) (pfx : Slice) : Option (Except Err db.Iter) :=
  if pfx.len = 0 then db.iterator state none none
  else (cpIncr pfx).bind fun stop => db.iterator state (some (cp pfx)) stop

/-- Several PrefixDBs over one parent, each with its own caller and that caller's
batches. A call names the PrefixDB it is made on. -/
structure Family (db : DB) (ι : Type) where
  parent : db.State
  batches : ι → Nat → Option db.Batch

namespace Family
variable {db : DB} {ι : Type} [DecidableEq ι]

def session (family : Family db ι) (pfx : ι → Bytes) (owner : ι) : Session (prefixDB db (pfx owner)) :=
  ⟨family.parent, family.batches owner⟩

def put (family : Family db ι) (pfx : ι → Bytes) (owner : ι) (after : Session (prefixDB db (pfx owner))) :
    Family db ι :=
  ⟨after.state, Function.update family.batches owner after.batches⟩

theorem put_own (family : Family db ι) {pfx : ι → Bytes} {owner : ι} (after : Session (prefixDB db (pfx owner))) :
    (family.put pfx owner after).batches owner = after.batches := Function.update_self owner _ _

theorem put_other (family : Family db ι) {pfx : ι → Bytes} {owner other : ι}
    (after : Session (prefixDB db (pfx owner))) (different : other ≠ owner) :
    (family.put pfx owner after).batches other = family.batches other := Function.update_of_ne different _ _

def step (pfx : ι → Bytes) (family : Family db ι) (call : ι × Call) : Reply × Family db ι :=
  ((family.session pfx call.1).step call.2).map id (family.put pfx call.1)

end Family

def family (db : DB) {ι : Type} [DecidableEq ι] (pfx : ι → Bytes) : Machine (Family db ι) (ι × Call) Reply :=
  ⟨Family.step pfx⟩

end TmDb
