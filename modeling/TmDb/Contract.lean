import TmDb.Lib.Machine
import TmDb.Util

/-! What a DB is for. `plain` is a map that does nothing but what types.go
promises; a backend meets the contract when its states, batches and iterators can
be read as those of the plain map. Refinement is stated between any two
databases, so that a wrapper preserves it whatever it wraps. -/

namespace TmDb
open Lib

/-- A plain iterator is the list of entries still ahead of it. -/
structure Scan where
  start : Slice
  stop : Slice
  items : List Entry
deriving DecidableEq

namespace Scan

def valid (scan : Scan) : Bool := !scan.items.isEmpty

def ops : IterOps Scan where
  domain scan := (scan.start, scan.stop)
  valid scan := (some scan.valid, scan)
  next scan := match scan.items with
    | [] => (none, scan)
    | _ :: rest => (some (), { scan with items := rest })
  key scan := (scan.items.head?.map Prod.fst, scan)
  value scan := (scan.items.head?.map Prod.snd, scan)
  error _ := none
  remaining scan := scan.items.length

end Scan

/-- The operations a batch has accepted, in call order; `none` once it has been
written or closed. -/
abbrev Pending := Option (List (Update Bytes Bytes))

namespace Pending

def set (pending : Pending) (key value : Slice) : Except Err Unit × Pending :=
  match checkPair key value with
  | .error err => (.error err, pending)
  | .ok (key, value) => match pending with
    | none => (.error .batchClosed, pending)
    | some updates => (.ok (), some (updates ++ [.set key value]))

def delete (pending : Pending) (key : Slice) : Except Err Unit × Pending :=
  match checkKey key with
  | .error err => (.error err, pending)
  | .ok key => match pending with
    | none => (.error .batchClosed, pending)
    | some updates => (.ok (), some (updates ++ [.delete key]))

def write (store : Store) (pending : Pending) : Except Err Unit × Store × Pending :=
  match pending with
  | none => (.error .batchClosed, store, pending)
  | some updates => (.ok (), store.applyAll updates, none)

def ops : BatchOps Store Pending where
  set := set
  delete := delete
  write := write
  writeSync := write
  close _ := (.ok (), none)

end Pending

namespace Plain

def get (store : Store) (key : Slice) : Except Err Slice := (checkKey key).map store.get?

def has (store : Store) (key : Slice) : Except Err Bool := (checkKey key).map fun key => (store.get? key).isSome

def set (store : Store) (key value : Slice) : Except Err Unit × Store :=
  match checkPair key value with
  | .error err => (.error err, store)
  | .ok (key, value) => (.ok (), store.insert key value)

def delete (store : Store) (key : Slice) : Except Err Unit × Store :=
  match checkKey key with
  | .error err => (.error err, store)
  | .ok key => (.ok (), store.erase key)

def scan (reverse : Bool) (store : Store) (start stop : Slice) : Option (Except Err Scan) :=
  some ((checkBounds start stop).map fun _ => ⟨start, stop, Store.scan store start stop reverse⟩)

section Accepted
variable (store : Store) {key : Bytes} (nonempty : key ≠ [])
include nonempty

theorem get_some : get store (some key) = .ok (store.get? key) := by
  rw [get, checkKey_some nonempty]
  rfl

theorem has_some : has store (some key) = .ok (store.get? key).isSome := by
  rw [has, checkKey_some nonempty]
  rfl

theorem set_some (value : Bytes) : set store (some key) (some value) = (.ok (), store.insert key value) := by
  rw [set, checkPair_some nonempty]

theorem delete_some : delete store (some key) = (.ok (), store.erase key) := by
  rw [delete, checkKey_some nonempty]

end Accepted
end Plain

/-- The database types.go describes: a finite map, and nothing that can fail. -/
def plain : DB where
  State := Store
  Batch := Pending
  Iter := Scan
  get := Plain.get
  has := Plain.has
  set := Plain.set
  setSync := Plain.set
  delete := Plain.delete
  deleteSync := Plain.delete
  iterator := Plain.scan false
  reverseIterator := Plain.scan true
  iter := Scan.ops
  newBatch := some []
  batch := Pending.ops
  stats _ := []

/-- Reading a database's states through three maps turns each of its methods into
the same method of the specification. Statistics are free. -/
structure Refines (db spec : DB) where
  contents : db.State → spec.State
  pending : db.Batch → spec.Batch
  cursor : db.Iter → spec.Iter
  get : ∀ state key, db.get state key = spec.get (contents state) key
  has : ∀ state key, db.has state key = spec.has (contents state) key
  set : ∀ state key value, (db.set state key value).map id contents = spec.set (contents state) key value
  setSync : ∀ state key value, (db.setSync state key value).map id contents = spec.setSync (contents state) key value
  delete : ∀ state key, (db.delete state key).map id contents = spec.delete (contents state) key
  deleteSync : ∀ state key, (db.deleteSync state key).map id contents = spec.deleteSync (contents state) key
  iterator : ∀ state start stop,
    (db.iterator state start stop).map (Except.map cursor) = spec.iterator (contents state) start stop
  reverseIterator : ∀ state start stop,
    (db.reverseIterator state start stop).map (Except.map cursor) = spec.reverseIterator (contents state) start stop
  domain : ∀ it, db.iter.domain it = spec.iter.domain (cursor it)
  valid : ∀ it, (db.iter.valid it).map id cursor = spec.iter.valid (cursor it)
  next : ∀ it, (db.iter.next it).map id cursor = spec.iter.next (cursor it)
  key : ∀ it, (db.iter.key it).map id cursor = spec.iter.key (cursor it)
  value : ∀ it, (db.iter.value it).map id cursor = spec.iter.value (cursor it)
  error : ∀ it, db.iter.error it = spec.iter.error (cursor it)
  remaining : ∀ it, db.iter.remaining it = spec.iter.remaining (cursor it)
  newBatch : pending db.newBatch = spec.newBatch
  batchSet : ∀ batch key value, (db.batch.set batch key value).map id pending = spec.batch.set (pending batch) key value
  batchDelete : ∀ batch key, (db.batch.delete batch key).map id pending = spec.batch.delete (pending batch) key
  batchWrite : ∀ state batch,
    (db.batch.write state batch).map id (Prod.map contents pending) = spec.batch.write (contents state) (pending batch)
  batchWriteSync : ∀ state batch,
    (db.batch.writeSync state batch).map id (Prod.map contents pending) = spec.batch.writeSync (contents state) (pending batch)
  batchClose : ∀ batch, (db.batch.close batch).map id pending = spec.batch.close (pending batch)

theorem Refines.opener_read {db spec : DB} (refines : Refines db spec) (reverse : Bool) (state : db.State)
    (start stop : Slice) : (opener db reverse state start stop).map (Except.map refines.cursor) =
      opener spec reverse (refines.contents state) start stop := by
  cases reverse with
  | false => exact refines.iterator state start stop
  | true => exact refines.reverseIterator state start stop

abbrev Contract (db : DB) := Refines db plain

inductive Call where
  | get (key : Slice)
  | has (key : Slice)
  | set (key value : Slice)
  | setSync (key value : Slice)
  | delete (key : Slice)
  | deleteSync (key : Slice)
  | newBatch (batch : Nat)
  | batchSet (batch : Nat) (key value : Slice)
  | batchDelete (batch : Nat) (key : Slice)
  | batchWrite (batch : Nat)
  | batchWriteSync (batch : Nat)
  | batchClose (batch : Nat)
deriving DecidableEq

inductive Reply where
  | value (result : Except Err Slice)
  | present (result : Except Err Bool)
  | done (result : Except Err Unit)
  | opened
  /-- The caller named a batch it never made; no method was called. -/
  | noBatch
deriving DecidableEq

/-- One caller of a database: its state, and the batches the caller holds in its
own variables. -/
structure Session (db : DB) where
  state : db.State
  batches : Nat → Option db.Batch

namespace Session
variable {db : DB}

def setState (session : Session db) (result : Except Err Unit × db.State) : Reply × Session db :=
  (.done result.1, { session with state := result.2 })

def setBatch (session : Session db) (name : Nat) (result : Except Err Unit × db.Batch) : Reply × Session db :=
  (.done result.1, { session with batches := Function.update session.batches name (some result.2) })

def setBoth (session : Session db) (name : Nat) (result : Except Err Unit × db.State × db.Batch) :
    Reply × Session db :=
  (.done result.1, ⟨result.2.1, Function.update session.batches name (some result.2.2)⟩)

def withBatch (session : Session db) (name : Nat) (method : db.Batch → Reply × Session db) : Reply × Session db :=
  match session.batches name with
  | none => (.noBatch, session)
  | some batch => method batch

def step (session : Session db) : Call → Reply × Session db
  | .get key => (.value (db.get session.state key), session)
  | .has key => (.present (db.has session.state key), session)
  | .set key value => session.setState (db.set session.state key value)
  | .setSync key value => session.setState (db.setSync session.state key value)
  | .delete key => session.setState (db.delete session.state key)
  | .deleteSync key => session.setState (db.deleteSync session.state key)
  | .newBatch name =>
    (.opened, { session with batches := Function.update session.batches name (some db.newBatch) })
  | .batchSet name key value =>
    session.withBatch name fun batch => session.setBatch name (db.batch.set batch key value)
  | .batchDelete name key =>
    session.withBatch name fun batch => session.setBatch name (db.batch.delete batch key)
  | .batchWrite name =>
    session.withBatch name fun batch => session.setBoth name (db.batch.write session.state batch)
  | .batchWriteSync name =>
    session.withBatch name fun batch => session.setBoth name (db.batch.writeSync session.state batch)
  | .batchClose name =>
    session.withBatch name fun batch => session.setBatch name (db.batch.close batch)

end Session

def session (db : DB) : Machine (Session db) Call Reply := ⟨Session.step⟩

end TmDb
