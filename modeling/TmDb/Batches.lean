import TmDb.MemDB
import TmDb.PrefixDB

/-! boltdb_batch.go, goleveldb_batch.go, cleveldb_batch.go and rocksdb_batch.go over
engines whose writes may fail. An engine is its store and a script of the faults
its next writes will meet; a failed write leaves the store as it was. -/

namespace TmDb
open Lib

/-- A write that fails, in a transaction after some of its operations. -/
structure Fault where
  detail : String
  reached : Nat
deriving DecidableEq

/-- One element of the script per write; a write past its end succeeds. -/
structure Engine where
  store : Store
  faults : List (Option Fault)
deriving DecidableEq

namespace Engine

def fault (engine : Engine) : Option Fault := engine.faults.head?.join

/-- Put, Delete and Write of the LevelDB-style engines: all updates or none. -/
def write (engine : Engine) (updates : List (Update Bytes Bytes)) : Except Err Unit × Engine :=
  match engine.fault with
  | some fault => (.error (.engine fault.detail), { engine with faults := engine.faults.tail })
  | none => (.ok (), ⟨engine.store.applyAll updates, engine.faults.tail⟩)

/-- The closure boltDBBatch.Write runs in a transaction: Put and Delete in order, up
to the first error; a fault past the last operation is the commit's. -/
def transact (fault : Option Fault) : Nat → Store → List Operation → Except Err Store
  | done, tx, op :: ops => match fault with
    | some ⟨detail, reached⟩ =>
      if reached = done then .error (.engine detail) else transact fault (done + 1) (MemBatch.applyOp tx op) ops
    | none => transact fault (done + 1) (MemBatch.applyOp tx op) ops
  | _, tx, [] => match fault with
    | some ⟨detail, _⟩ => .error (.engine detail)
    | none => .ok tx

/-- bbolt's Update and Batch: an error of the closure rolls the transaction back. -/
def update (engine : Engine) (ops : List Operation) : Except Err Unit × Engine :=
  match transact engine.fault 0 engine.store ops with
  | .error err => (.error err, { engine with faults := engine.faults.tail })
  | .ok tx => (.ok (), ⟨tx, engine.faults.tail⟩)

end Engine

namespace BoltDB

def set (engine : Engine) (key value : Slice) : Except Err Unit × Engine :=
  match checkPair key value with
  | .error err => (.error err, engine)
  | .ok (key, value) => engine.update [⟨.set, key, some value⟩]

def delete (engine : Engine) (key : Slice) : Except Err Unit × Engine :=
  match checkKey key with
  | .error err => (.error err, engine)
  | .ok key => engine.update [⟨.delete, key, none⟩]

end BoltDB

/-- Set, Delete and Close are those of memDBBatch, over the same operation slice. -/
def boltDBBatch : BatchOps Engine MemBatch :=
  let write (engine : Engine) (batch : MemBatch) : Except Err Unit × Engine × MemBatch :=
    match batch with
    | none => (.error .batchClosed, engine, batch)
    | some ops => match engine.update ops with
      | (.error err, engine) => (.error err, engine, batch)
      | (.ok _, engine) => ((MemBatch.close batch).1, engine, (MemBatch.close batch).2)
  { set := MemBatch.set, delete := MemBatch.delete, write := write, writeSync := write, close := MemBatch.close }

namespace LevelDB

/-- Set of the three LevelDB-style backends. -/
def set (engine : Engine) (key value : Slice) : Except Err Unit × Engine :=
  match checkPair key value with
  | .error err => (.error err, engine)
  | .ok (key, value) => engine.write [.set key value]

def delete (engine : Engine) (key : Slice) : Except Err Unit × Engine :=
  match checkKey key with
  | .error err => (.error err, engine)
  | .ok key => engine.write [.delete key]

end LevelDB

/-- The engine's batch behind a pointer, which is nil once the batch is closed. -/
abbrev LevelBatch := Option (List (Update Bytes Bytes))

namespace LevelBatch

def set (batch : LevelBatch) (key value : Slice) : Except Err Unit × LevelBatch :=
  match checkPair key value with
  | .error err => (.error err, batch)
  | .ok (key, value) => match batch with
    | none => (.error .batchClosed, batch)
    | some puts => (.ok (), some (puts ++ [.set key value]))

def delete (batch : LevelBatch) (key : Slice) : Except Err Unit × LevelBatch :=
  match checkKey key with
  | .error err => (.error err, batch)
  | .ok key => match batch with
    | none => (.error .batchClosed, batch)
    | some puts => (.ok (), some (puts ++ [.delete key]))

def close (batch : LevelBatch) : Except Err Unit × LevelBatch :=
  match batch with
  | none => (.ok (), batch)
  | some _ => (.ok (), none)

/-- The writes that end with `return b.Close()`. -/
def writeReturningClose (engine : Engine) (batch : LevelBatch) : Except Err Unit × Engine × LevelBatch :=
  match batch with
  | none => (.error .batchClosed, engine, batch)
  | some puts => match engine.write puts with
    | (.error err, engine) => (.error err, engine, batch)
    | (.ok _, engine) => ((close batch).1, engine, (close batch).2)

/-- The writes that call Close and return nil. -/
def writeDroppingClose (engine : Engine) (batch : LevelBatch) : Except Err Unit × Engine × LevelBatch :=
  match batch with
  | none => (.error .batchClosed, engine, batch)
  | some puts => match engine.write puts with
    | (.error err, engine) => (.error err, engine, batch)
    | (.ok _, engine) => (.ok (), engine, (close batch).2)

end LevelBatch

def goLevelDBBatch : BatchOps Engine LevelBatch where
  set := LevelBatch.set
  delete := LevelBatch.delete
  write := LevelBatch.writeReturningClose
  writeSync := LevelBatch.writeReturningClose
  close := LevelBatch.close

def cLevelDBBatch : BatchOps Engine LevelBatch where
  set := LevelBatch.set
  delete := LevelBatch.delete
  write := LevelBatch.writeReturningClose
  writeSync := LevelBatch.writeDroppingClose
  close := LevelBatch.close

def rocksDBBatch : BatchOps Engine LevelBatch where
  set := LevelBatch.set
  delete := LevelBatch.delete
  write := LevelBatch.writeDroppingClose
  writeSync := LevelBatch.writeReturningClose
  close := LevelBatch.close

/-- The writing half of a backend. -/
structure Writable where
  State : Type
  Batch : Type
  set : State → Slice → Slice → Except Err Unit × State
  delete : State → Slice → Except Err Unit × State
  newBatch : Batch
  batch : BatchOps State Batch

namespace Writable

def memDB : Writable := ⟨Store, MemBatch, MemDB.set, MemDB.delete, some [], MemBatch.ops⟩

def boltDB : Writable := ⟨Engine, MemBatch, BoltDB.set, BoltDB.delete, some [], boltDBBatch⟩

def goLevelDB : Writable := ⟨Engine, LevelBatch, LevelDB.set, LevelDB.delete, some [], goLevelDBBatch⟩

def cLevelDB : Writable := ⟨Engine, LevelBatch, LevelDB.set, LevelDB.delete, some [], cLevelDBBatch⟩

def rocksDB : Writable := ⟨Engine, LevelBatch, LevelDB.set, LevelDB.delete, some [], rocksDBBatch⟩

/-- The store itself, with a batch of a PrefixDB over it. -/
def prefixBatched (db : Writable) (pfx : Bytes) : Writable := { db with batch := PrefixBatch.ops pfx db.batch }

end Writable

inductive BatchCall where
  | set (key value : Slice)
  | delete (key : Slice)
  | write
  | writeSync
  | close
  /-- Set and Delete on the store, beside the batch. -/
  | storeSet (key value : Slice)
  | storeDelete (key : Slice)
deriving DecidableEq

/-- A store and one batch over it. -/
def batching (db : Writable) : Machine (db.State × db.Batch) BatchCall (Except Err Unit) where
  step state
    | .set key value => (db.batch.set state.2 key value).map id fun batch => (state.1, batch)
    | .delete key => (db.batch.delete state.2 key).map id fun batch => (state.1, batch)
    | .write => db.batch.write state.1 state.2
    | .writeSync => db.batch.writeSync state.1 state.2
    | .close => (db.batch.close state.2).map id fun batch => (state.1, batch)
    | .storeSet key value => (db.set state.1 key value).map id fun store => (store, state.2)
    | .storeDelete key => (db.delete state.1 key).map id fun store => (store, state.2)

end TmDb
