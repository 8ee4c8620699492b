import TmDb.Backends

/-! What the backends over a storage engine have in common: the plain map, but for
writes that the engine fails. Such a write returns the engine's error and changes
nothing. PrefixDBs may be stacked on any of them. -/

namespace TmDb
open Lib

namespace Unreliable

/-- A write that the plain map would do as `expected`, if the engine lets it. -/
def attempt (engine : Engine) (expected : Except Err Unit × Store) : Except Err Unit × Engine :=
  match expected with
  | (.error err, _) => (.error err, engine)
  | (.ok _, store) => match engine.fault with
    | some fault => (.error (.engine fault.detail), { engine with faults := engine.faults.tail })
    | none => (.ok (), ⟨store, engine.faults.tail⟩)

def set (engine : Engine) (key value : Slice) : Except Err Unit × Engine :=
  attempt engine (Plain.set engine.store key value)

def delete (engine : Engine) (key : Slice) : Except Err Unit × Engine :=
  attempt engine (Plain.delete engine.store key)

/-- A batch whose write fails is still to be written. -/
def write (engine : Engine) (pending : Pending) : Except Err Unit × Engine × Pending :=
  let expected := Pending.write engine.store pending
  let attempted := attempt engine (expected.1, expected.2.1)
  match attempted.1 with
  | .error err => (.error err, attempted.2, pending)
  | .ok _ => (.ok (), attempted.2, expected.2.2)

end Unreliable

def unreliable : DB where
  State := Engine
  Batch := Pending
  Iter := Scan
  get engine := Plain.get engine.store
  has engine := Plain.has engine.store
  set := Unreliable.set
  setSync := Unreliable.set
  delete := Unreliable.delete
  deleteSync := Unreliable.delete
  iterator engine := Plain.scan false engine.store
  reverseIterator engine := Plain.scan true engine.store
  iter := Scan.ops
  newBatch := some []
  batch := { Pending.ops with write := Unreliable.write, writeSync := Unreliable.write }
  stats _ := []

/-- PrefixDBs one over another, the outermost first. -/
def nested (db : DB) : List Bytes → DB
  | [] => db
  | pfx :: rest => prefixDB (nested db rest) pfx

/-- None of them has a state of its own. -/
def nested.holding (db : DB) : (pfxs : List Bytes) → db.State → (nested db pfxs).State
  | [], state => state
  | _ :: rest, state => nested.holding db rest state

/-- The backend with an engine under it; MemDB has only the contents. -/
def Backend.holding (engines : Engines) : (backend : Backend) → Engine → (backend.db engines).State
  | .goLevelDB, engine => engine
  | .cLevelDB, engine => engine
  | .memDB, engine => engine.store
  | .boltDB, engine => engine
  | .rocksDB, engine => engine
  | .badgerDB, engine => engine

end TmDb
