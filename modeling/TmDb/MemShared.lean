import TmDb.Lib.Guarded
import TmDb.MemDB
import TmDb.PrefixDB

/-! The methods of memdb.go and memdb_batch.go with their locks, as any number of
goroutines call them, on the MemDB itself or on a PrefixDB over it. A batch belongs to
the goroutine that fills it, so Write comes with the batch as it then is. -/

namespace TmDb
open Lib

/-- A call on a database that many goroutines may use, or Write of one of its batches. -/
inductive DirectCall (db : DB) where
  | get (key : Slice)
  | has (key : Slice)
  | set (key value : Slice)
  | setSync (key value : Slice)
  | delete (key : Slice)
  | deleteSync (key : Slice)
  | write (batch : db.Batch)
  | writeSync (batch : db.Batch)
  | stats

inductive DirectReply (db : DB) where
  | value (result : Except Err Slice)
  | present (result : Except Err Bool)
  | done (result : Except Err Unit)
  /-- What Write returns, and the batch after it. -/
  | written (result : Except Err Unit) (batch : db.Batch)
  | stats (stats : List (Bytes × Bytes))

namespace DirectCall
variable {db : DB}

def written (result : Except Err Unit × db.State × db.Batch) : DirectReply db × db.State :=
  (.written result.1 result.2.2, result.2.1)

/-- The calls one after another. -/
def step (state : db.State) : DirectCall db → DirectReply db × db.State
  | .get key => (.value (db.get state key), state)
  | .has key => (.present (db.has state key), state)
  | .set key value => (db.set state key value).map .done id
  | .setSync key value => (db.setSync state key value).map .done id
  | .delete key => (db.delete state key).map .done id
  | .deleteSync key => (db.deleteSync state key).map .done id
  | .write batch => written (db.batch.write state batch)
  | .writeSync batch => written (db.batch.writeSync state batch)
  | .stats => (.stats (db.stats state), state)

end DirectCall

def direct (db : DB) : Machine db.State (DirectCall db) (DirectReply db) := ⟨DirectCall.step⟩

namespace MemDB

/-- Get and Has: the check comes before the lock. -/
def lookUp (key : Slice) (refusal : Err → DirectReply memDB) (answer : Bytes → Store → DirectReply memDB) :
    Critical Store (DirectReply memDB) :=
  match checkKey key with
  | .error err => .refuse (refusal err)
  | .ok key => .read (answer key)

def storeSet (key value : Slice) : Critical Store (DirectReply memDB) :=
  match checkPair key value with
  | .error err => .refuse (.done (.error err))
  | .ok (key, value) => .write [fun tree => tree.insert key value] (.done (.ok ()))

def storeDelete (key : Slice) : Critical Store (DirectReply memDB) :=
  match checkKey key with
  | .error err => .refuse (.done (.error err))
  | .ok key => .write [fun tree => tree.erase key] (.done (.ok ()))

/-- Write takes the lock once and makes the operations of the batch one by one. -/
def writeBatch (batch : MemBatch) : Critical Store (DirectReply memDB) :=
  match batch with
  | none => .refuse (.written (.error .batchClosed) batch)
  | some ops =>
    .write (ops.map fun op tree => MemBatch.applyOp tree op) (.written (MemBatch.close batch).1 (MemBatch.close batch).2)

/-- What each method does under which lock. -/
def critical : DirectCall memDB → Critical Store (DirectReply memDB)
  | .get key => lookUp key (fun err => .value (.error err)) fun key tree => .value (.ok (tree.get? key))
  | .has key => lookUp key (fun err => .present (.error err)) fun key tree => .present (.ok (tree.get? key).isSome)
  | .set key value | .setSync key value => storeSet key value
  | .delete key | .deleteSync key => storeDelete key
  | .write batch | .writeSync batch => writeBatch batch
  | .stats => .read fun tree => .stats (MemDB.stats tree)

end MemDB

namespace PrefixDB

/-- A PrefixDB has no lock of its own on these paths: it checks, and calls the parent. -/
def withKey (key : Slice) (refusal : Err → DirectReply memDB) (call : Slice → DirectCall memDB) (pfx : Bytes) :
    Critical Store (DirectReply memDB) :=
  match checkKey key with
  | .error err => .refuse (refusal err)
  | .ok _ => MemDB.critical (call (some (prefixed pfx key)))

def withPair (key value : Slice) (call : Slice → Slice → DirectCall memDB) (pfx : Bytes) :
    Critical Store (DirectReply memDB) :=
  match checkPair key value with
  | .error err => .refuse (.done (.error err))
  | .ok (_, value) => MemDB.critical (call (some (prefixed pfx key)) (some value))

def critical (pfx : Bytes) : DirectCall memDB → Critical Store (DirectReply memDB)
  | .get key => withKey key (fun err => .value (.error err)) .get pfx
  | .has key => withKey key (fun err => .present (.error err)) .has pfx
  | .set key value => withPair key value .set pfx
  | .setSync key value => withPair key value .setSync pfx
  | .delete key => withKey key (fun err => .done (.error err)) .delete pfx
  | .deleteSync key => withKey key (fun err => .done (.error err)) .deleteSync pfx
  | .write batch => MemDB.critical (.write batch)
  | .writeSync batch => MemDB.critical (.writeSync batch)
  | .stats => .read fun tree => .stats (stats memDB pfx tree)

end PrefixDB

/-- A call on a MemDB, or on the PrefixDB over it with the given prefix. The batches of
both are those of the MemDB. -/
structure SharedCall where
  pfx : Option Bytes
  call : DirectCall memDB

namespace SharedCall

def critical (shared : SharedCall) : Critical Store (DirectReply memDB) :=
  match shared.pfx with
  | none => MemDB.critical shared.call
  | some pfx => PrefixDB.critical pfx shared.call

/-- The same call, made on the PrefixDB as a database. -/
def onPrefix (pfx : Bytes) : DirectCall memDB → DirectCall (prefixDB memDB pfx)
  | .get key => .get key
  | .has key => .has key
  | .set key value => .set key value
  | .setSync key value => .setSync key value
  | .delete key => .delete key
  | .deleteSync key => .deleteSync key
  | .write batch => .write batch
  | .writeSync batch => .writeSync batch
  | .stats => .stats

def fromPrefix {pfx : Bytes} : DirectReply (prefixDB memDB pfx) → DirectReply memDB
  | .value result => .value result
  | .present result => .present result
  | .done result => .done result
  | .written result batch => .written result batch
  | .stats stats => .stats stats

/-- The calls one after another, on the databases as they are. -/
def step (tree : Store) (shared : SharedCall) : DirectReply memDB × Store :=
  match shared.pfx with
  | none => (direct memDB).step tree shared.call
  | some pfx => ((direct (prefixDB memDB pfx)).step tree (onPrefix pfx shared.call)).map fromPrefix id

end SharedCall

def sharing : Machine Store SharedCall (DirectReply memDB) := ⟨SharedCall.step⟩

end TmDb
