import TmDb.Contract
import TmDb.Remote.Messages

/-! grpcdb/server.go and NewDB of db.go. Handlers run one after another on the
database the server holds. A handler that panics returns no status, and takes the
process down with it. -/

namespace TmDb
open Lib

/-- The `backends` map of db.go: the registered types, and what each one makes. -/
structure Registry where
  types : List String
  db : String → DB

structure Held (registry : Registry) where
  type : String
  state : (registry.db type).State

/-- NewDB. What the creator does depends on the disk, so it comes with the call. -/
def newDB (registry : Registry) (name backend dir : String)
    (dbCreator : String → String → Except Err (registry.db backend).State) : Except Err (Held registry) :=
  if backend ∈ registry.types then
    match dbCreator name dir with
    | .error err => .error (.wrapped "failed to initialize database" err)
    | .ok state => .ok ⟨backend, state⟩
  else .error (.unknownBackend backend registry.types)

/-- What a handler gives back: no status if it panicked. -/
abbrev Status (α : Type) := Option (Except Err α)

namespace Handler
variable (db : DB)

def delete (state : db.State) (inp : Proto.Entity) : Status Unit × db.State :=
  (db.delete state inp.key).map some id

def deleteSync (state : db.State) (inp : Proto.Entity) : Status Unit × db.State :=
  (db.deleteSync state inp.key).map some id

def get (state : db.State) (inp : Proto.Entity) : Status Proto.Entity × db.State :=
  (some ((db.get state inp.key).map fun value => { value := value }), state)

def has (state : db.State) (inp : Proto.Entity) : Status Proto.Entity × db.State :=
  (some ((db.has state inp.key).map fun existing => { existing := existing }), state)

def set (state : db.State) (inp : Proto.Entity) : Status Unit × db.State :=
  (db.set state inp.key inp.value).map some id

def setSync (state : db.State) (inp : Proto.Entity) : Status Unit × db.State :=
  (db.setSync state inp.key inp.value).map some id

def stats (now : Int) (state : db.State) : Status Proto.Stats × db.State :=
  (some (.ok { data := db.stats state, timeAt := now }), state)

/-- The loop over the operations of a batch. An operation of an unnamed type is
passed over; one without an entity is dereferenced all the same. -/
def collect {σ β : Type} (bat : BatchOps σ β) : β → List Proto.Operation → Status Unit × β
  | batch, [] => (some (.ok ()), batch)
  | batch, op :: rest =>
    match op.type, op.entity with
    | .unnamed _, _ => collect bat batch rest
    | .set, none | .delete, none => (none, batch)
    | .set, some entity =>
      match bat.set batch entity.key entity.value with
      | (.error err, batch) => (some (.error err), batch)
      | (.ok _, batch) => collect bat batch rest
    | .delete, some entity =>
      match bat.delete batch entity.key with
      | (.error err, batch) => (some (.error err), batch)
      | (.ok _, batch) => collect bat batch rest

/-- The deferred Close releases the server's own batch and nothing else. -/
def batchWrite (sync : Bool) (state : db.State) (b : Proto.Batch) : Status Unit × db.State :=
  match collect db.batch db.newBatch b.ops with
  | (some (.ok _), bat) =>
    let written := if sync then db.batch.writeSync state bat else db.batch.write state bat
    (some written.1, written.2.1)
  | (status, _) => (status, state)

section Loop
variable {ι : Type} (ops : IterOps ι)

/-- One pass of the loop of handleIterator up to the send: nothing to send when the
iterator is no longer valid. -/
def current (it : ι) : Option (Option Proto.Iterator) × ι :=
  andThen (ops.valid it) fun ok it =>
    if !ok then (some none, it)
    else
      let domain := ops.domain it
      andThen (ops.key it) fun key it =>
      andThen (ops.value it) fun value it =>
      andThen (ops.valid it) fun valid it =>
        (some (some ⟨some ⟨domain.1, domain.2⟩, valid, some key, some value⟩), it)

/-- The loop, with the messages sent so far. `sendFunc` may fail at any of them. -/
def handleIterator (sendFunc : List Proto.Iterator → Option Err) :
    Nat → ι → List Proto.Iterator → Status Unit × List Proto.Iterator
  | 0, _, sent => (none, sent)
  | bound + 1, it, sent =>
    match current ops it with
    | (none, _) => (none, sent)
    | (some none, _) => (some (.ok ()), sent)
    | (some (some out), it) =>
      match sendFunc sent with
      | some err => (some (.error err), sent)
      | none =>
        match ops.next it with
        | (none, _) => (none, sent ++ [out])
        | (some _, it) => handleIterator sendFunc bound it (sent ++ [out])

end Loop

/-- Iterator and ReverseIterator, which differ in the method they call. -/
def iteratorWith (method : db.State → Slice → Slice → Option (Except Err db.Iter))
    (sendFunc : List Proto.Iterator → Option Err) (state : db.State) (query : Proto.Entity) :
    Status Unit × List Proto.Iterator :=
  match method state query.start query.stop with
  | none => (none, [])
  | some (.error err) => (some (.error err), [])
  | some (.ok it) => handleIterator db.iter sendFunc (db.iter.remaining it + 1) it []

end Handler

structure Server (registry : Registry) where
  db : Option (Held registry)

inductive Request (registry : Registry) where
  | init (inp : Proto.Init) (dbCreator : String → String → Except Err (registry.db inp.type).State) (now : Int)
  | get (inp : Proto.Entity)
  | has (inp : Proto.Entity)
  | set (inp : Proto.Entity)
  | setSync (inp : Proto.Entity)
  | delete (inp : Proto.Entity)
  | deleteSync (inp : Proto.Entity)
  | iterator (query : Proto.Entity) (sendFunc : List Proto.Iterator → Option Err)
  | reverseIterator (query : Proto.Entity) (sendFunc : List Proto.Iterator → Option Err)
  | stats (now : Int)
  | batchWrite (b : Proto.Batch)
  | batchWriteSync (b : Proto.Batch)

inductive Message where
  | nothing
  | entity (entity : Proto.Entity)
  | stats (stats : Proto.Stats)
  | stream (sent : List Proto.Iterator)
deriving DecidableEq

namespace Server
variable {registry : Registry}

/-- A handler's code on `s.db`. A method called on a nil interface panics. -/
def onDB {α : Type} (server : Server registry) (code : (db : DB) → db.State → Status α × db.State)
    (message : α → Message) : Status Message × Server registry :=
  match server.db with
  | none => (none, server)
  | some held =>
    let result := code (registry.db held.type) held.state
    (result.1.map (Except.map message), ⟨some ⟨held.type, result.2⟩⟩)

/-- Init assigns the database and the error in one statement. -/
def init (server : Server registry) (inp : Proto.Init)
    (dbCreator : String → String → Except Err (registry.db inp.type).State) (now : Int) :
    Status Message × Server registry :=
  match newDB registry inp.name inp.type inp.dir dbCreator with
  | .error err => (some (.error err), { server with db := none })
  | .ok held => (some (.ok (.entity { createdAt := now })), { server with db := some held })

/-- The answer to a streaming request: the messages it sent, or the error that ended it. -/
def streamed {σ : Type} (state : σ) (result : Status Unit × List Proto.Iterator) : Status (List Proto.Iterator) × σ :=
  (result.1.map (Except.map fun _ => result.2), state)

def handle (server : Server registry) : Request registry → Status Message × Server registry
  | .init inp dbCreator now => server.init inp dbCreator now
  | .get inp => server.onDB (fun db state => Handler.get db state inp) .entity
  | .has inp => server.onDB (fun db state => Handler.has db state inp) .entity
  | .set inp => server.onDB (fun db state => Handler.set db state inp) fun _ => .nothing
  | .setSync inp => server.onDB (fun db state => Handler.setSync db state inp) fun _ => .nothing
  | .delete inp => server.onDB (fun db state => Handler.delete db state inp) fun _ => .nothing
  | .deleteSync inp => server.onDB (fun db state => Handler.deleteSync db state inp) fun _ => .nothing
  | .iterator query sendFunc =>
    server.onDB (fun db state => streamed state (Handler.iteratorWith db db.iterator sendFunc state query)) .stream
  | .reverseIterator query sendFunc =>
    server.onDB (fun db state => streamed state (Handler.iteratorWith db db.reverseIterator sendFunc state query)) .stream
  | .stats now => server.onDB (fun db state => Handler.stats db now state) .stats
  | .batchWrite b => server.onDB (fun db state => Handler.batchWrite db false state b) fun _ => .nothing
  | .batchWriteSync b => server.onDB (fun db state => Handler.batchWrite db true state b) fun _ => .nothing

end Server

/-- The server process: gRPC does not recover a handler's panic. -/
inductive Process (registry : Registry) where
  | running (server : Server registry)
  | crashed

namespace Process
variable {registry : Registry}

def handle : Process registry → Request registry → Status Message × Process registry
  | .crashed, _ => (none, .crashed)
  | .running server, request =>
    match server.handle request with
    | (none, _) => (none, .crashed)
    | (some status, server) => (some status, .running server)

end Process

def serving (registry : Registry) : Machine (Process registry) (Request registry) (Status Message) := ⟨Process.handle⟩

end TmDb
