import TmDb.Lib.Linear
import TmDb.Remote.Server

/-! gRPC runs the handler of every request in a goroutine of its own. Here any number
of them run at the same time on the database that an Init before them has made. A
method of the database is one step, as types.go has it; between two of them another
handler may run. -/

namespace TmDb
open Lib

namespace Serving
variable {registry : Registry}

/-- A handler that makes one call of the database and answers with what it gets. -/
def single : Request registry → Option ((db : DB) → db.State → Status Message × db.State)
  | .get inp => some fun db state => (Handler.get db state inp).map (Option.map (Except.map .entity)) id
  | .has inp => some fun db state => (Handler.has db state inp).map (Option.map (Except.map .entity)) id
  | .set inp => some fun db state => (Handler.set db state inp).map (Option.map (Except.map fun _ => .nothing)) id
  | .setSync inp => some fun db state => (Handler.setSync db state inp).map (Option.map (Except.map fun _ => .nothing)) id
  | .delete inp => some fun db state => (Handler.delete db state inp).map (Option.map (Except.map fun _ => .nothing)) id
  | .deleteSync inp =>
    some fun db state => (Handler.deleteSync db state inp).map (Option.map (Except.map fun _ => .nothing)) id
  | .stats now => some fun db state => (Handler.stats db now state).map (Option.map (Except.map .stats)) id
  | _ => none

/-- BatchWrite and BatchWriteSync. -/
def batch (sync : Bool) (b : Proto.Batch) : Request registry := if sync then .batchWriteSync b else .batchWrite b

/-- Iterator and ReverseIterator. -/
def stream (reverse : Bool) (query : Proto.Entity) (sendFunc : List Proto.Iterator → Option Err) : Request registry :=
  if reverse then .reverseIterator query sendFunc else .iterator query sendFunc

end Serving

/-- Where a handler is. -/
inductive Serving (registry : Registry) (type : String) where
  | idle
  | received (request : Request registry)
  /-- In the loop of batchWrite. -/
  | collecting (sync : Bool) (bat : (registry.db type).Batch) (ops : List Proto.Operation)
  /-- In the loop of handleIterator. -/
  | streaming (sendFunc : List Proto.Iterator → Option Err) (it : (registry.db type).Iter) (sent : List Proto.Iterator)
  | replying (status : Except Err Message)

/-- The server's database and the handlers on it. A panic ends the process. -/
structure Serviced (registry : Registry) (type : String) (ι : Type) where
  state : (registry.db type).State
  crashed : Bool
  handlers : ι → Serving registry type

namespace Serviced
variable {registry : Registry} {type : String} {ι : Type}

def start (state : (registry.db type).State) : Serviced registry type ι := ⟨state, false, fun _ => .idle⟩

variable [DecidableEq ι]

def move (world : Serviced registry type ι) (who : ι) (handler : Serving registry type) : Serviced registry type ι :=
  { world with handlers := Function.update world.handlers who handler }

def crash (world : Serviced registry type ι) : Serviced registry type ι := { world with crashed := true }

/-- What becomes of a handler and the database in one step. -/
inductive Act (state : (registry.db type).State) :
    Serving registry type → Option ((registry.db type).State × Serving registry type) → Prop where
  | serve {request code status} (one : Serving.single request = some code)
      (answer : (code (registry.db type) state).1 = some status) :
      Act state (.received request) (some ((code (registry.db type) state).2, .replying status))
  | newBatch (sync : Bool) (b : Proto.Batch) :
      Act state (.received (Serving.batch sync b)) (some (state, .collecting sync (registry.db type).newBatch b.ops))
  | collect {sync bat op ops next} (taken : Handler.collect (registry.db type).batch bat [op] = (some (.ok ()), next)) :
      Act state (.collecting sync bat (op :: ops)) (some (state, .collecting sync next ops))
  | collectFails {sync bat op ops err next}
      (refused : Handler.collect (registry.db type).batch bat [op] = (some (.error err), next)) :
      Act state (.collecting sync bat (op :: ops)) (some (state, .replying (.error err)))
  | collectPanics {sync bat op ops next} (panicked : Handler.collect (registry.db type).batch bat [op] = (none, next)) :
      Act state (.collecting sync bat (op :: ops)) none
  | write {sync bat written}
      (wrote : written = if sync then (registry.db type).batch.writeSync state bat else (registry.db type).batch.write state bat) :
      Act state (.collecting sync bat []) (some (written.2.1, .replying (written.1.map fun _ => .nothing)))
  | opens {reverse query sendFunc it}
      (made : opener (registry.db type) reverse state query.start query.stop = some (.ok it)) :
      Act state (.received (Serving.stream reverse query sendFunc)) (some (state, .streaming sendFunc it []))
  | openFails {reverse query sendFunc err}
      (refused : opener (registry.db type) reverse state query.start query.stop = some (.error err)) :
      Act state (.received (Serving.stream reverse query sendFunc)) (some (state, .replying (.error err)))
  | openPanics {reverse query sendFunc}
      (panicked : opener (registry.db type) reverse state query.start query.stop = none) :
      Act state (.received (Serving.stream reverse query sendFunc)) none
  | send {sendFunc it out ready after sent moved} (item : Handler.current (registry.db type).iter it = (some (some out), ready))
      (delivered : sendFunc sent = none) (next : (registry.db type).iter.next ready = (some moved, after)) :
      Act state (.streaming sendFunc it sent) (some (state, .streaming sendFunc after (sent ++ [out])))
  | sendFails {sendFunc it out ready sent err} (item : Handler.current (registry.db type).iter it = (some (some out), ready))
      (broken : sendFunc sent = some err) :
      Act state (.streaming sendFunc it sent) (some (state, .replying (.error err)))
  | ends {sendFunc it ready sent} (invalid : Handler.current (registry.db type).iter it = (some none, ready)) :
      Act state (.streaming sendFunc it sent) (some (state, .replying (.ok (.stream sent))))
  | loopPanics {sendFunc it ready sent} (panicked : Handler.current (registry.db type).iter it = (none, ready)) :
      Act state (.streaming sendFunc it sent) none
  | nextPanics {sendFunc it out ready after sent} (item : Handler.current (registry.db type).iter it = (some (some out), ready))
      (delivered : sendFunc sent = none) (panicked : (registry.db type).iter.next ready = (none, after)) :
      Act state (.streaming sendFunc it sent) none

/-- The steps of a server that is up. No Init comes in any more. -/
inductive Step : System (Serviced registry type ι) (Observation ι (Request registry) (Status Message)) where
  | receive {world} (who : ι) (request : Request registry) (up : world.crashed = false) (idle : world.handlers who = .idle)
      (later : ∀ inp dbCreator now, request ≠ .init inp dbCreator now) :
      Step world (some (.call who request)) (world.move who (.received request))
  | act {world} (who : ι) {state handler} (up : world.crashed = false)
      (acts : Act world.state (world.handlers who) (some (state, handler))) :
      Step world none ({ world with state := state }.move who handler)
  | panic {world} (who : ι) (up : world.crashed = false) (panics : Act world.state (world.handlers who) none) :
      Step world none world.crash
  | reply {world} (who : ι) {status} (up : world.crashed = false) (replying : world.handlers who = .replying status) :
      Step world (some (.reply who (some status))) (world.move who .idle)

end Serviced
end TmDb
