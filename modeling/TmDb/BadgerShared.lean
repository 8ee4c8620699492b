import TmDb.BadgerDB
import TmDb.Lib.Linear

/-! badgerDBBatch in the hands of any number of goroutines. A method of badger's
WriteBatch is one step, for it takes the lock of the WriteBatch. Between the select on
firstFlush and the Flush or Cancel after it, others may run. -/

namespace TmDb
open Lib

/-- Where a goroutine is in a call on the batch. -/
inductive BatchTask where
  | idle
  /-- In Write, or in the Write of WriteSync, before the select. -/
  | writing (sync : Bool)
  /-- The element has been received; Flush is still to be called. -/
  | flushing (sync : Bool)
  /-- In withSync, after a Write that returned nil. -/
  | syncing
  /-- In Close, before the select. -/
  | closing
  /-- Past the select; Cancel is still to be called. -/
  | cancelling

/-- What WriteSync has left to do after Flush. -/
def BatchTask.afterFlush (sync : Bool) : Except Err Unit → BatchTask
  | .error _ => .idle
  | .ok _ => if sync then .syncing else .idle

/-- The calls that end a WriteBatch, and a Write that returns "batch already flushed". -/
inductive Touch where
  | flush
  | cancel
  | refused
deriving DecidableEq

structure BadgerShared (api : WriteBatch) (ι : Type) where
  engine : Engine
  batch : BadgerBatch api
  tasks : ι → BatchTask

namespace BadgerShared
variable {api : WriteBatch} {ι : Type}

def start (engine : Engine) : BadgerShared api ι := ⟨engine, (badgerDB api).newBatch, fun _ => .idle⟩

variable [DecidableEq ι]

def move (world : BadgerShared api ι) (who : ι) (task : BatchTask) : BadgerShared api ι :=
  { world with tasks := Function.update world.tasks who task }

/-- Both selects have a default, so neither of them waits. -/
inductive Step : System (BadgerShared api ι) Touch where
  | set {world} (who : ι) (key value : Slice) (idle : world.tasks who = .idle) :
      Step world none { world with batch := (BadgerBatch.set api world.batch key value).2 }
  | delete {world} (who : ι) (key : Slice) (idle : world.tasks who = .idle) :
      Step world none { world with batch := (BadgerBatch.delete api world.batch key).2 }
  | write {world} (who : ι) (sync : Bool) (idle : world.tasks who = .idle) : Step world none (world.move who (.writing sync))
  | receive {world who sync} (writing : world.tasks who = .writing sync) (ready : world.batch.firstFlush = true) :
      Step world none ({ world with batch := ⟨world.batch.wb, false⟩ }.move who (.flushing sync))
  | refuse {world who sync} (writing : world.tasks who = .writing sync) (empty : world.batch.firstFlush = false) :
      Step world (some .refused) (world.move who .idle)
  | flush {world who sync result engine wb} (flushing : world.tasks who = .flushing sync)
      (flushed : api.flush world.engine world.batch.wb = (result, engine, wb)) :
      Step world (some .flush)
        ({ world with engine := engine, batch := ⟨wb, world.batch.firstFlush⟩ }.move who (.afterFlush sync result))
  | sync {world who} (syncing : world.tasks who = .syncing) :
      Step world none ({ world with engine := (world.engine.write []).2 }.move who .idle)
  | close {world} (who : ι) (idle : world.tasks who = .idle) : Step world none (world.move who .closing)
  /-- With an element or without one, the channel is empty afterwards. -/
  | drain {world who} (closing : world.tasks who = .closing) :
      Step world none ({ world with batch := ⟨world.batch.wb, false⟩ }.move who .cancelling)
  | cancel {world who} (cancelling : world.tasks who = .cancelling) :
      Step world (some .cancel)
        ({ world with batch := ⟨api.cancel world.batch.wb, world.batch.firstFlush⟩ }.move who .idle)

abbrev Run : BadgerShared api ι → List Touch → BadgerShared api ι → Prop := System.Run Step

end BadgerShared
end TmDb
