import TmDb.Batches
import TmDb.Proofs.MemContract

/-! Every native batch, and a prefix batch over it, is one reference automaton. The
automaton keeps the accepted operations in call order and nothing else; what is
proved about batches is read off it. -/

namespace TmDb.Proofs
open Lib

/-- An engine and the operations one batch has accepted; `none` once it is written
or closed. -/
structure Reference where
  engine : Engine
  pending : Pending
deriving DecidableEq

namespace Reference

def accept (state : Reference) (update : Update Bytes Bytes) : Except Err Unit × Reference :=
  match state.pending with
  | none => (.error .batchClosed, state)
  | some updates => (.ok (), { state with pending := some (updates ++ [update]) })

def commit (state : Reference) : Except Err Unit × Reference :=
  match state.pending with
  | none => (.error .batchClosed, state)
  | some updates => match state.engine.fault with
    | some fault => (.error (.engine fault.detail), { state with engine.faults := state.engine.faults.tail })
    | none => (.ok (), ⟨⟨state.engine.store.applyAll updates, state.engine.faults.tail⟩, none⟩)

def direct (state : Reference) (update : Update Bytes Bytes) : Except Err Unit × Reference :=
  (state.engine.write [update]).map id fun engine => { state with engine := engine }

def step (pfx : Bytes) (state : Reference) : BatchCall → Except Err Unit × Reference
  | .set key value => match checkPair key value with
    | .error err => (.error err, state)
    | .ok (key, value) => state.accept (.set (pfx ++ key) value)
  | .delete key => match checkKey key with
    | .error err => (.error err, state)
    | .ok key => state.accept (.delete (pfx ++ key))
  | .write | .writeSync => state.commit
  | .close => (.ok (), { state with pending := none })
  | .storeSet key value => match checkPair key value with
    | .error err => (.error err, state)
    | .ok (key, value) => state.direct (.set key value)
  | .storeDelete key => match checkKey key with
    | .error err => (.error err, state)
    | .ok key => state.direct (.delete key)

end Reference

/-- The reference automaton of the batches whose keys get a prefix. -/
def reference (pfx : Bytes) : Machine Reference BatchCall (Except Err Unit) := ⟨Reference.step pfx⟩

/-- How a backend's states are read as states of the automaton. -/
structure Reading (db : Writable) where
  engine : db.State → Engine
  pending : db.Batch → Pending
  newBatch : pending db.newBatch = some []
  set : ∀ state key value, (db.set state key value).map id engine = LevelDB.set (engine state) key value
  delete : ∀ state key, (db.delete state key).map id engine = LevelDB.delete (engine state) key
  batchSet : ∀ batch key value, (db.batch.set batch key value).map id pending = Pending.set (pending batch) key value
  batchDelete : ∀ batch key, (db.batch.delete batch key).map id pending = Pending.delete (pending batch) key
  batchWrite : ∀ state batch,
    (db.batch.write state batch).map id (fun after => Reference.mk (engine after.1) (pending after.2)) =
      Reference.commit ⟨engine state, pending batch⟩
  batchWriteSync : ∀ state batch,
    (db.batch.writeSync state batch).map id (fun after => Reference.mk (engine after.1) (pending after.2)) =
      Reference.commit ⟨engine state, pending batch⟩
  batchClose : ∀ batch, (db.batch.close batch).map id pending = (.ok (), none)

/-- Whole runs: the same results, and the same engine at the end. -/
def FollowsReference (db : Writable) (engine : db.State → Engine) : Prop :=
  ∀ state calls,
    (let outcome := (batching db).run (state, db.newBatch) calls
      let expected := (reference []).run ⟨engine state, some []⟩ calls
      outcome.1 = expected.1 ∧ engine outcome.2.1 = expected.2.engine) ∧
    ∀ pfx,
      let outcome := (batching (db.prefixBatched pfx)).run (state, db.newBatch) calls
      let expected := (reference pfx).run ⟨engine state, some []⟩ calls
      outcome.1 = expected.1 ∧ engine outcome.2.1 = expected.2.engine

namespace Reading
variable {db : Writable} (reading : Reading db)

def read (state : db.State × db.Batch) : Reference := ⟨reading.engine state.1, reading.pending state.2⟩

private theorem read_batch (store : db.State) {result : Except Err Unit × db.Batch} {expected : Except Err Unit × Pending}
    (same : result.map id reading.pending = expected) :
    (result.map id fun batch => (store, batch)).map id reading.read =
      expected.map id (Reference.mk (reading.engine store)) := by
  subst same
  rfl

private theorem read_store (batch : db.Batch) {result : Except Err Unit × db.State} {expected : Except Err Unit × Engine}
    (same : result.map id reading.engine = expected) :
    (result.map id fun store => (store, batch)).map id reading.read =
      expected.map id fun engine => ⟨engine, reading.pending batch⟩ := by
  subst same
  rfl

private theorem pending_set (engine : Engine) (pending : Pending) {key : Bytes} (nonempty : key ≠ []) (value : Bytes) :
    (Pending.set pending (some key) (some value)).map id (Reference.mk engine) =
      Reference.accept ⟨engine, pending⟩ (.set key value) := by
  simp only [Pending.set, checkPair_some nonempty]
  cases pending <;> rfl

private theorem pending_delete (engine : Engine) (pending : Pending) {key : Bytes} (nonempty : key ≠ []) :
    (Pending.delete pending (some key)).map id (Reference.mk engine) =
      Reference.accept ⟨engine, pending⟩ (.delete key) := by
  simp only [Pending.delete, checkKey_some nonempty]
  cases pending <;> rfl

/-- Writes, Close and the calls on the store do not see the prefix. -/
private theorem shared_step (pfx : Bytes) (state : db.State × db.Batch) (call : BatchCall)
    (shared : (∀ key value, call ≠ .set key value) ∧ ∀ key, call ≠ .delete key) :
    ((batching db).step state call).map id reading.read = (reference pfx).step (reading.read state) call := by
  cases call with
  | set key value => exact absurd rfl (shared.1 key value)
  | delete key => exact absurd rfl (shared.2 key)
  | write => exact reading.batchWrite state.1 state.2
  | writeSync => exact reading.batchWriteSync state.1 state.2
  | close => exact reading.read_batch state.1 (reading.batchClose state.2)
  | storeSet key value =>
    refine (reading.read_store state.2 (reading.set state.1 key value)).trans ?_
    simp only [reference, Reference.step, LevelDB.set]
    cases checkPair key value <;> rfl
  | storeDelete key =>
    refine (reading.read_store state.2 (reading.delete state.1 key)).trans ?_
    simp only [reference, Reference.step, LevelDB.delete]
    cases checkKey key <;> rfl

theorem native_step (state : db.State × db.Batch) (call : BatchCall) :
    ((batching db).step state call).map id reading.read = (reference []).step (reading.read state) call := by
  cases call with
  | set key value =>
    refine (reading.read_batch state.1 (reading.batchSet state.2 key value)).trans ?_
    simp only [reference, Reference.step, Pending.set]
    cases checkPair key value with
    | error err => rfl
    | ok pair => cases found : reading.pending state.2 <;> simp [read, Reference.accept, found]
  | delete key =>
    refine (reading.read_batch state.1 (reading.batchDelete state.2 key)).trans ?_
    simp only [reference, Reference.step, Pending.delete]
    cases checkKey key with
    | error err => rfl
    | ok key => cases found : reading.pending state.2 <;> simp [read, Reference.accept, found]
  | write | writeSync | close | storeSet _ _ | storeDelete _ => exact reading.shared_step [] state _ (by simp)

theorem prefix_step (pfx : Bytes) (state : db.State × db.Batch) (call : BatchCall) :
    ((batching (db.prefixBatched pfx)).step state call).map id reading.read =
      (reference pfx).step (reading.read state) call := by
  cases call with
  | set key value =>
    rcases checkPair_cases key value with ⟨err, failed⟩ | ⟨nonempty, content, rfl, checked⟩
    · simp only [batching, Writable.prefixBatched, PrefixBatch.ops, PrefixBatch.set, reference, Reference.step, failed]
      rfl
    · have whole : pfx ++ key.bytes ≠ [] := by simp [nonempty]
      simp only [batching, Writable.prefixBatched, PrefixBatch.ops, PrefixBatch.set, reference, Reference.step, checked]
      exact (reading.read_batch state.1 (reading.batchSet state.2 _ _)).trans (pending_set _ _ whole content)
  | delete key =>
    rcases checkKey_cases key with failed | ⟨nonempty, checked⟩
    · simp only [batching, Writable.prefixBatched, PrefixBatch.ops, PrefixBatch.delete, reference, Reference.step, failed]
      rfl
    · have whole : pfx ++ key.bytes ≠ [] := by simp [nonempty]
      simp only [batching, Writable.prefixBatched, PrefixBatch.ops, PrefixBatch.delete, reference, Reference.step, checked]
      exact (reading.read_batch state.1 (reading.batchDelete state.2 _)).trans (pending_delete _ _ whole)
  | write => exact reading.shared_step pfx state .write (by simp)
  | writeSync => exact reading.shared_step pfx state .writeSync (by simp)
  | close => exact reading.shared_step pfx state .close (by simp)
  | storeSet key value => exact reading.shared_step pfx state (.storeSet key value) (by simp)
  | storeDelete key => exact reading.shared_step pfx state (.storeDelete key) (by simp)

theorem follows : FollowsReference db reading.engine := by
  intro state calls
  have initial : (⟨reading.engine state, some []⟩ : Reference) = reading.read (state, db.newBatch) :=
    congrArg (Reference.mk (reading.engine state)) reading.newBatch.symm
  have simulates {machine : Machine (db.State × db.Batch) BatchCall (Except Err Unit)} {pfx : Bytes}
      (step : ∀ state call, (machine.step state call).map id reading.read = (reference pfx).step (reading.read state) call) :
      machine.Simulates (reference pfx) fun state expected => expected = reading.read state := by
    intro state expected call related
    subst related
    exact ⟨congrArg Prod.fst (step state call), (congrArg Prod.snd (step state call)).symm⟩
  refine ⟨?_, fun pfx => ?_⟩
  · obtain ⟨same, last⟩ := (simulates reading.native_step).run initial calls
    exact ⟨same, congrArg Reference.engine last.symm⟩
  · obtain ⟨same, last⟩ := (simulates (reading.prefix_step pfx)).run initial calls
    exact ⟨same, congrArg Reference.engine last.symm⟩

end Reading

private theorem commit_write (engine : Engine) (updates : List (Update Bytes Bytes)) :
    Reference.commit ⟨engine, some updates⟩ =
      match engine.write updates with
      | (.error err, engine) => (.error err, ⟨engine, some updates⟩)
      | (.ok _, engine) => (.ok (), ⟨engine, none⟩) := by
  simp only [Reference.commit, Engine.write]
  cases engine.fault <;> rfl

private theorem closing_commit (engine : Engine) (batch : LevelBatch) :
    (LevelBatch.writeReturningClose engine batch).map id (fun after => Reference.mk after.1 after.2) =
      Reference.commit ⟨engine, batch⟩ := by
  cases batch with
  | none => rfl
  | some puts =>
    rw [commit_write]
    simp only [LevelBatch.writeReturningClose]
    cases engine.write puts with
    | mk result engine => cases result <;> rfl

private theorem dropping_commit (engine : Engine) (batch : LevelBatch) :
    (LevelBatch.writeDroppingClose engine batch).map id (fun after => Reference.mk after.1 after.2) =
      Reference.commit ⟨engine, batch⟩ := by
  cases batch with
  | none => rfl
  | some puts =>
    rw [commit_write]
    simp only [LevelBatch.writeDroppingClose]
    cases engine.write puts with
    | mk result engine => cases result <;> rfl

private theorem level_close (batch : LevelBatch) : LevelBatch.close batch = (.ok (), none) := by
  cases batch <;> rfl

private def levelReading {write writeSync : Engine → LevelBatch → Except Err Unit × Engine × LevelBatch}
    (writes : ∀ engine batch, (write engine batch).map id (fun after => Reference.mk after.1 after.2) =
      Reference.commit ⟨engine, batch⟩)
    (syncs : ∀ engine batch, (writeSync engine batch).map id (fun after => Reference.mk after.1 after.2) =
      Reference.commit ⟨engine, batch⟩) :
    Reading ⟨Engine, LevelBatch, LevelDB.set, LevelDB.delete, some [],
      ⟨LevelBatch.set, LevelBatch.delete, write, writeSync, LevelBatch.close⟩⟩ where
  engine := id
  pending := id
  newBatch := rfl
  set _ _ _ := rfl
  delete _ _ := rfl
  batchSet _ _ _ := rfl
  batchDelete _ _ := rfl
  batchWrite := writes
  batchWriteSync := syncs
  batchClose := level_close

def goLevelDBReading : Reading Writable.goLevelDB := levelReading closing_commit closing_commit

def cLevelDBReading : Reading Writable.cLevelDB := levelReading closing_commit dropping_commit

def rocksDBReading : Reading Writable.rocksDB := levelReading dropping_commit closing_commit

private theorem transact_none (done : Nat) (tx : Store) (ops : List Operation) :
    Engine.transact none done tx ops = .ok (tx.applyAll (ops.map Operation.update)) := by
  rw [← applyAll_operations]
  induction ops generalizing done tx with
  | nil => rfl
  | cons op ops ih => exact ih (done + 1) (MemBatch.applyOp tx op)

/-- Wherever the fault strikes, the closure returns its error. -/
private theorem transact_some (fault : Fault) (done : Nat) (tx : Store) (ops : List Operation) :
    Engine.transact (some fault) done tx ops = .error (.engine fault.detail) := by
  induction ops generalizing done tx with
  | nil => rfl
  | cons op ops ih =>
    simp only [Engine.transact]
    split
    · rfl
    · exact ih (done + 1) (MemBatch.applyOp tx op)

/-- A rolled back transaction is a write that failed as a whole. -/
theorem update_eq_write (engine : Engine) (ops : List Operation) :
    engine.update ops = engine.write (ops.map Operation.update) := by
  unfold Engine.update Engine.write
  cases engine.fault with
  | none => rw [transact_none]
  | some fault => rw [transact_some]

private theorem bolt_commit (engine : Engine) (batch : MemBatch) :
    (boltDBBatch.write engine batch).map id (fun after => Reference.mk after.1 (memContract.pending after.2)) =
      Reference.commit ⟨engine, memContract.pending batch⟩ := by
  cases batch with
  | none => rfl
  | some ops =>
    change _ = Reference.commit ⟨engine, some (ops.map Operation.update)⟩
    rw [commit_write, ← update_eq_write]
    simp only [boltDBBatch]
    cases engine.update ops with
    | mk result engine => cases result <;> rfl

def boltDBReading : Reading Writable.boltDB where
  engine := id
  pending := memContract.pending
  newBatch := rfl
  set engine key value := by
    change (BoltDB.set engine key value).map id id = LevelDB.set engine key value
    unfold BoltDB.set LevelDB.set
    cases checkPair key value with
    | error err => rfl
    | ok pair => exact update_eq_write engine _
  delete engine key := by
    change (BoltDB.delete engine key).map id id = LevelDB.delete engine key
    unfold BoltDB.delete LevelDB.delete
    cases checkKey key with
    | error err => rfl
    | ok key => exact update_eq_write engine _
  batchSet := memContract.batchSet
  batchDelete := memContract.batchDelete
  batchWrite := bolt_commit
  batchWriteSync := bolt_commit
  batchClose _ := rfl

private theorem mem_commit (tree : Store) (batch : MemBatch) :
    (MemBatch.write tree batch).map id (fun after => Reference.mk ⟨after.1, []⟩ (memContract.pending after.2)) =
      Reference.commit ⟨⟨tree, []⟩, memContract.pending batch⟩ := by
  cases batch with
  | none => rfl
  | some ops =>
    simp only [MemBatch.write, applyAll_operations]
    rfl

def memDBReading : Reading Writable.memDB where
  engine tree := ⟨tree, []⟩
  pending := memContract.pending
  newBatch := rfl
  set tree key value := by
    change (MemDB.set tree key value).map id _ = LevelDB.set ⟨tree, []⟩ key value
    unfold MemDB.set LevelDB.set
    cases checkPair key value <;> rfl
  delete tree key := by
    change (MemDB.delete tree key).map id _ = LevelDB.delete ⟨tree, []⟩ key
    unfold MemDB.delete LevelDB.delete
    cases checkKey key <;> rfl
  batchSet := memContract.batchSet
  batchDelete := memContract.batchDelete
  batchWrite := mem_commit
  batchWriteSync := mem_commit
  batchClose _ := rfl

section Automaton
variable (pfx : Bytes) (state : Reference)

theorem set_reply (key value : Slice) :
    ((reference pfx).step state (.set key value)).1 =
      if key.len = 0 then .error .keyEmpty
      else if value = none then .error .valueNil
      else if state.pending = none then .error .batchClosed
      else .ok () := by
  simp only [reference, Reference.step, checkPair]
  by_cases empty : key.len = 0
  · simp [empty]
  · cases value with
    | none => simp [empty]
    | some value => cases found : state.pending <;> simp [empty, Reference.accept, found]

theorem delete_reply (key : Slice) :
    ((reference pfx).step state (.delete key)).1 =
      if key.len = 0 then .error .keyEmpty else if state.pending = none then .error .batchClosed else .ok () := by
  simp only [reference, Reference.step, checkKey]
  by_cases empty : key.len = 0
  · simp [empty]
  · cases found : state.pending <;> simp [empty, Reference.accept, found]

/-- The calls on the batch other than Write and WriteSync. -/
def BatchCall.collects : BatchCall → Bool
  | .set _ _ | .delete _ | .close => true
  | _ => false

/-- The update a call on the batch asks for, if its arguments pass the checks. -/
def BatchCall.accepted (pfx : Bytes) : BatchCall → Option (Update Bytes Bytes)
  | .set key value => (checkPair key value).toOption.map fun pair => .set (pfx ++ pair.1) pair.2
  | .delete key => (checkKey key).toOption.map fun key => .delete (pfx ++ key)
  | _ => none

/-- Everything a call can do. -/
inductive Outcome (pfx : Bytes) (state : Reference) (call : BatchCall) : Except Err Unit × Reference → Prop where
  | refused {err} (unaccepted : BatchCall.accepted pfx call = none ∨ state.pending = none) :
      Outcome pfx state call (.error err, state)
  | collected {updates update} (asked : BatchCall.accepted pfx call = some update)
      (collects : BatchCall.collects call = true) (pending : state.pending = some updates) :
      Outcome pfx state call (.ok (), { state with pending := some (updates ++ [update]) })
  | closed (close : call = .close) : Outcome pfx state call (.ok (), { state with pending := none })
  | failed {fault} (writes : BatchCall.collects call = false) (struck : state.engine.fault = some fault) :
      Outcome pfx state call
        (.error (.engine fault.detail), { state with engine.faults := state.engine.faults.tail })
  | written {updates} (writes : call = .write ∨ call = .writeSync) (pending : state.pending = some updates) :
      Outcome pfx state call (.ok (), ⟨⟨state.engine.store.applyAll updates, state.engine.faults.tail⟩, none⟩)
  | direct {update} (beside : (∃ key value, call = .storeSet key value) ∨ ∃ key, call = .storeDelete key) :
      Outcome pfx state call
        (.ok (), { state with engine := ⟨state.engine.store.apply update, state.engine.faults.tail⟩ })

private theorem accept_outcome {call : BatchCall} {update : Update Bytes Bytes}
    (asked : BatchCall.accepted pfx call = some update) (collects : BatchCall.collects call = true) :
    Outcome pfx state call (state.accept update) := by
  unfold Reference.accept
  split
  next closed => exact .refused (.inr closed)
  next pending => exact .collected asked collects pending

private theorem commit_outcome {call : BatchCall} (writes : call = .write ∨ call = .writeSync) :
    Outcome pfx state call state.commit := by
  have collects : BatchCall.collects call = false := by rcases writes with rfl | rfl <;> rfl
  unfold Reference.commit
  split
  next closed => exact .refused (.inr closed)
  next pending =>
    split
    next struck => exact .failed collects struck
    next => exact .written writes pending

private theorem direct_outcome {call : BatchCall} (update : Update Bytes Bytes)
    (beside : (∃ key value, call = .storeSet key value) ∨ ∃ key, call = .storeDelete key) :
    Outcome pfx state call (state.direct update) := by
  have collects : BatchCall.collects call = false := by rcases beside with ⟨_, _, rfl⟩ | ⟨_, rfl⟩ <;> rfl
  unfold Reference.direct Engine.write
  cases struck : state.engine.fault with
  | some fault => exact .failed collects struck
  | none => exact .direct beside

theorem step_outcome (call : BatchCall) : Outcome pfx state call ((reference pfx).step state call) := by
  cases call with
  | set key value =>
    change Outcome _ _ _ (match checkPair key value with | .error err => _ | .ok (key, value) => _)
    cases checked : checkPair key value with
    | error err => exact .refused (.inl (by simp [BatchCall.accepted, checked, Except.toOption]))
    | ok pair => exact accept_outcome pfx state (by simp [BatchCall.accepted, checked, Except.toOption]) rfl
  | delete key =>
    change Outcome _ _ _ (match checkKey key with | .error err => _ | .ok key => _)
    cases checked : checkKey key with
    | error err => exact .refused (.inl (by simp [BatchCall.accepted, checked, Except.toOption]))
    | ok key => exact accept_outcome pfx state (by simp [BatchCall.accepted, checked, Except.toOption]) rfl
  | write => exact commit_outcome pfx state (.inl rfl)
  | writeSync => exact commit_outcome pfx state (.inr rfl)
  | close => exact .closed rfl
  | storeSet key value =>
    change Outcome _ _ _ (match checkPair key value with | .error err => _ | .ok (key, value) => _)
    cases checkPair key value with
    | error err => exact .refused (.inl rfl)
    | ok pair => exact direct_outcome pfx state _ (.inl ⟨key, value, rfl⟩)
  | storeDelete key =>
    change Outcome _ _ _ (match checkKey key with | .error err => _ | .ok key => _)
    cases checkKey key with
    | error err => exact .refused (.inl rfl)
    | ok found => exact direct_outcome pfx state _ (.inr ⟨key, rfl⟩)

/-- A refused call changes nothing; a failed write has only met its fault. -/
theorem failed_unchanged {call : BatchCall} {err : Err} (failed : ((reference pfx).step state call).1 = .error err) :
    ((reference pfx).step state call).2 = state ∨
      ∃ fault, state.engine.fault = some fault ∧ err = .engine fault.detail ∧
        ((reference pfx).step state call).2 = { state with engine.faults := state.engine.faults.tail } := by
  have outcome := step_outcome pfx state call
  generalize (reference pfx).step state call = after at outcome failed ⊢
  cases outcome with
  | refused => exact .inl rfl
  | failed _ struck =>
    cases failed
    exact .inr ⟨_, struck, rfl, rfl⟩
  | collected | closed | written | direct => cases failed

theorem collecting_invisible {call : BatchCall} (collects : BatchCall.collects call = true) :
    ((reference pfx).step state call).2.engine = state.engine := by
  have outcome := step_outcome pfx state call
  generalize (reference pfx).step state call = after at outcome ⊢
  cases outcome with
  | refused | collected | closed => rfl
  | failed writes => simp [writes] at collects
  | written writes => rcases writes with rfl | rfl <;> cases collects
  | direct beside => rcases beside with ⟨_, _, rfl⟩ | ⟨_, rfl⟩ <;> cases collects

private theorem step_pending (call : BatchCall) :
    ((reference pfx).step state call).2.pending = none ∨
      ∃ updates, state.pending = some updates ∧
        ((reference pfx).step state call).2.pending = some (updates ++ (BatchCall.accepted pfx call).toList) := by
  have outcome := step_outcome pfx state call
  generalize (reference pfx).step state call = after at outcome ⊢
  have unchanged : ∀ after : Reference, after.pending = state.pending → BatchCall.accepted pfx call = none →
      after.pending = none ∨ ∃ updates, state.pending = some updates ∧
        after.pending = some (updates ++ (BatchCall.accepted pfx call).toList) := by
    intro after same unasked
    rw [same, unasked]
    cases state.pending with
    | none => exact .inl rfl
    | some updates => exact .inr ⟨updates, rfl, by simp⟩
  cases outcome with
  | refused unaccepted =>
    rcases unaccepted with unasked | closed
    · exact unchanged _ rfl unasked
    · exact .inl closed
  | collected asked _ pending => exact .inr ⟨_, pending, by simp [asked]⟩
  | closed | written => exact .inl rfl
  | failed writes => exact unchanged _ rfl (by cases call <;> first | rfl | cases writes)
  | direct beside => exact unchanged _ rfl (by rcases beside with ⟨_, _, rfl⟩ | ⟨_, rfl⟩ <;> rfl)

theorem run_pending (calls : List BatchCall) :
    ((reference pfx).run state calls).2.pending = none ∨
      ∃ updates, state.pending = some updates ∧
        ((reference pfx).run state calls).2.pending = some (updates ++ calls.filterMap (BatchCall.accepted pfx)) := by
  induction calls generalizing state with
  | nil =>
    cases found : state.pending with
    | none => exact .inl found
    | some updates => exact .inr ⟨updates, rfl, by simp [found]⟩
  | cons call calls ih =>
    rcases ih ((reference pfx).step state call).2 with closed | ⟨updates, middle, last⟩
    · exact .inl closed
    · rcases step_pending pfx state call with closed | ⟨earlier, first, grown⟩
      · rw [closed] at middle
        cases middle
      · rw [grown] at middle
        cases middle
        refine .inr ⟨earlier, first, ?_⟩
        simp only [Machine.run_cons, last, List.append_assoc, List.filterMap_cons]
        cases BatchCall.accepted pfx call <;> rfl

theorem write_applies (engine : Engine) (calls : List BatchCall) {call : BatchCall}
    (writes : call = .write ∨ call = .writeSync) :
    let final := ((reference pfx).run ⟨engine, some []⟩ calls).2
    let accepted := calls.filterMap (BatchCall.accepted pfx)
    ((reference pfx).step final call).1 = .ok () →
      ((reference pfx).step final call).2.pending = none ∧
      ((reference pfx).step final call).2.engine.store = final.engine.store.applyAll accepted := by
  intro final accepted succeeded
  have outcome := step_outcome pfx final call
  have collected := run_pending pfx ⟨engine, some []⟩ calls
  generalize (reference pfx).step final call = after at outcome succeeded ⊢
  cases outcome with
  | refused | failed => cases succeeded
  | collected asked collects => rcases writes with rfl | rfl <;> cases collects
  | closed close => rcases writes with rfl | rfl <;> cases close
  | direct beside => rcases writes with rfl | rfl <;> simp at beside
  | written _ pending =>
    rcases collected with closed | ⟨updates, first, last⟩
    · rw [pending] at closed
      cases closed
    · cases first
      rw [pending] at last
      cases last
      exact ⟨rfl, rfl⟩

end Automaton

/-- The native batches and the prefix batches over them follow the reference
automaton in every run, whatever writes fail. In the automaton arguments are
checked before the batch; a call that fails leaves the store and the batch as they
were; nothing shows before a write; a write that succeeds applies the accepted
operations in call order, so that each key has its last one, and closes the batch. -/
theorem native_batches_follow_reference :
    (FollowsReference Writable.memDB (fun tree => ⟨tree, []⟩) ∧ FollowsReference Writable.boltDB id ∧
      FollowsReference Writable.goLevelDB id ∧ FollowsReference Writable.cLevelDB id ∧
      FollowsReference Writable.rocksDB id) ∧
    (∀ pfx state,
      (∀ key value, ((reference pfx).step state (.set key value)).1 =
        if key.len = 0 then .error .keyEmpty
        else if value = none then .error .valueNil
        else if state.pending = none then .error .batchClosed
        else .ok ()) ∧
      (∀ key, ((reference pfx).step state (.delete key)).1 =
        if key.len = 0 then .error .keyEmpty else if state.pending = none then .error .batchClosed else .ok ()) ∧
      (∀ call err, ((reference pfx).step state call).1 = .error err →
        ((reference pfx).step state call).2 = state ∨
          ∃ fault, state.engine.fault = some fault ∧ err = .engine fault.detail ∧
            ((reference pfx).step state call).2 = { state with engine.faults := state.engine.faults.tail }) ∧
      ∀ call, BatchCall.collects call = true → ((reference pfx).step state call).2.engine = state.engine) ∧
    ∀ pfx engine calls call, call = .write ∨ call = .writeSync →
      let final := ((reference pfx).run ⟨engine, some []⟩ calls).2
      let accepted := calls.filterMap (BatchCall.accepted pfx)
      let after := (reference pfx).step final call
      after.1 = .ok () →
        after.2.pending = none ∧ after.2.engine.store = final.engine.store.applyAll accepted ∧
        ∀ key, after.2.engine.store.get? key =
          match SortedMap.lastAt accepted key with
          | some update => update.result
          | none => final.engine.store.get? key := by
  refine ⟨⟨memDBReading.follows, boltDBReading.follows, goLevelDBReading.follows, cLevelDBReading.follows,
    rocksDBReading.follows⟩, ?_, ?_⟩
  · intro pfx state
    exact ⟨set_reply pfx state, delete_reply pfx state, fun _ _ => failed_unchanged pfx state,
      fun _ => collecting_invisible pfx state⟩
  · intro pfx engine calls call writes final accepted after succeeded
    obtain ⟨closed, applied⟩ := write_applies pfx engine calls writes succeeded
    refine ⟨closed, applied, fun key => ?_⟩
    rw [applied, SortedMap.get?_applyAll]
    dsimp only [final, accepted]
    cases SortedMap.lastAt (calls.filterMap (BatchCall.accepted pfx)) key <;> rfl

end TmDb.Proofs
