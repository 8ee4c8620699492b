import TmDb.Proofs.RemotePoint

/-! Batches through a RemoteDB. The client checks nothing but that the batch is
open, and the server replays the whole list into a batch of its own when it is
written; one lemma says what such a replay collects, for any backend. -/

namespace TmDb.Proofs
open Lib

def Operation.update? (op : Proto.Operation) : Option (Update Bytes Bytes) :=
  match op.type, op.entity with
  | .set, some entity => (checkPair entity.key entity.value).toOption.map fun pair => .set pair.1 pair.2
  | .delete, some entity => (checkKey entity.key).toOption.map .delete
  | _, _ => none

inductive Sent : Proto.Operation → Prop where
  | set (key value : Slice) : Sent ⟨some { key := key, value := value }, .set⟩
  | delete (key : Slice) : Sent ⟨some { key := key }, .delete⟩

inductive Complete : Proto.Operation → Prop where
  | set (entity : Proto.Entity) : Complete ⟨some entity, .set⟩
  | delete (entity : Proto.Entity) : Complete ⟨some entity, .delete⟩

theorem Sent.complete {op : Proto.Operation} (sent : Sent op) : Complete op := by
  cases sent with
  | set key value => exact .set _
  | delete key => exact .delete _

section Collect
variable {db : DB} (contract : Contract db)

theorem collect_read (batch : db.Batch) (ops : List Proto.Operation) :
    (Handler.collect db.batch batch ops).map id contract.pending =
      Handler.collect Pending.ops (contract.pending batch) ops := by
  induction ops generalizing batch with
  | nil => rfl
  | cons op rest ih =>
    obtain ⟨entity, type⟩ := op
    cases type with
    | unnamed number => exact ih batch
    | set =>
      cases entity with
      | none => rfl
      | some entity =>
        have same := contract.batchSet batch entity.key entity.value
        change _ = Pending.ops.set _ _ _ at same
        simp only [Handler.collect, ← same]
        rcases db.batch.set batch entity.key entity.value with ⟨_ | _, after⟩
        · rfl
        · exact ih after
    | delete =>
      cases entity with
      | none => rfl
      | some entity =>
        have same := contract.batchDelete batch entity.key
        change _ = Pending.ops.delete _ _ at same
        simp only [Handler.collect, ← same]
        rcases db.batch.delete batch entity.key with ⟨_ | _, after⟩
        · rfl
        · exact ih after

theorem collect_set {σ β : Type} (bat : BatchOps σ β) (batch : β) (key value : Slice) :
    Handler.collect bat batch [⟨some { key := key, value := value }, .set⟩] = (bat.set batch key value).map some id := by
  simp only [Handler.collect]
  rcases bat.set batch key value with ⟨_ | _, after⟩ <;> rfl

theorem collect_delete {σ β : Type} (bat : BatchOps σ β) (batch : β) (key : Slice) :
    Handler.collect bat batch [⟨some { key := key }, .delete⟩] = (bat.delete batch key).map some id := by
  simp only [Handler.collect]
  rcases bat.delete batch key with ⟨_ | _, after⟩ <;> rfl

theorem collect_one (updates : List (Update Bytes Bytes)) {op : Proto.Operation} (complete : Complete op)
    (rest : List Proto.Operation) :
    match Operation.update? op with
    | none => ∃ err, Handler.collect Pending.ops (some updates) (op :: rest) = (some (.error err), some updates)
    | some update => Handler.collect Pending.ops (some updates) (op :: rest) =
        Handler.collect Pending.ops (some (updates ++ [update])) rest := by
  cases complete with
  | set entity =>
    simp only [Operation.update?, Handler.collect, Pending.ops, Pending.set]
    cases checkPair entity.key entity.value with
    | error err => exact ⟨err, rfl⟩
    | ok pair => rfl
  | delete entity =>
    simp only [Operation.update?, Handler.collect, Pending.ops, Pending.delete]
    cases checkKey entity.key with
    | error err => exact ⟨err, rfl⟩
    | ok key => rfl

/-- Whether the loop over a batch gets past an operation. -/
def Operation.passed (op : Proto.Operation) : Bool :=
  match op.type with
  | .unnamed _ => true
  | _ => (Operation.update? op).isSome

/-- The first operation that the loop over a batch does not get past. -/
def stuckAt (ops : List Proto.Operation) : Option Proto.Operation := ops.find? fun op => !Operation.passed op

theorem stuckAt_cons (op : Proto.Operation) (rest : List Proto.Operation) :
    stuckAt (op :: rest) = if Operation.passed op then stuckAt rest else some op := by
  cases passed : Operation.passed op <;> simp [stuckAt, passed]

/-- The loop, over any list: it gathers what it got past, or ends at the first
operation that it does not. -/
theorem collect_outcome (updates : List (Update Bytes Bytes)) (ops : List Proto.Operation) :
    match stuckAt ops with
    | none => Handler.collect Pending.ops (some updates) ops =
        (some (.ok ()), some (updates ++ ops.filterMap Operation.update?))
    | some ⟨none, _⟩ => (Handler.collect Pending.ops (some updates) ops).1 = none
    | some ⟨some _, _⟩ => ∃ err batch, Handler.collect Pending.ops (some updates) ops = (some (.error err), batch) := by
  induction ops generalizing updates with
  | nil => simp [stuckAt, Handler.collect]
  | cons op rest ih =>
    have named : ∀ {op : Proto.Operation}, Complete op → Operation.passed op = (Operation.update? op).isSome := by
      intro op complete
      cases complete <;> rfl
    obtain ⟨_ | entity, type⟩ := op
    · cases type with
      | unnamed number => exact ih updates
      | set | delete => exact rfl
    · have complete : type = .set ∨ type = .delete → Complete ⟨some entity, type⟩ := by
        intro known
        rcases known with rfl | rfl
        · exact .set entity
        · exact .delete entity
      cases type with
      | unnamed number => exact ih updates
      | set | delete =>
        have whole := complete (by simp)
        have one := collect_one updates whole rest
        rw [stuckAt_cons, named whole]
        cases made : Operation.update? _ with
        | none =>
          rw [made] at one
          obtain ⟨err, refused⟩ := one
          exact ⟨err, _, refused⟩
        | some update =>
          rw [made] at one
          have later := ih (updates ++ [update])
          simp only [Option.isSome_some, if_true, one, List.filterMap_cons_some made]
          simpa only [List.append_assoc, List.singleton_append] using later

end Collect

def commit (db : DB) (sync : Bool) (state : db.State) (batch : db.Batch) : Except Err Unit × db.State × db.Batch :=
  if sync then db.batch.writeSync state batch else db.batch.write state batch

theorem commit_read {db : DB} (contract : Contract db) (sync : Bool) (state : db.State) (batch : db.Batch) :
    (commit db sync state batch).map id (Prod.map contract.contents contract.pending) =
      Pending.write (contract.contents state) (contract.pending batch) := by
  cases sync with
  | false => exact contract.batchWrite state batch
  | true => exact contract.batchWriteSync state batch

inductive BatchUse where
  | set (key value : Slice)
  | delete (key : Slice)
  | write (sync : Bool)
  | close

namespace BatchUse

def step (db : DB) (held : db.State × db.Batch) : BatchUse → Except Err Unit × db.State × db.Batch
  | set key value => (db.batch.set held.2 key value).map id (Prod.mk held.1)
  | delete key => (db.batch.delete held.2 key).map id (Prod.mk held.1)
  | write sync => commit db sync held.1 held.2
  | close => (db.batch.close held.2).map id (Prod.mk held.1)

/-- What an open batch must be spared: an argument that only the server would refuse,
and a write with an empty value among what was accepted. -/
def Deliverable (pending : Pending) : BatchUse → Prop
  | set key value => pending ≠ none → key.len ≠ 0 ∧ value ≠ none
  | delete key => pending ≠ none → key.len ≠ 0
  | write _ => ∀ updates, pending = some updates → ∀ key, Update.set key [] ∉ updates
  | close => True

end BatchUse

def batchUses (db : DB) : Machine (db.State × db.Batch) BatchUse (Except Err Unit) := ⟨BatchUse.step db⟩

theorem Sent.wire {op : Proto.Operation} (sent : Sent op) : Sent op.wire := by
  cases sent with
  | set key value => exact .set key.wire value.wire
  | delete key => exact .delete key.wire

theorem update?_set (key value : Slice) :
    Operation.update? ⟨some { key := key, value := value }, .set⟩ ≠ none ↔ key.len ≠ 0 ∧ value ≠ none := by
  simp only [Operation.update?, checkPair]
  split
  next empty => simp [Except.toOption, empty]
  next nonempty => cases value <;> simp [Except.toOption, nonempty]

theorem update?_delete (key : Slice) :
    Operation.update? ⟨some { key := key }, .delete⟩ ≠ none ↔ key.len ≠ 0 := by
  simp only [Operation.update?, checkKey]
  split
  next empty => simp [Except.toOption, empty]
  next nonempty => simp [Except.toOption, nonempty]

theorem update?_key {entity : Proto.Entity} {type : Proto.OperationType} {update : Update Bytes Bytes}
    (made : Operation.update? ⟨some entity, type⟩ = some update) : update.key = entity.key.bytes := by
  cases type with
  | unnamed number => cases made
  | set =>
    rcases checkPair_cases entity.key entity.value with ⟨err, refused⟩ | ⟨_, content, _, checked⟩
    · simp [Operation.update?, refused, Except.toOption] at made
    · simp only [Operation.update?, checked, Except.toOption, Option.map_some, Option.some.injEq] at made
      exact made ▸ rfl
  | delete =>
    rcases checkKey_cases entity.key with refused | ⟨_, checked⟩
    · simp [Operation.update?, refused, Except.toOption] at made
    · simp only [Operation.update?, checked, Except.toOption, Option.map_some, Option.some.injEq] at made
      exact made ▸ rfl

/-- An accepted operation crosses the wire as it is, unless it sets an empty value:
then it is refused on the other side. -/
theorem wire_accepted {op : Proto.Operation} {update : Update Bytes Bytes} (sent : Sent op)
    (accepted : Operation.update? op = some update) :
    ((∀ key, update ≠ .set key []) → op.wire = op) ∧ ∀ key, update = .set key [] → Operation.update? op.wire = none := by
  cases sent with
  | set key value =>
    rcases checkPair_cases key value with ⟨err, refused⟩ | ⟨nonempty, content, rfl, checked⟩
    · simp [Operation.update?, refused, Except.toOption] at accepted
    · simp only [Operation.update?, checked, Except.toOption, Option.map_some, Option.some.injEq] at accepted
      subst accepted
      constructor
      · intro filled
        have kept : Slice.wire (some content) = some content :=
          Slice.wire_some fun empty => filled key.bytes (by rw [empty])
        simp only [Proto.Operation.wire, Option.map_some, Proto.Entity.wire, Slice.wire_of_bytes nonempty, kept, Slice.wire_none]
      · intro other same
        cases same
        by_contra taken
        exact ((update?_set _ _).mp taken).2 rfl
  | delete key =>
    rcases checkKey_cases key with refused | ⟨nonempty, checked⟩
    · simp [Operation.update?, refused, Except.toOption] at accepted
    · simp only [Operation.update?, checked, Except.toOption, Option.map_some, Option.some.injEq] at accepted
      subst accepted
      refine ⟨fun _ => ?_, fun _ same => by cases same⟩
      simp only [Proto.Operation.wire, Option.map_some, Proto.Entity.wire, Slice.wire_of_bytes nonempty, Slice.wire_none]

theorem batchWrite_cases {db : DB} (contract : Contract db) (sync : Bool) (state : db.State) (ops : List Proto.Operation) :
    match stuckAt ops with
    | none => (Handler.batchWrite db sync state ⟨ops⟩).1 = some (.ok ()) ∧
        contract.contents (Handler.batchWrite db sync state ⟨ops⟩).2 =
          (contract.contents state).applyAll (ops.filterMap Operation.update?)
    | some ⟨none, _⟩ => (Handler.batchWrite db sync state ⟨ops⟩).1 = none
    | some ⟨some _, _⟩ => ∃ err, Handler.batchWrite db sync state ⟨ops⟩ = (some (.error err), state) := by
  have read := collect_read contract db.newBatch ops
  rw [contract.newBatch] at read
  change _ = Handler.collect Pending.ops (some []) ops at read
  have outcome := collect_outcome [] ops
  rw [← read] at outcome
  rcases made : Handler.collect db.batch db.newBatch ops with ⟨status, batch⟩
  rw [made] at outcome
  cases stuck : stuckAt ops with
  | none =>
    rw [stuck] at outcome
    obtain ⟨rfl, gathered⟩ := Prod.mk.inj outcome
    have written := commit_read contract sync state batch
    rw [gathered] at written
    have handled : Handler.batchWrite db sync state ⟨ops⟩ =
        (some (commit db sync state batch).1, (commit db sync state batch).2.1) := by
      simp only [Handler.batchWrite, made]
      rfl
    rw [handled]
    exact ⟨congrArg some (congrArg Prod.fst written), congrArg (fun result => result.2.1) written⟩
  | some op =>
    rw [stuck] at outcome
    obtain ⟨_ | entity, type⟩ := op
    · obtain rfl : status = none := outcome
      simp only [Handler.batchWrite, made]
    · obtain ⟨err, after, failed⟩ := outcome
      obtain ⟨rfl, _⟩ := Prod.mk.inj failed
      exact ⟨err, by simp only [Handler.batchWrite, made]⟩

theorem batchWrite_outcome {db : DB} (contract : Contract db) (sync : Bool) (state : db.State)
    {ops : List Proto.Operation} (sent : ∀ op ∈ ops, Sent op) :
    ((∀ op ∈ ops, Operation.update? op ≠ none) ∧ (Handler.batchWrite db sync state ⟨ops⟩).1 = some (.ok ()) ∧
      contract.contents (Handler.batchWrite db sync state ⟨ops⟩).2 =
        (contract.contents state).applyAll (ops.filterMap Operation.update?)) ∨
    (∃ op ∈ ops, Operation.update? op = none) ∧ ∃ err, Handler.batchWrite db sync state ⟨ops⟩ = (some (.error err), state) := by
  have named : ∀ op ∈ ops, Operation.passed op = (Operation.update? op).isSome := by
    intro op member
    cases sent op member <;> rfl
  have outcome := batchWrite_cases contract sync state ops
  cases stuck : stuckAt ops with
  | none =>
    rw [stuck] at outcome
    refine .inl ⟨fun op member none => ?_, outcome⟩
    have passed := List.find?_eq_none.mp stuck op member
    simp [named op member, none] at passed
  | some op =>
    rw [stuck] at outcome
    have member := List.mem_of_find?_eq_some stuck
    have refused := List.find?_some stuck
    refine .inr ⟨⟨op, member, by simpa [named op member] using refused⟩, ?_⟩
    cases sent op member with
    | set key value => exact outcome
    | delete key => exact outcome

variable {registry : Registry} {type : String}

theorem commit_holding (sync : Bool) (state : (registry.db type).State) {ops : List Proto.Operation}
    {result : Except Err Unit} {after : (registry.db type).State}
    (handled : Handler.batchWrite (registry.db type) sync state (Proto.Batch.wire ⟨ops⟩) = (some result, after)) :
    Alike (commit (remoteDB registry) sync (holding type state) (some ops)).1 result ∧
      (commit (remoteDB registry) sync (holding type state) (some ops)).2 =
        (holding type after, if result.toOption = none then some ops else none) := by
  cases sync with
  | false =>
    simp only [commit, remoteDB, RemoteBatch.ops, RemoteBatch.write, RemoteBatch.writeWith, unary, Process.handle,
      Server.handle, Server.onDB, handled]
    cases result <;> exact ⟨rfl, rfl⟩
  | true =>
    simp only [commit, remoteDB, RemoteBatch.ops, RemoteBatch.writeSync, RemoteBatch.writeWith, unary, Process.handle,
      Server.handle, Server.onDB, handled]
    cases result <;> exact ⟨rfl, rfl⟩

section Backend
variable (contract : Contract (registry.db type))

/-- The list of an open remote batch, and the backend's own batch after the same calls. -/
structure Gathered (ops : List Proto.Operation) (batch : (registry.db type).Batch) : Prop where
  sent : ∀ op ∈ ops, Sent op
  taken : ∀ op ∈ ops, Operation.update? op ≠ none
  pending : contract.pending batch = some (ops.filterMap Operation.update?)

variable {contract}

theorem Gathered.append {ops : List Proto.Operation} {batch after : (registry.db type).Batch}
    (gathered : Gathered contract ops batch) {op : Proto.Operation} (sent : Sent op) {result : Except Err Unit}
    (made : Handler.collect (registry.db type).batch batch [op] = (some result, after)) :
    (Alike (.ok ()) result ↔ Operation.update? op ≠ none) ∧
      (Operation.update? op ≠ none → Gathered contract (ops ++ [op]) after) := by
  have read := collect_read contract batch [op]
  rw [made, gathered.pending] at read
  have one := collect_one (ops.filterMap Operation.update?) sent.complete []
  cases found : Operation.update? op with
  | none =>
    rw [found] at one
    obtain ⟨err, failed⟩ := one
    obtain rfl : result = .error err := Option.some.inj (congrArg Prod.fst (read.trans failed))
    exact ⟨by simp [Alike, Except.toOption], fun absurd => (absurd rfl).elim⟩
  | some update =>
    rw [found] at one
    obtain rfl : result = .ok () := Option.some.inj (congrArg Prod.fst (read.trans one))
    refine ⟨by simp [Alike], fun _ => ⟨?_, ?_, ?_⟩⟩
    · exact List.forall_mem_append.mpr ⟨gathered.sent, by simpa using sent⟩
    · exact List.forall_mem_append.mpr ⟨gathered.taken, by simp [found]⟩
    · rw [List.filterMap_append, List.filterMap_cons_some found]
      exact congrArg Prod.snd (read.trans one)

theorem Gathered.wire {ops : List Proto.Operation} {batch : (registry.db type).Batch} (gathered : Gathered contract ops batch) :
    ((∀ key, Update.set key [] ∉ ops.filterMap Operation.update?) → ops.map Proto.Operation.wire = ops) ∧
      ∀ key, Update.set key [] ∈ ops.filterMap Operation.update? →
        ∃ op ∈ ops.map Proto.Operation.wire, Operation.update? op = none := by
  constructor
  · intro filled
    refine (List.map_congr_left fun op member => ?_).trans (List.map_id ops)
    obtain ⟨update, accepted⟩ := Option.ne_none_iff_exists'.mp (gathered.taken op member)
    apply (wire_accepted (gathered.sent op member) accepted).1
    rintro key rfl
    exact filled key (List.mem_filterMap.mpr ⟨op, member, accepted⟩)
  · intro key member
    obtain ⟨op, present, accepted⟩ := List.mem_filterMap.mp member
    exact ⟨op.wire, List.mem_map_of_mem present, (wire_accepted (gathered.sent op present) accepted).2 key rfl⟩

variable (contract)

structure InStep (remote : Process registry × RemoteBatch)
    (direct : (registry.db type).State × (registry.db type).Batch) : Prop where
  process : ∃ state, remote.1 = holding type state ∧ contract.contents state = contract.contents direct.1
  batch : match remote.2 with
    | none => contract.pending direct.2 = none
    | some ops => Gathered contract ops direct.2

private theorem closed_set (key value : Slice) : ∃ err, Pending.set none key value = (.error err, none) := by
  unfold Pending.set
  cases checkPair key value with
  | error err => exact ⟨err, rfl⟩
  | ok _ => exact ⟨.batchClosed, rfl⟩

private theorem closed_delete (key : Slice) : ∃ err, Pending.delete none key = (.error err, none) := by
  unfold Pending.delete
  cases checkKey key with
  | error err => exact ⟨err, rfl⟩
  | ok _ => exact ⟨.batchClosed, rfl⟩

section Step
variable {state : (registry.db type).State} {direct : (registry.db type).State × (registry.db type).Batch}
variable (same : contract.contents state = contract.contents direct.1)
include same

private theorem closed_step (closed : contract.pending direct.2 = none) (call : BatchUse) :
    Alike (call.step (remoteDB registry) (holding type state, none)).1 (call.step (registry.db type) direct).1 ∧
      InStep contract (call.step (remoteDB registry) (holding type state, none)).2
        (call.step (registry.db type) direct).2 := by
  cases call with
  | set key value =>
    obtain ⟨err, refused⟩ := closed_set key value
    have read := contract.batchSet direct.2 key value
    rw [closed] at read
    have failed := read.trans refused
    exact ⟨.error (congrArg Prod.fst failed), ⟨state, rfl, same⟩, congrArg Prod.snd failed⟩
  | delete key =>
    obtain ⟨err, refused⟩ := closed_delete key
    have read := contract.batchDelete direct.2 key
    rw [closed] at read
    have failed := read.trans refused
    exact ⟨.error (congrArg Prod.fst failed), ⟨state, rfl, same⟩, congrArg Prod.snd failed⟩
  | write sync =>
    have failed := commit_read contract sync direct.1 direct.2
    rw [closed] at failed
    have stays : commit (remoteDB registry) sync (holding type state) none =
        (.error .batchClosed, holding type state, none) := by cases sync <;> rfl
    have kept : contract.contents (commit (registry.db type) sync direct.1 direct.2).2.1 = contract.contents direct.1 :=
      congrArg (fun result => result.2.1) failed
    simp only [BatchUse.step, stays]
    have closed : contract.pending (commit (registry.db type) sync direct.1 direct.2).2.2 = none :=
      congrArg (fun result => result.2.2) failed
    exact ⟨.error (congrArg Prod.fst failed), ⟨state, rfl, same.trans kept.symm⟩, closed⟩
  | close =>
    have closes := contract.batchClose direct.2
    exact ⟨.ok (congrArg Prod.fst closes), ⟨state, rfl, same⟩, congrArg Prod.snd closes⟩

private theorem filled_write {ops : List Proto.Operation} (gathered : Gathered contract ops direct.2)
    (filled : ∀ key, Update.set key [] ∉ ops.filterMap Operation.update?) (sync : Bool) :
    Alike (commit (remoteDB registry) sync (holding type state) (some ops)).1
        (commit (registry.db type) sync direct.1 direct.2).1 ∧
      InStep contract (commit (remoteDB registry) sync (holding type state) (some ops)).2
        (commit (registry.db type) sync direct.1 direct.2).2 := by
  have read := commit_read contract sync direct.1 direct.2
  rw [gathered.pending] at read
  have arrived : Proto.Batch.wire ⟨ops⟩ = ⟨ops⟩ := congrArg Proto.Batch.mk (gathered.wire.1 filled)
  rcases batchWrite_outcome contract sync state gathered.sent with ⟨_, succeeded, applied⟩ | ⟨⟨op, member, none⟩, _⟩
  · rcases handled : Handler.batchWrite (registry.db type) sync state ⟨ops⟩ with ⟨status, after⟩
    rw [handled] at succeeded applied
    subst succeeded
    rw [← arrived] at handled
    obtain ⟨alike, next⟩ := commit_holding sync state handled
    have stored : contract.contents (commit (registry.db type) sync direct.1 direct.2).2.1 =
        (contract.contents direct.1).applyAll (ops.filterMap Operation.update?) := congrArg (fun result => result.2.1) read
    have closed : contract.pending (commit (registry.db type) sync direct.1 direct.2).2.2 = none :=
      congrArg (fun result => result.2.2) read
    refine ⟨alike.trans (Alike.ok (congrArg Prod.fst read)), ?_⟩
    rw [next]
    exact ⟨⟨after, rfl, by rw [applied, stored, same]⟩, closed⟩
  · exact (gathered.taken op member none).elim

omit same in
private theorem empty_write {ops : List Proto.Operation} (gathered : Gathered contract ops direct.2)
    {key : Bytes} (empty : Update.set key [] ∈ ops.filterMap Operation.update?) (sync : Bool) :
    ¬ Alike (commit (remoteDB registry) sync (holding type state) (some ops)).1
      (commit (registry.db type) sync direct.1 direct.2).1 := by
  have read := commit_read contract sync direct.1 direct.2
  rw [gathered.pending] at read
  have sent : ∀ op ∈ ops.map Proto.Operation.wire, Sent op :=
    List.forall_mem_map.mpr fun op member => (gathered.sent op member).wire
  -- the empty value arrives as nil, which the server's batch does not take
  obtain ⟨op, member, none⟩ := gathered.wire.2 key empty
  rcases batchWrite_outcome contract sync state sent with ⟨taken, _⟩ | ⟨_, err, failed⟩
  · exact (taken op member none).elim
  · obtain ⟨alike, _⟩ := commit_holding sync state failed
    intro agree
    have succeeded : (commit (registry.db type) sync direct.1 direct.2).1 = .ok () := congrArg Prod.fst read
    rw [succeeded] at agree
    cases alike.symm.trans agree

private theorem open_append {ops : List Proto.Operation} (gathered : Gathered contract ops direct.2)
    {op : Proto.Operation} (sent : Sent op) {made : Except Err Unit × (registry.db type).Batch}
    (collected : Handler.collect (registry.db type).batch direct.2 [op] = made.map some id) :
    (Alike (.ok ()) made.1 ↔ Operation.update? op ≠ none) ∧
      (Operation.update? op ≠ none → InStep contract (holding type state, some (ops ++ [op])) (direct.1, made.2)) := by
  obtain ⟨exactly, next⟩ := gathered.append sent collected
  exact ⟨exactly, fun taken => ⟨⟨state, rfl, same⟩, next taken⟩⟩

end Step

theorem InStep.use {remote : Process registry × RemoteBatch}
    {direct : (registry.db type).State × (registry.db type).Batch} (inStep : InStep contract remote direct)
    (call : BatchUse) :
    (Alike (call.step (remoteDB registry) remote).1 (call.step (registry.db type) direct).1 ↔
        call.Deliverable (contract.pending direct.2)) ∧
      (call.Deliverable (contract.pending direct.2) →
        InStep contract (call.step (remoteDB registry) remote).2 (call.step (registry.db type) direct).2) := by
  obtain ⟨process, batch⟩ := remote
  obtain ⟨⟨state, rfl, same⟩, held⟩ := inStep
  cases batch with
  | none =>
    have closed : contract.pending direct.2 = none := held
    obtain ⟨alike, next⟩ := closed_step contract same closed call
    have deliverable : call.Deliverable (contract.pending direct.2) := by
      cases call <;> simp [BatchUse.Deliverable, closed]
    exact ⟨iff_of_true alike deliverable, fun _ => next⟩
  | some ops =>
    have gathered : Gathered contract ops direct.2 := held
    have opened : contract.pending direct.2 ≠ none := by
      rw [gathered.pending]
      exact Option.some_ne_none _
    cases call with
    | set key value =>
      have deliverable : (BatchUse.set key value).Deliverable (contract.pending direct.2) ↔ key.len ≠ 0 ∧ value ≠ none :=
        ⟨fun allowed => allowed opened, fun valid _ => valid⟩
      rw [deliverable, ← update?_set key value]
      exact open_append contract same gathered (.set key value) (collect_set _ _ key value)
    | delete key =>
      have deliverable : (BatchUse.delete key).Deliverable (contract.pending direct.2) ↔ key.len ≠ 0 :=
        ⟨fun allowed => allowed opened, fun valid _ => valid⟩
      rw [deliverable, ← update?_delete key]
      exact open_append contract same gathered (.delete key) (collect_delete _ _ key)
    | write sync =>
      have deliverable : (BatchUse.write sync).Deliverable (contract.pending direct.2) ↔
          ∀ key, Update.set key [] ∉ ops.filterMap Operation.update? := by
        simp [BatchUse.Deliverable, gathered.pending]
      rw [deliverable]
      refine ⟨⟨fun alike key empty => ?_, fun filled => ?_⟩, fun filled => ?_⟩
      · exact empty_write contract gathered empty sync alike
      · exact (filled_write contract same gathered filled sync).1
      · exact (filled_write contract same gathered filled sync).2
    | close =>
      have closes := contract.batchClose direct.2
      exact ⟨iff_of_true (.ok (congrArg Prod.fst closes)) trivial,
        fun _ => ⟨⟨state, rfl, same⟩, congrArg Prod.snd closes⟩⟩

/-- A batch made by a RemoteDB answers as the backend's own batch would, and leaves
the same contents, exactly if every call on it is deliverable. -/
theorem remote_batch_follows_iff (state : (registry.db type).State) (calls : List BatchUse) :
    let remote := batchUses (remoteDB registry)
    let direct := batchUses (registry.db type)
    let opened : Process registry × RemoteBatch := (holding type state, (remoteDB registry).newBatch)
    (remote.Paired direct (fun held own call => Alike (remote.step held call).1 (direct.step own call).1)
        opened (state, (registry.db type).newBatch) calls ∧
      ∃ after, (remote.run opened calls).2.1 = holding type after ∧
        contract.contents after = contract.contents (direct.run (state, (registry.db type).newBatch) calls).2.1) ↔
    direct.Along (fun own call => call.Deliverable (contract.pending own.2)) (state, (registry.db type).newBatch) calls := by
  intro remote direct opened
  have initial : InStep contract opened (state, (registry.db type).newBatch) :=
    ⟨⟨state, rfl, rfl⟩, by simp, by simp, contract.newBatch⟩
  have exactly := Machine.paired_iff_along remote direct (InStep contract)
    (fun _ _ call inStep => (inStep.use contract call).2) (fun _ _ call inStep => (inStep.use contract call).1) initial calls
  constructor
  · rintro ⟨paired, _⟩
    exact exactly.mp paired
  · intro along
    have last := Machine.along_related remote direct (InStep contract)
      (fun _ _ call inStep => (inStep.use contract call).2) initial along
    exact ⟨exactly.mpr along, last.process⟩

end Backend

theorem remote_batch_follows_written :
    let remote := batchUses (remoteDB memRegistry)
    let direct := batchUses memDB
    let calls := [BatchUse.set (some [1]) (some [2]), .delete (some [3]), .write true, .set none none, .close]
    let opened : Process memRegistry × RemoteBatch := (holding "memdb" SortedMap.empty, some [])
    remote.Paired direct (fun held own call => Alike (remote.step held call).1 (direct.step own call).1)
        opened (SortedMap.empty, memDB.newBatch) calls ∧
      ∃ after, (remote.run opened calls).2.1 = holding "memdb" after ∧
        memContract.contents after = memContract.contents (direct.run (SortedMap.empty, memDB.newBatch) calls).2.1 := by
  refine (@remote_batch_follows_iff memRegistry "memdb" memContract SortedMap.empty _).mpr ?_
  refine ⟨?_, ?_, ?_, ?_, trivial, trivial⟩
  · exact fun _ => ⟨by decide, by decide⟩
  · exact fun _ => by decide
  · rintro _ ⟨⟩ key member
    simp [Operation.update] at member
  · exact fun opened => (opened rfl).elim

/-- The client takes an empty key, so the write fails and takes the good operation
with it; the backend's batch refuses the key and writes the rest. -/
theorem remote_batch_bad_key_diverges :
    let calls := [BatchUse.set (some [1]) (some [2]), .set (some []) (some [3]), .write false]
    let remote := (batchUses (remoteDB memRegistry)).run (holding "memdb" SortedMap.empty, some []) calls
    let direct := (batchUses memDB).run (SortedMap.empty, memDB.newBatch) calls
    remote.1 = [.ok (), .ok (), .error (.wrapped "remoteDB.BatchWrite" (.rpc "key cannot be empty"))] ∧
      direct.1 = [.ok (), .error .keyEmpty, .ok ()] ∧
      RemoteDB.get remote.2.1 (some [1]) = .ok none ∧ memDB.get direct.2.1 (some [1]) = .ok (some [2]) :=
  ⟨rfl, rfl, rfl, rfl⟩

end TmDb.Proofs
