import TmDb.Proofs.RemoteBatch

/-! Retrying the write of a remote batch when requests or replies are lost. The
batch stays open after an error, so the server may run a list several times, and
longer lists after shorter ones; replaying absorbs what was already there. -/

namespace TmDb.Proofs
open Lib

variable {registry : Registry} {type : String}

/-- A write by somebody else, straight to the backend. -/
def interfere (process : Process registry) (update : Update Bytes Bytes) : Process registry :=
  match process, update with
  | .running ⟨some ⟨type, state⟩⟩, .set key value =>
    holding type ((registry.db type).set state (some key) (some value)).2
  | .running ⟨some ⟨type, state⟩⟩, .delete key => holding type ((registry.db type).delete state (some key)).2
  | process, _ => process

def attempt (sync : Bool) (delivery : Delivery) (process : Process registry) (batch : RemoteBatch) :
    Except Err Unit × Process registry × RemoteBatch :=
  if sync then RemoteBatch.writeSync delivery process batch else RemoteBatch.write delivery process batch

inductive RetryEvent where
  | set (key value : Slice)
  | delete (key : Slice)
  | write (sync : Bool) (delivery : Delivery)
  | close
  | other (update : Update Bytes Bytes) (nonempty : update.key ≠ [])

namespace RetryEvent

def step (held : Process registry × RemoteBatch) : RetryEvent → Except Err Unit × Process registry × RemoteBatch
  | set key value => (held.2.set key value).map id (Prod.mk held.1)
  | delete key => (held.2.delete key).map id (Prod.mk held.1)
  | write sync delivery => attempt sync delivery held.1 held.2
  | close => held.2.close.map id (Prod.mk held.1)
  | other update _ => (.ok (), interfere held.1 update, held.2)

def operation? : RetryEvent → Option Proto.Operation
  | set key value => some ⟨some { key := key, value := value }, .set⟩
  | delete key => some ⟨some { key := key }, .delete⟩
  | _ => none

def other? : RetryEvent → Option (Update Bytes Bytes)
  | other update _ => some update
  | _ => none

end RetryEvent

def retrying (registry : Registry) : Machine (Process registry × RemoteBatch) RetryEvent (Except Err Unit) :=
  ⟨RetryEvent.step⟩

/-- The client's operation list: the operations of its calls that returned nil. -/
def issued (events : List RetryEvent) (replies : List (Except Err Unit)) : List Proto.Operation :=
  (events.zip replies).filterMap fun entry => if entry.2.toOption = none then none else entry.1.operation?

def others (events : List RetryEvent) : List (Update Bytes Bytes) := events.filterMap RetryEvent.other?

def delivered (op : Proto.Operation) : Option (Update Bytes Bytes) := Operation.update? op.wire

/-- No other writer touches a key of the batch. A call that a closed batch refused is
not of the batch. -/
def Apart (start : Process registry × RemoteBatch) (events : List RetryEvent) : Prop :=
  ∀ op ∈ issued events ((retrying registry).run start events).1, ∀ entity, op.entity = some entity →
    ∀ update ∈ others events, entity.key.bytes ≠ update.key

theorem issued_append {events : List RetryEvent} {replies : List (Except Err Unit)}
    (length : events.length = replies.length) (more : List RetryEvent) (later : List (Except Err Unit)) :
    issued (events ++ more) (replies ++ later) = issued events replies ++ issued more later := by
  rw [issued, List.zip_append length, List.filterMap_append]
  rfl

theorem issued_one (event : RetryEvent) (reply : Except Err Unit) :
    issued [event] [reply] = if reply.toOption = none then [] else event.operation?.toList := by
  by_cases failed : reply.toOption = none
  · simp [issued, failed]
  · cases made : event.operation? <;> simp [issued, failed, made]

theorem mem_issued {events : List RetryEvent} {replies : List (Except Err Unit)} {op : Proto.Operation}
    (member : op ∈ issued events replies) : ∃ event ∈ events, event.operation? = some op := by
  obtain ⟨⟨event, reply⟩, paired, made⟩ := List.mem_filterMap.mp member
  refine ⟨event, (List.of_mem_zip paired).1, ?_⟩
  split at made
  · cases made
  · exact made

theorem operation?_sent {event : RetryEvent} {op : Proto.Operation} (made : event.operation? = some op) : Sent op := by
  cases event with
  | set key value => cases made; exact .set key value
  | delete key => cases made; exact .delete key
  | write | close | other => cases made

theorem delivered_key {op : Proto.Operation} (sent : Sent op) {update : Update Bytes Bytes}
    (made : delivered op = some update) : ∃ entity, op.entity = some entity ∧ entity.key.bytes = update.key := by
  cases sent with
  | set key value => exact ⟨_, rfl, ((update?_key made).trans (Slice.bytes_wire key)).symm⟩
  | delete key => exact ⟨_, rfl, ((update?_key made).trans (Slice.bytes_wire key)).symm⟩

theorem delivered_eq {op : Proto.Operation} (sent : Sent op) (taken : delivered op ≠ none) :
    Operation.update? op = delivered op := by
  cases sent with
  | set key value =>
    obtain ⟨long, filled⟩ := (update?_set key.wire value.wire).mp taken
    have same : value.wire = value := Slice.wire_of_ne fun empty => filled (Slice.wire_eq_none.mpr (.inr empty))
    have own : key.wire = key := Slice.wire_of_ne fun empty => long (by subst empty; rfl)
    simp only [delivered, Proto.Operation.wire, Option.map_some, Proto.Entity.wire, Slice.wire_none, same, own]
  | delete key =>
    have long := (update?_delete key.wire).mp taken
    have own : key.wire = key := Slice.wire_of_ne fun empty => long (by subst empty; rfl)
    simp only [delivered, Proto.Operation.wire, Option.map_some, Proto.Entity.wire, Slice.wire_none, own]

section Backend
variable (contract : Contract (registry.db type))

theorem interfere_read (state : (registry.db type).State) {update : Update Bytes Bytes} (nonempty : update.key ≠ []) :
    ∃ after, interfere (holding type state) update = holding type after ∧
      contract.contents after = (contract.contents state).apply update := by
  cases update with
  | set key value =>
    have stored := (contract.set state (some key) (some value)).trans (Plain.set_some _ nonempty value)
    exact ⟨_, rfl, congrArg Prod.snd stored⟩
  | delete key =>
    have stored := (contract.delete state (some key)).trans (Plain.delete_some _ nonempty)
    exact ⟨_, rfl, congrArg Prod.snd stored⟩

private theorem attempt_holding (sync : Bool) (state : (registry.db type).State) {ops : List Proto.Operation}
    {result : Except Err Unit} {after : (registry.db type).State}
    (handled : Handler.batchWrite (registry.db type) sync state (Proto.Batch.wire ⟨ops⟩) = (some result, after))
    (delivery : Delivery) :
    match delivery with
    | .lostRequest => (attempt sync delivery (holding type state) (some ops)).1.toOption = none ∧
        (attempt sync delivery (holding type state) (some ops)).2 = (holding type state, some ops)
    | .lostReply => (attempt sync delivery (holding type state) (some ops)).1.toOption = none ∧
        (attempt sync delivery (holding type state) (some ops)).2 = (holding type after, some ops)
    | .reliable => (attempt sync delivery (holding type state) (some ops)).1.toOption = result.toOption ∧
        (attempt sync delivery (holding type state) (some ops)).2 =
          (holding type after, if result.toOption = none then some ops else none) := by
  cases delivery with
  | lostRequest => cases sync <;> exact ⟨rfl, rfl⟩
  | lostReply =>
    cases sync with
    | false =>
      simp only [attempt, RemoteBatch.write, RemoteBatch.writeWith, unary, Process.handle, Server.handle, Server.onDB, handled]
      exact ⟨rfl, rfl⟩
    | true =>
      simp only [attempt, RemoteBatch.writeSync, RemoteBatch.writeWith, unary, Process.handle, Server.handle, Server.onDB,
        handled]
      exact ⟨rfl, rfl⟩
  | reliable =>
    obtain ⟨alike, after⟩ := commit_holding sync state handled
    cases sync <;> exact ⟨alike, after⟩

/-- An attempt does nothing, or applies the whole list; when it returns nil it has
applied the list and closed the batch, otherwise the batch is as it was. -/
theorem attempt_outcome (sync : Bool) (delivery : Delivery) (state : (registry.db type).State)
    {ops : List Proto.Operation} (sent : ∀ op ∈ ops, Sent op) :
    ∃ after, (attempt sync delivery (holding type state) (some ops)).2.1 = holding type after ∧
      ((attempt sync delivery (holding type state) (some ops)).1.toOption = none ∧
          (attempt sync delivery (holding type state) (some ops)).2.2 = some ops ∧
          contract.contents after = contract.contents state ∨
        (∀ op ∈ ops, delivered op ≠ none) ∧
          contract.contents after = (contract.contents state).applyAll (ops.filterMap delivered) ∧
          (attempt sync delivery (holding type state) (some ops)).2.2 =
            if (attempt sync delivery (holding type state) (some ops)).1.toOption = none then some ops else none) := by
  have arrived : ∀ op ∈ ops.map Proto.Operation.wire, Sent op :=
    List.forall_mem_map.mpr fun op member => (sent op member).wire
  rcases batchWrite_outcome contract sync state arrived with ⟨taken, succeeded, applied⟩ | ⟨_, err, failed⟩
  · rcases handled : Handler.batchWrite (registry.db type) sync state ⟨ops.map Proto.Operation.wire⟩ with ⟨status, next⟩
    rw [handled] at succeeded applied
    subst succeeded
    rw [List.filterMap_map] at applied
    have whole : ∀ op ∈ ops, delivered op ≠ none := fun op member => taken _ (List.mem_map_of_mem member)
    have outcome := attempt_holding sync state handled delivery
    cases delivery with
    | lostRequest => exact ⟨state, congrArg Prod.fst outcome.2, .inl ⟨outcome.1, congrArg Prod.snd outcome.2, rfl⟩⟩
    | lostReply =>
      refine ⟨next, congrArg Prod.fst outcome.2, .inr ⟨whole, applied, ?_⟩⟩
      rw [outcome.2, if_pos outcome.1]
    | reliable =>
      refine ⟨next, congrArg Prod.fst outcome.2, .inr ⟨whole, applied, ?_⟩⟩
      rw [outcome.2, outcome.1]
  · have outcome := attempt_holding sync state failed delivery
    cases delivery with
    | lostRequest | lostReply | reliable =>
      exact ⟨state, congrArg Prod.fst outcome.2, .inl ⟨outcome.1, congrArg Prod.snd outcome.2, rfl⟩⟩

/-- How a run stands: the backend holds what it held, with the writes of others and
one list applied, which is a part of the client's list from its beginning. -/
structure Tracks (original : Store) (events : List RetryEvent) (replies : List (Except Err Unit))
    (held : Process registry × RemoteBatch) (applied : List Proto.Operation) : Prop where
  backend : ∃ state, held.1 = holding type state ∧
    contract.contents state = (original.applyAll (others events)).applyAll (applied.filterMap delivered)
  initial : applied <+: issued events replies
  taken : ∀ op ∈ applied, delivered op ≠ none
  listed : ∀ ops, held.2 = some ops → ops = issued events replies

variable {contract} {original : Store} {events : List RetryEvent} {replies : List (Except Err Unit)}
variable {held : Process registry × RemoteBatch} {applied : List Proto.Operation}

theorem Tracks.as_issued (tracks : Tracks contract original events replies held applied) :
    (∀ op ∈ applied, Operation.update? op ≠ none) ∧
      applied.filterMap delivered = applied.filterMap Operation.update? := by
  have same : ∀ op ∈ applied, Operation.update? op = delivered op := by
    intro op member
    obtain ⟨event, _, made⟩ := mem_issued (tracks.initial.subset member)
    exact delivered_eq (operation?_sent made) (tracks.taken op member)
  exact ⟨fun op member => by rw [same op member]; exact tracks.taken op member,
    List.filterMap_congr fun op member => (same op member).symm⟩

private theorem issued_grows (length : events.length = replies.length) (event : RetryEvent) (reply : Except Err Unit) :
    issued events replies <+: issued (events ++ [event]) (replies ++ [reply]) := by
  rw [issued_append length [event] [reply]]
  exact List.prefix_append _ _

private theorem others_quiet {event : RetryEvent} (quiet : event.other? = none) :
    others (events ++ [event]) = others events := by
  simp [others, quiet]

private theorem Tracks.quiet (tracks : Tracks contract original events replies held applied)
    (length : events.length = replies.length) {event : RetryEvent} (quiet : event.other? = none)
    {reply : Except Err Unit} {batch : RemoteBatch}
    (listed : ∀ ops, batch = some ops → ops = issued (events ++ [event]) (replies ++ [reply])) :
    Tracks contract original (events ++ [event]) (replies ++ [reply]) (held.1, batch) applied where
  backend := by rw [others_quiet quiet]; exact tracks.backend
  initial := tracks.initial.trans (issued_grows length event reply)
  taken := tracks.taken
  listed := listed

private theorem Tracks.append (tracks : Tracks contract original events replies held applied)
    (length : events.length = replies.length) {event : RetryEvent} {op : Proto.Operation}
    (made : event.operation? = some op) (quiet : event.other? = none) :
    Tracks contract original (events ++ [event]) (replies ++ [(held.2.append op).1]) (held.1, (held.2.append op).2) applied := by
  apply tracks.quiet length quiet
  intro ops same
  rw [issued_append length, issued_one]
  cases batch : held.2 with
  | none => rw [batch] at same; cases same
  | some listed =>
    rw [batch] at same
    cases same
    rw [tracks.listed listed batch, made]
    rfl

private theorem Tracks.replay (tracks : Tracks contract original events replies held applied) {state : (registry.db type).State}
    (holds : contract.contents state = (original.applyAll (others events)).applyAll (applied.filterMap delivered)) :
    (contract.contents state).applyAll ((issued events replies).filterMap delivered) =
      (original.applyAll (others events)).applyAll ((issued events replies).filterMap delivered) := by
  -- the applied list begins the issued one, so the longer list absorbs it
  obtain ⟨more, same⟩ := tracks.initial
  rw [holds, ← same, List.filterMap_append]
  exact SortedMap.applyAll_replay _ _ _

private theorem Tracks.other (tracks : Tracks contract original events replies held applied)
    (length : events.length = replies.length) {update : Update Bytes Bytes} (nonempty : update.key ≠ [])
    (apart : ∀ op ∈ issued events replies, ∀ entity, op.entity = some entity → entity.key.bytes ≠ update.key) :
    Tracks contract original (events ++ [.other update nonempty]) (replies ++ [.ok ()])
      (interfere held.1 update, held.2) applied := by
  obtain ⟨state, process, holds⟩ := tracks.backend
  obtain ⟨after, next, changed⟩ := interfere_read contract state nonempty
  have joined : others (events ++ [.other update nonempty]) = others events ++ [update] := by
    simp [others, RetryEvent.other?]
  have same : issued (events ++ [.other update nonempty]) (replies ++ [.ok ()]) = issued events replies := by
    rw [issued_append length, issued_one]
    simp [RetryEvent.operation?]
  have separate : ∀ own ∈ applied.filterMap delivered, own.key ≠ update.key := by
    intro own member
    obtain ⟨op, inside, sent⟩ := List.mem_filterMap.mp member
    have listed := tracks.initial.subset inside
    obtain ⟨event, _, made⟩ := mem_issued listed
    obtain ⟨entity, named, same⟩ := delivered_key (operation?_sent made) sent
    rw [← same]
    exact apart op listed entity named
  refine ⟨⟨after, by rw [process, next], ?_⟩, by rw [same]; exact tracks.initial, tracks.taken, by rw [same]; exact tracks.listed⟩
  rw [changed, holds, joined, SortedMap.applyAll_append, SortedMap.applyAll_cons, SortedMap.applyAll_nil]
  exact SortedMap.applyAll_apply_comm _ separate

private theorem Tracks.attempt (tracks : Tracks contract original events replies held applied)
    (length : events.length = replies.length) (sync : Bool) (delivery : Delivery) :
    ∃ next, (next = applied ∨ held.2 = some next) ∧
      Tracks contract original (events ++ [.write sync delivery])
        (replies ++ [(Proofs.attempt sync delivery held.1 held.2).1]) (Proofs.attempt sync delivery held.1 held.2).2 next ∧
      ((Proofs.attempt sync delivery held.1 held.2).1.toOption ≠ none →
        held.2 = some next ∧ (Proofs.attempt sync delivery held.1 held.2).2.2 = none) := by
  have same : ∀ reply, issued (events ++ [.write sync delivery]) (replies ++ [reply]) = issued events replies := by
    intro reply
    rw [issued_append length, issued_one]
    simp [RetryEvent.operation?]
  obtain ⟨process, batch⟩ := held
  obtain ⟨state, rfl, holds⟩ := tracks.backend
  cases batch with
  | none =>
    have refused : Proofs.attempt sync delivery (holding type state) none = (.error .batchClosed, holding type state, none) := by
      cases sync <;> rfl
    rw [refused]
    refine ⟨applied, .inl rfl, ?_, fun ok => (ok rfl).elim⟩
    exact tracks.quiet length rfl fun _ impossible => nomatch impossible
  | some ops =>
    obtain rfl := tracks.listed ops rfl
    have sent : ∀ op ∈ issued events replies, Sent op := by
      intro op member
      obtain ⟨event, _, made⟩ := mem_issued member
      exact operation?_sent made
    obtain ⟨after, next, outcome⟩ := attempt_outcome contract sync delivery state sent
    rcases outcome with ⟨failed, kept, unchanged⟩ | ⟨taken, replayed, batch⟩
    · refine ⟨applied, .inl rfl, ⟨⟨after, next, ?_⟩, ?_, tracks.taken, ?_⟩, fun ok => (ok failed).elim⟩
      · rw [others_quiet rfl, unchanged, holds]
      · rw [same]; exact tracks.initial
      · intro ops listed
        rw [kept] at listed
        rw [same]; exact (Option.some.inj listed).symm
    · refine ⟨issued events replies, .inr rfl, ⟨⟨after, next, ?_⟩, ?_, taken, ?_⟩, fun ok => ⟨rfl, by rw [batch, if_neg ok]⟩⟩
      · rw [others_quiet rfl, replayed]
        exact tracks.replay holds
      · exact (same _).symm ▸ List.prefix_rfl
      · intro ops listed
        rw [batch] at listed
        split at listed
        · rw [same]; exact (Option.some.inj listed).symm
        · cases listed

theorem Tracks.step (tracks : Tracks contract original events replies held applied)
    (length : events.length = replies.length) (event : RetryEvent)
    (apart : ∀ op ∈ issued events replies, ∀ entity, op.entity = some entity →
      ∀ update, event.other? = some update → entity.key.bytes ≠ update.key) :
    ∃ next, (next = applied ∨ (∃ sync delivery, event = .write sync delivery) ∧ held.2 = some next) ∧
      Tracks contract original (events ++ [event]) (replies ++ [(event.step held).1]) (event.step held).2 next := by
  cases event with
  | set key value => exact ⟨applied, .inl rfl, tracks.append length rfl rfl⟩
  | delete key => exact ⟨applied, .inl rfl, tracks.append length rfl rfl⟩
  | write sync delivery =>
    obtain ⟨next, origin, kept, _⟩ := tracks.attempt length sync delivery
    exact ⟨next, origin.imp_right fun listed => ⟨⟨sync, delivery, rfl⟩, listed⟩, kept⟩
  | close => exact ⟨applied, .inl rfl, tracks.quiet length rfl fun _ impossible => nomatch impossible⟩
  | other update nonempty =>
    exact ⟨applied, .inl rfl, tracks.other length nonempty fun op member entity named => apart op member entity named update rfl⟩

end Backend

/-- The client's list as it stood at one of the attempts of a run. -/
def Attempted (start : Process registry × RemoteBatch) (events : List RetryEvent) (ops : List Proto.Operation) : Prop :=
  ∃ before sync delivery after, events = before ++ .write sync delivery :: after ∧
    ((retrying registry).run start before).2.2 = some ops

theorem Attempted.later {start : Process registry × RemoteBatch} {events : List RetryEvent} {ops : List Proto.Operation}
    (attempted : Attempted start events ops) (event : RetryEvent) : Attempted start (events ++ [event]) ops := by
  obtain ⟨before, sync, delivery, after, rfl, listed⟩ := attempted
  exact ⟨before, sync, delivery, after ++ [event], by simp, listed⟩

section Earlier
variable {start : Process registry × RemoteBatch} {events more : List RetryEvent}

private theorem issued_earlier : issued events ((retrying registry).run start events).1 <+:
    issued (events ++ more) ((retrying registry).run start (events ++ more)).1 := by
  rw [Machine.run_append, issued_append (Machine.run_length _ _ _).symm]
  exact List.prefix_append _ _

private theorem others_earlier : others events <+: others (events ++ more) := by
  rw [others, others, List.filterMap_append]
  exact List.prefix_append _ _

theorem Apart.earlier (apart : Apart start (events ++ more)) : Apart start events := by
  intro op member entity named update other
  exact apart op (issued_earlier.subset member) entity named update (others_earlier.subset other)

end Earlier

theorem run_tracks (contract : Contract (registry.db type)) (state : (registry.db type).State)
    {events : List RetryEvent} (apart : Apart (holding type state, some []) events) :
    ∃ applied, (applied = [] ∨ Attempted (holding type state, some []) events applied) ∧
      Tracks contract (contract.contents state) events
        ((retrying registry).run (holding type state, some []) events).1
        ((retrying registry).run (holding type state, some []) events).2 applied := by
  induction events using List.reverseRecOn with
  | nil => exact ⟨[], .inl rfl, ⟨state, rfl, rfl⟩, List.nil_prefix, by simp, fun _ same => (Option.some.inj same).symm⟩
  | append_singleton events event ih =>
    obtain ⟨applied, origin, tracks⟩ := ih apart.earlier
    have separate : ∀ op ∈ issued events ((retrying registry).run (holding type state, some []) events).1, ∀ entity,
        op.entity = some entity → ∀ update, event.other? = some update → entity.key.bytes ≠ update.key := by
      intro op member entity named update other
      refine apart op (issued_earlier.subset member) entity named update ?_
      simp [others, other]
    obtain ⟨next, made, kept⟩ := tracks.step (Machine.run_length _ _ _).symm event separate
    rw [Machine.run_append]
    refine ⟨next, ?_, kept⟩
    rcases made with rfl | ⟨⟨sync, delivery, rfl⟩, listed⟩
    · exact origin.imp_right fun attempted => attempted.later event
    · exact .inr ⟨events, sync, delivery, [], rfl, listed⟩

theorem closed_run (process : Process registry) (events : List RetryEvent) :
    ((retrying registry).run (process, none) events).2 = ((others events).foldl interfere process, none) := by
  induction events generalizing process with
  | nil => rfl
  | cons event rest ih =>
    cases event with
    | set | delete | close => exact ih process
    | write sync delivery =>
      have refused : attempt sync delivery process none = (.error .batchClosed, process, none) := by cases sync <;> rfl
      simp only [Machine.run_cons]
      change ((retrying registry).run (attempt sync delivery process none).2 rest).2 = _
      rw [refused]
      exact ih process
    | other update nonempty => exact ih (interfere process update)

/-- A write of a remote batch may be retried whatever was lost, and with operations
added in between. The backend always holds its own contents, or those with the
client's list as it stood at some attempt applied once; after a write that returns
nil it holds the whole list as it then stood, and no later call changes it. -/
theorem remote_retry_absorbed (contract : Contract (registry.db type)) (state : (registry.db type).State)
    (events : List RetryEvent) (apart : Apart (holding type state, (remoteDB registry).newBatch) events) :
    let start : Process registry × RemoteBatch := (holding type state, (remoteDB registry).newBatch)
    let outcome := (retrying registry).run start events
    (∃ applied after, (applied = [] ∨ Attempted start events applied) ∧ applied <+: issued events outcome.1 ∧
      (∀ op ∈ applied, Operation.update? op ≠ none) ∧ outcome.2.1 = holding type after ∧
      contract.contents after =
        ((contract.contents state).applyAll (others events)).applyAll (applied.filterMap Operation.update?)) ∧
    ∀ before sync delivery rest, events = before ++ .write sync delivery :: rest →
      let earlier := (retrying registry).run start before
      let written := attempt sync delivery earlier.2.1 earlier.2.2
      written.1 = .ok () →
        ∃ after, earlier.2.2 = some (issued before earlier.1) ∧
          (∀ op ∈ issued before earlier.1, Operation.update? op ≠ none) ∧ written.2.1 = holding type after ∧
          contract.contents after = ((contract.contents state).applyAll (others before)).applyAll
            ((issued before earlier.1).filterMap Operation.update?) ∧
          outcome.2.1 = (others rest).foldl interfere written.2.1 := by
  intro start outcome
  constructor
  · obtain ⟨applied, origin, tracks⟩ := run_tracks contract state apart
    obtain ⟨after, process, holds⟩ := tracks.backend
    obtain ⟨taken, same⟩ := tracks.as_issued
    rw [same] at holds
    exact ⟨applied, after, origin, tracks.initial, taken, process, holds⟩
  · rintro before sync delivery rest rfl earlier written succeeded
    obtain ⟨_, _, tracks⟩ := run_tracks contract state apart.earlier
    obtain ⟨next, _, kept, closes⟩ := tracks.attempt (Machine.run_length _ _ _).symm sync delivery
    obtain ⟨listed, closed⟩ := closes (by change written.1.toOption ≠ none; rw [succeeded]; exact Option.some_ne_none _)
    obtain rfl := tracks.listed next listed
    obtain ⟨after, process, holds⟩ := kept.backend
    obtain ⟨taken, same⟩ := kept.as_issued
    rw [others_quiet rfl, same] at holds
    refine ⟨after, listed, taken, process, holds, ?_⟩
    have ended : outcome.2 = ((retrying registry).run written.2 rest).2 := by
      simp only [outcome, Machine.run_append, Machine.run_cons]
      rfl
    have shut : written.2 = (written.2.1, none) := Prod.ext rfl closed
    rw [ended, shut, closed_run]

/-- A reply is lost, the list grows, somebody else writes, a request is lost, and a
third attempt gets through. Then a key is set in vain, and somebody else deletes it. -/
theorem remote_retry_absorbed_third :
    let before := [RetryEvent.set (some [1]) (some [2]), .write false .lostReply, .set (some [1]) (some [3]),
      .other (.set [9] [9]) (List.cons_ne_nil _ _), .write true .lostRequest]
    let rest := [RetryEvent.set (some [4]) (some [4]), .write false .reliable,
      .other (.delete [4]) (List.cons_ne_nil _ _)]
    let start : Process memRegistry × RemoteBatch := (holding "memdb" SortedMap.empty, some [])
    let earlier := (retrying memRegistry).run start before
    let written := attempt false .reliable earlier.2.1 earlier.2.2
    let outcome := (retrying memRegistry).run start (before ++ .write false .reliable :: rest)
    Apart start (before ++ .write false .reliable :: rest) ∧ written.1 = .ok () ∧
      written.2.1 = holding "memdb" ((SortedMap.empty.insert [9] [9]).insert [1] [3]) ∧
      outcome.2.1 = (others rest).foldl interfere written.2.1 := by
  intro before rest start earlier written outcome
  have apart : Apart start (before ++ .write false .reliable :: rest) := by
    unfold Apart
    decide
  have absorbed := @remote_retry_absorbed memRegistry "memdb" memContract SortedMap.empty _ apart
  obtain ⟨after, listed, taken, process, holds, last⟩ := absorbed.2 before false .reliable rest rfl rfl
  refine ⟨apart, rfl, process.trans (congrArg _ ?_), last⟩
  exact holds

end TmDb.Proofs
