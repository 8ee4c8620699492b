import TmDb.Proofs.Iteration
import TmDb.Proofs.ServerLifecycle
import TmDb.Remote.Concurrent

/-! Handlers that run at the same time answer as if the requests had come one after
another. A batch takes effect when it is written, whatever was collected meanwhile,
and a stream when its iterator is made, however long it is being sent. -/

namespace TmDb.Proofs
open Lib

variable {registry : Registry} {type : String}

theorem handle_single {request : Request registry} {code : (db : DB) → db.State → Status Message × db.State}
    (one : Serving.single request = some code) (state : (registry.db type).State) :
    (Server.mk (some ⟨type, state⟩)).handle request =
      ((code (registry.db type) state).1, ⟨some ⟨type, (code (registry.db type) state).2⟩⟩) := by
  cases request with
  | init | iterator | reverseIterator | batchWrite | batchWriteSync => cases one
  | get | has | set | setSync | delete | deleteSync | stats =>
    cases one
    rfl

theorem collect_cons {σ β : Type} (bat : BatchOps σ β) (batch : β) (op : Proto.Operation) (rest : List Proto.Operation) :
    Handler.collect bat batch (op :: rest) = match Handler.collect bat batch [op] with
      | (some (.ok _), next) => Handler.collect bat next rest
      | (some (.error err), next) => (some (.error err), next)
      | (none, next) => (none, next) := by
  obtain ⟨entity, kind⟩ := op
  cases kind with
  | unnamed number => rfl
  | set =>
    cases entity with
    | none => rfl
    | some entity => rcases set : bat.set batch entity.key entity.value with ⟨_ | _, next⟩ <;> simp [Handler.collect, set]
  | delete =>
    cases entity with
    | none => rfl
    | some entity => rcases del : bat.delete batch entity.key with ⟨_ | _, next⟩ <;> simp [Handler.collect, del]

theorem handle_batch (sync : Bool) (b : Proto.Batch) (state : (registry.db type).State) :
    (Server.mk (some ⟨type, state⟩)).handle (Serving.batch sync b) =
      (((Handler.batchWrite (registry.db type) sync state b).1).map (Except.map fun _ => .nothing),
        ⟨some ⟨type, (Handler.batchWrite (registry.db type) sync state b).2⟩⟩) := by
  cases sync <;> rfl

theorem handle_stream (reverse : Bool) (query : Proto.Entity) (sendFunc : List Proto.Iterator → Option Err)
    (state : (registry.db type).State) :
    (Server.mk (some ⟨type, state⟩)).handle (Serving.stream reverse query sendFunc) =
      ((Handler.iteratorWith (registry.db type) (opener _ reverse) sendFunc state query).1.map
          (Except.map fun _ => .stream (Handler.iteratorWith (registry.db type) (opener _ reverse) sendFunc state query).2),
        ⟨some ⟨type, state⟩⟩) := by
  cases reverse with
  | false =>
    simp only [Serving.stream, Server.handle, Server.onDB, Server.streamed, opener, Bool.false_eq_true, if_false]
    rcases Handler.iteratorWith (registry.db type) (registry.db type).iterator sendFunc state query with ⟨_ | _ | _, sent⟩ <;> rfl
  | true =>
    simp only [Serving.stream, Server.handle, Server.onDB, Server.streamed, opener, if_true]
    rcases Handler.iteratorWith (registry.db type) (registry.db type).reverseIterator sendFunc state query with
      ⟨_ | _ | _, sent⟩ <;> rfl

def streamed (ended : Except Err Unit) (sent : List Proto.Iterator) : Status Message := some (ended.map fun _ => .stream sent)

/-- What a handler's place means for its caller: a batch that is being collected has
not taken effect, a stream that is being sent has. -/
inductive Seen : Serving registry type → Caller (Request registry) (Status Message) → Prop where
  | idle : Seen .idle .idle
  | received (request : Request registry) : Seen (.received request) (.waiting request)
  | collecting {sync b bat ops} (same : Handler.collect (registry.db type).batch (registry.db type).newBatch b.ops =
      Handler.collect (registry.db type).batch bat ops) : Seen (.collecting sync bat ops) (.waiting (Serving.batch sync b))
  | streaming {sendFunc it sent bound ended all}
      (ahead : Handler.handleIterator (registry.db type).iter sendFunc bound it sent = (some ended, all)) :
      Seen (.streaming sendFunc it sent) (.served (streamed ended all))
  | replying (status : Except Err Message) : Seen (.replying status) (.served (some status))

variable {ι : Type} [DecidableEq ι]

/-- The atomic server that the handlers stand for. After a panic nothing is seen. -/
def Stood (world : Serviced registry type ι) (object : Atomic (Process registry) ι (Request registry) (Status Message)) : Prop :=
  world.crashed = true ∨ object.state = holding type world.state ∧ ∀ who, Seen (world.handlers who) (object.callers who)

section Steps
variable {world : Serviced registry type ι} {object : Atomic (Process registry) ι (Request registry) (Status Message)} {who : ι}
  {handler : Serving registry type} {state : (registry.db type).State}

private theorem seen_update (seen : ∀ who, Seen (world.handlers who) (object.callers who))
    {caller : Caller (Request registry) (Status Message)} (own : Seen handler caller) (who other : ι) :
    Seen (Function.update world.handlers who handler other) (Function.update object.callers who caller other) := by
  by_cases same : other = who
  · subst same
    simpa using own
  · simpa [same] using seen other

private theorem unseen (same : object.state = holding type world.state)
    (seen : ∀ who, Seen (world.handlers who) (object.callers who)) (own : Seen handler (object.callers who)) :
    ∃ next, System.Run (Atomic.Step (serving registry)) object [] next ∧
      Stood ({ world with state := world.state }.move who handler) next := by
  refine ⟨object, .start, .inr ⟨same, fun other => ?_⟩⟩
  have updated := seen_update seen own who other
  rwa [Function.update_eq_self] at updated

private theorem takes_effect (same : object.state = holding type world.state)
    (seen : ∀ who, Seen (world.handlers who) (object.callers who)) {request : Request registry} {status : Except Err Message}
    (waiting : object.callers who = .waiting request)
    (handled : (Server.mk (some ⟨type, world.state⟩)).handle request = (some status, ⟨some ⟨type, state⟩⟩))
    (own : Seen handler (.served (some status))) :
    ∃ next, System.Run (Atomic.Step (serving registry)) object [] next ∧
      Stood ({ world with state := state }.move who handler) next := by
  have answer : (serving registry).step object.state request = (some status, holding type state) := by
    rw [same]
    simp only [serving, Process.handle, handled]
  refine ⟨_, .silent .start (.effect waiting), .inr ⟨?_, fun other => ?_⟩⟩
  · rw [answer]
    rfl
  · rw [answer]
    exact seen_update seen own who other

private theorem handleIterator_pass {db : DB} {sendFunc : List Proto.Iterator → Option Err} {bound : Nat} {it : db.Iter}
    {sent all : List Proto.Iterator} {ended : Except Err Unit}
    (ahead : Handler.handleIterator db.iter sendFunc bound it sent = (some ended, all)) :
    ∃ less, bound = less + 1 := by
  cases bound with
  | zero => cases ahead
  | succ less => exact ⟨less, rfl⟩

private theorem act_followed (contract : Contract (registry.db type)) (same : object.state = holding type world.state)
    (seen : ∀ who, Seen (world.handlers who) (object.callers who))
    (acts : Serviced.Act world.state (world.handlers who) (some (state, handler))) :
    ∃ next, System.Run (Atomic.Step (serving registry)) object [] next ∧
      Stood ({ world with state := state }.move who handler) next := by
  have own := seen who
  generalize place : world.handlers who = here at acts own
  generalize caller : object.callers who = shown at own
  cases acts with
  | @serve request code status one answer =>
    cases own with
    | received _ =>
      refine takes_effect same seen caller ?_ (.replying status)
      rw [handle_single one, answer]
  | newBatch sync b =>
    generalize asked : Serving.batch sync b = request at own
    cases own with
    | received _ =>
      refine unseen same seen ?_
      rw [caller, ← asked]
      exact .collecting rfl
  | @collect sync bat op ops next taken =>
    cases own with
    | collecting so =>
      refine unseen same seen ?_
      rw [caller]
      refine .collecting (so.trans ?_)
      rw [collect_cons, taken]
  | @collectFails sync bat op ops err next refused =>
    cases own with
    | @collecting _ b _ _ so =>
      refine takes_effect same seen caller ?_ (.replying _)
      rw [collect_cons, refused] at so
      rw [handle_batch]
      simp only [Handler.batchWrite, so, Option.map_some, Except.map]
  | @write sync bat written wrote =>
    cases own with
    | @collecting _ b _ _ so =>
      refine takes_effect same seen caller ?_ (.replying _)
      rw [handle_batch]
      simp only [Handler.batchWrite, so, Handler.collect, wrote, Option.map_some]
  | @opens reverse query sendFunc it made =>
    generalize asked : Serving.stream reverse query sendFunc = request at own
    cases own with
    | received _ =>
      have opened : Handler.iteratorWith (registry.db type) (opener _ reverse) sendFunc world.state query =
          Handler.handleIterator (registry.db type).iter sendFunc ((registry.db type).iter.remaining it + 1) it [] := by
        simp only [Handler.iteratorWith, made]
      have returns := iteratorWith_returns contract (opener_read contract reverse) sendFunc world.state query
      rw [opened] at returns
      obtain ⟨ended, all, loop⟩ : ∃ ended all, Handler.handleIterator (registry.db type).iter sendFunc
          ((registry.db type).iter.remaining it + 1) it [] = (some ended, all) := by
        rcases ran : Handler.handleIterator (registry.db type).iter sendFunc
          ((registry.db type).iter.remaining it + 1) it [] with ⟨_ | ended, all⟩
        · rw [ran] at returns
          exact absurd rfl returns
        · exact ⟨ended, all, rfl⟩
      refine takes_effect same seen caller ?_ (.streaming loop)
      rw [← asked, handle_stream, opened, loop]
      rfl
  | @openFails reverse query sendFunc err refused =>
    generalize asked : Serving.stream reverse query sendFunc = request at own
    cases own with
    | received _ =>
      refine takes_effect same seen caller ?_ (.replying _)
      rw [← asked, handle_stream]
      simp only [Handler.iteratorWith, refused, Option.map_some, Except.map]
  | @send sendFunc it out ready after sent moved item delivered next =>
    cases own with
    | streaming ahead =>
      obtain ⟨less, rfl⟩ := handleIterator_pass ahead
      refine unseen same seen ?_
      rw [caller]
      simp only [Handler.handleIterator, item, delivered, next] at ahead
      exact .streaming ahead
  | @sendFails sendFunc it out ready sent err item broken =>
    cases own with
    | streaming ahead =>
      obtain ⟨less, rfl⟩ := handleIterator_pass ahead
      refine unseen same seen ?_
      rw [caller]
      simp only [Handler.handleIterator, item, broken, Prod.mk.injEq, Option.some.injEq] at ahead
      obtain ⟨rfl, rfl⟩ := ahead
      exact .replying _
  | @ends sendFunc it ready sent invalid =>
    cases own with
    | streaming ahead =>
      obtain ⟨less, rfl⟩ := handleIterator_pass ahead
      refine unseen same seen ?_
      rw [caller]
      simp only [Handler.handleIterator, invalid, Prod.mk.injEq, Option.some.injEq] at ahead
      obtain ⟨rfl, rfl⟩ := ahead
      exact .replying _

theorem Stood.follow (contract : Contract (registry.db type)) {label : Option (Observation ι (Request registry) (Status Message))}
    {after : Serviced registry type ι} (step : Serviced.Step world label after) (stood : Stood world object) :
    ∃ next, System.Run (Atomic.Step (serving registry)) object label.toList next ∧ Stood after next := by
  have up : world.crashed = false := by
    cases step <;> assumption
  have running : ¬ world.crashed = true := by simp [up]
  obtain ⟨same, seen⟩ := stood.resolve_left running
  cases step with
  | receive who request _ idle =>
    have free : object.callers who = .idle := by
      have own := seen who
      rw [idle] at own
      generalize object.callers who = caller at own
      cases own
      rfl
    exact ⟨_, .seen .start (.call request free), .inr ⟨same, seen_update seen (.received request) who⟩⟩
  | act who _ acts => exact act_followed contract same seen acts
  | panic who _ panics => exact ⟨object, .start, .inl rfl⟩
  | @reply _ who status _ replying =>
    have served : object.callers who = .served (some status) := by
      have own := seen who
      rw [replying] at own
      generalize object.callers who = caller at own
      cases own
      rfl
    exact ⟨_, .seen .start (.reply served), .inr ⟨same, seen_update seen .idle who⟩⟩

end Steps

/-- Any number of handlers run at the same time on a database that meets the contract,
each method of which is one step: the answers they give are those of a server that
handles the same requests one after another, in an order that respects which requests
were answered before others came in. -/
theorem server_linearizable (contract : Contract (registry.db type)) (state : (registry.db type).State)
    {history : List (Observation ι (Request registry) (Status Message))} {world : Serviced registry type ι}
    (run : System.Run Serviced.Step (Serviced.start state) history world) :
    Linearizable (serving registry) (holding type state) history := by
  have initial : Stood (Serviced.start state : Serviced registry type ι) (Atomic.start (holding type state)) :=
    .inr ⟨rfl, fun _ => .idle⟩
  obtain ⟨object, atomic, _⟩ := run.follow (fun _ _ _ _ step stood => stood.follow contract step) initial
  exact ⟨object.order, (Atomic.Recorded.run atomic).toLinearization⟩

/-- A request that reads a key while a batch with that key is being collected. -/
theorem server_linearizable_overtaken :
    let sets : Proto.Batch := ⟨[⟨some { key := some [1], value := some [2] }, .set⟩]⟩
    ∃ (history : List (Observation Bool (Request memRegistry) (Status Message))) (world : Serviced memRegistry "memdb" Bool),
      System.Run Serviced.Step (Serviced.start (SortedMap.empty : Store)) history world ∧
        Observation.called true history = [.batchWrite sets] ∧
        Observation.replied false history = [some (.ok (.entity {}))] ∧
        Observation.replied true history = [some (.ok .nothing)] ∧
        Linearizable (serving memRegistry) (holding "memdb" (SortedMap.empty : Store)) history := by
  intro sets
  have run : System.Run Serviced.Step (Serviced.start (SortedMap.empty : Store) : Serviced memRegistry "memdb" Bool) _ _ := .start
  have run := run.seen (.receive true (.batchWrite sets) rfl rfl nofun)
  have run := run.seen (.receive false (.get { key := some [1] }) rfl rfl nofun)
  have run := run.silent (.act true rfl (.newBatch false sets))
  have run := run.silent (.act true rfl (.collect rfl))
  have run := run.silent (.act false rfl (.serve rfl rfl))
  have run := run.silent (.act true rfl (.write rfl))
  have run := run.seen (.reply false rfl rfl)
  have run := run.seen (.reply true rfl rfl)
  exact ⟨_, _, run, rfl, rfl, rfl, server_linearizable memContract _ run⟩

end TmDb.Proofs
