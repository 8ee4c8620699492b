import TmDb.Proofs.Refinement
import TmDb.Proofs.RemoteBatch

/-! The server over whole histories of requests. Every handler goes through the
database it holds, and a failed Init drops that database; a history is survived
exactly if the requests themselves see to it that there always is one. -/

namespace TmDb.Proofs
open Lib

structure Commutes {ι κ : Type} (ops : IterOps ι) (spec : IterOps κ) (view : ι → κ) : Prop where
  domain : ∀ it, ops.domain it = spec.domain (view it)
  valid : ∀ it, (ops.valid it).map id view = spec.valid (view it)
  next : ∀ it, (ops.next it).map id view = spec.next (view it)
  key : ∀ it, (ops.key it).map id view = spec.key (view it)
  value : ∀ it, (ops.value it).map id view = spec.value (view it)

theorem Commutes.current {ι κ : Type} {ops : IterOps ι} {spec : IterOps κ} {view : ι → κ}
    (commutes : Commutes ops spec view) (it : ι) :
    (Handler.current ops it).map id view = Handler.current spec (view it) := by
  apply andThen_map _ (commutes.valid it)
  intro ok it
  apply ite_map _ rfl
  apply andThen_map _ (commutes.key it)
  intro key other
  apply andThen_map _ (commutes.value other)
  intro value other
  apply andThen_map _ (commutes.valid other)
  intro valid other
  simp only [Prod.map, id_eq, commutes.domain it]

section Loop
variable {db : DB} (contract : Contract db)

theorem cursor_commutes : Commutes db.iter Scan.ops contract.cursor where
  domain := contract.domain
  valid := contract.valid
  next := contract.next
  key := contract.key
  value := contract.value

theorem current_read (it : db.Iter) :
    (Handler.current db.iter it).map id contract.cursor = Handler.current Scan.ops (contract.cursor it) :=
  (cursor_commutes contract).current it

theorem handleIterator_read (sendFunc : List Proto.Iterator → Option Err) (bound : Nat) (it : db.Iter)
    (sent : List Proto.Iterator) :
    Handler.handleIterator db.iter sendFunc bound it sent =
      Handler.handleIterator Scan.ops sendFunc bound (contract.cursor it) sent := by
  induction bound generalizing it sent with
  | zero => rfl
  | succ bound ih =>
    have same := current_read contract it
    simp only [Handler.handleIterator, ← same]
    rcases Handler.current db.iter it with ⟨_ | _ | out, after⟩
    · rfl
    · rfl
    · have moved := contract.next after
      change _ = Scan.ops.next _ at moved
      rcases moving : db.iter.next after with ⟨result, next⟩
      rw [moving] at moved
      simp only [Prod.map, id_eq] at moved ⊢
      rw [← moved, moving]
      cases sendFunc sent with
      | some err => rfl
      | none =>
        cases result with
        | none => rfl
        | some _ => exact ih next _

def message (start stop : Slice) (entry : Entry) : Proto.Iterator :=
  ⟨some ⟨start, stop⟩, true, some entry.1, some entry.2⟩

theorem current_scan (start stop : Slice) (entry : Entry) (rest : List Entry) :
    Handler.current Scan.ops ⟨start, stop, entry :: rest⟩ =
      (some (some (message start stop entry)), ⟨start, stop, entry :: rest⟩) := rfl

theorem handleIterator_returns (sendFunc : List Proto.Iterator → Option Err) (scan : Scan) (sent : List Proto.Iterator) :
    (Handler.handleIterator Scan.ops sendFunc (scan.items.length + 1) scan sent).1 ≠ none := by
  obtain ⟨start, stop, items⟩ := scan
  induction items generalizing sent with
  | nil => exact Option.some_ne_none _
  | cons entry rest ih =>
    simp only [List.length_cons, Handler.handleIterator.eq_2, current_scan]
    cases sendFunc sent with
    | some err => exact Option.some_ne_none _
    | none => exact ih _

theorem iteratorWith_returns {method : db.State → Slice → Slice → Option (Except Err db.Iter)} {reverse : Bool}
    (same : ∀ state start stop, (method state start stop).map (Except.map contract.cursor) =
      Plain.scan reverse (contract.contents state) start stop)
    (sendFunc : List Proto.Iterator → Option Err) (state : db.State) (query : Proto.Entity) :
    (Handler.iteratorWith db method sendFunc state query).1 ≠ none := by
  have opened := same state query.start query.stop
  unfold Handler.iteratorWith
  rcases made : method state query.start query.stop with _ | _ | it
  · rw [made] at opened
    cases opened
  · exact Option.some_ne_none _
  · have bound : db.iter.remaining it = (contract.cursor it).items.length := contract.remaining it
    simp only [bound, handleIterator_read contract]
    exact handleIterator_returns sendFunc _ []

end Loop

/-- The first operation that the loop does not get past is there to be refused. -/
def Passable (ops : List Proto.Operation) : Prop :=
  ∀ op, stuckAt ops = some op → op.entity ≠ none

section Server
variable {registry : Registry}

/-- What a request owes: a reply or an error, and an Init that fails changes nothing. -/
structure Survives (process : Process registry) (request : Request registry) : Prop where
  answered : (process.handle request).1 ≠ none
  kept : ∀ inp dbCreator now err, request = .init inp dbCreator now →
    (process.handle request).1 = some (.error err) → (process.handle request).2 = process

/-- Whether a database is held, as told by the requests alone: the last Init succeeded. -/
def readiness (registry : Registry) : Machine Bool (Request registry) Unit where
  step ready request := ((), match request with
    | .init inp dbCreator _ => (newDB registry inp.name inp.type inp.dir dbCreator).isOk
    | _ => ready)

def Admissible (ready : Bool) : Request registry → Prop
  | .init inp dbCreator _ => ready = true → (newDB registry inp.name inp.type inp.dir dbCreator).isOk = true
  | .batchWrite b | .batchWriteSync b => ready = true ∧ Passable b.ops
  | _ => ready = true

structure Serves (process : Process registry) (ready : Bool) : Prop where
  running : ∃ server, process = .running server ∧ server.db.isSome = ready ∧
    ∀ held, server.db = some held → held.type ∈ registry.types

variable (contracts : ∀ type ∈ registry.types, Contract (registry.db type))

private theorem handle_none (request : Request registry) (later : ∀ inp dbCreator now, request ≠ .init inp dbCreator now) :
    (Process.handle (.running ⟨none⟩) request).1 = none := by
  cases request with
  | init inp dbCreator now => exact (later inp dbCreator now rfl).elim
  | _ => rfl

private theorem held_step {request : Request registry} {type : String} {state after : (registry.db type).State}
    (registered : type ∈ registry.types) {status : Status Message}
    (handled : (Server.mk (some ⟨type, state⟩)).handle request = (status, ⟨some ⟨type, after⟩⟩))
    (later : ∀ inp dbCreator now, request ≠ .init inp dbCreator now) (returns : status ≠ none ↔ Admissible true request) :
    (Survives (holding type state) request ↔ Admissible true request) ∧
      (Admissible true request → Serves (Process.handle (holding type state) request).2 true) := by
  rw [← returns]
  cases status with
  | none =>
    have panicked : (Process.handle (holding type state) request).1 = none := by simp only [Process.handle, handled]
    exact ⟨iff_of_false (fun survives => survives.answered panicked) fun absurd => absurd rfl, fun absurd => (absurd rfl).elim⟩
  | some answer =>
    have answered : Process.handle (holding type state) request = (some answer, holding type after) := by
      simp only [Process.handle, handled]
    rw [answered]
    refine ⟨iff_of_true ⟨?_, ?_⟩ (Option.some_ne_none _), fun _ => ?_⟩
    · rw [answered]; exact Option.some_ne_none _
    · exact fun inp dbCreator now _ same => (later inp dbCreator now same).elim
    · exact ⟨_, rfl, rfl, fun held same => by cases same; exact registered⟩

private theorem batchWrite_returns_iff {db : DB} (contract : Contract db) (sync : Bool) (state : db.State) (b : Proto.Batch) :
    (Handler.batchWrite db sync state b).1 ≠ none ↔ Passable b.ops := by
  have outcome := batchWrite_cases contract sync state b.ops
  unfold Passable
  rcases stuck : stuckAt b.ops with _ | ⟨_ | entity, type⟩
  · rw [stuck] at outcome
    rw [outcome.1]
    simp
  · rw [stuck] at outcome
    exact iff_of_false (fun returned => returned outcome) fun passable => passable _ rfl rfl
  · rw [stuck] at outcome
    obtain ⟨err, failed⟩ := outcome
    rw [failed]
    simp

private theorem newDB_registered {name backend dir : String}
    {dbCreator : String → String → Except Err (registry.db backend).State} {held : Held registry}
    (made : newDB registry name backend dir dbCreator = .ok held) : held.type ∈ registry.types := by
  unfold newDB at made
  split at made
  next known =>
    split at made
    · cases made
    · cases made; exact known
  next => cases made

private theorem init_step {server : Server registry} {ready : Bool} (holds : server.db.isSome = ready) (inp : Proto.Init)
    (dbCreator : String → String → Except Err (registry.db inp.type).State) (now : Int) :
    (Survives (.running server) (.init inp dbCreator now) ↔ Admissible ready (.init inp dbCreator now)) ∧
      Serves (Process.handle (.running server) (.init inp dbCreator now)).2
        (newDB registry inp.name inp.type inp.dir dbCreator).isOk := by
  cases made : newDB registry inp.name inp.type inp.dir dbCreator with
  | error err =>
    have failed : Process.handle (.running server) (.init inp dbCreator now) =
        (some (.error err), .running ⟨none⟩) := by simp only [Process.handle, Server.handle, Server.init, made]
    have admissible : Admissible ready (.init inp dbCreator now) ↔ server.db = none := by
      simp [Admissible, made, Except.isOk, Except.toBool, ← holds]
    rw [admissible]
    -- NewDB returned nil with its error, and that is what the server now holds
    refine ⟨⟨fun survives => ?_, fun empty => ⟨?_, ?_⟩⟩, ?_⟩
    · have same := survives.kept inp dbCreator now err rfl (by rw [failed])
      rw [failed] at same
      exact congrArg Server.db (Process.running.inj same).symm
    · rw [failed]; exact Option.some_ne_none _
    · intro _ _ _ _ _ _
      rw [failed]
      obtain ⟨db⟩ := server
      exact congrArg (fun db => Process.running ⟨db⟩) empty.symm
    · rw [failed]
      exact ⟨_, rfl, rfl, fun held same => by cases same⟩
  | ok held =>
    have succeeded : Process.handle (.running server) (.init inp dbCreator now) =
        (some (.ok (.entity { createdAt := now })), .running ⟨some held⟩) := by
      simp only [Process.handle, Server.handle, Server.init, made]
    have admissible : Admissible ready (.init inp dbCreator now) := fun _ => by rw [made]; rfl
    refine ⟨iff_of_true ⟨?_, ?_⟩ admissible, ?_⟩
    · rw [succeeded]; exact Option.some_ne_none _
    · intro _ _ _ _ _ failed
      rw [succeeded] at failed
      cases failed
    · rw [succeeded]
      exact ⟨_, rfl, rfl, fun other same => by cases same; exact newDB_registered made⟩

private theorem absent_step {request : Request registry} (later : ∀ inp dbCreator now, request ≠ .init inp dbCreator now) :
    ¬ Survives (.running ⟨none⟩) request ∧ ¬ Admissible false request := by
  refine ⟨fun survives => survives.answered (handle_none request later), ?_⟩
  cases request with
  | init inp dbCreator now => exact (later inp dbCreator now rfl).elim
  | _ => simp [Admissible]

private theorem present_step {type : String} (contract : Contract (registry.db type)) (registered : type ∈ registry.types)
    (state : (registry.db type).State) {request : Request registry}
    (later : ∀ inp dbCreator now, request ≠ .init inp dbCreator now) :
    (Survives (holding type state) request ↔ Admissible true request) ∧
      (Admissible true request → Serves (Process.handle (holding type state) request).2 true) := by
  cases request with
  | init inp dbCreator now => exact (later inp dbCreator now rfl).elim
  | get | has | set | setSync | delete | deleteSync | stats =>
    refine held_step registered rfl later ?_
    exact iff_of_true (Option.some_ne_none _) rfl
  | iterator query sendFunc =>
    have returned := iteratorWith_returns contract contract.iterator sendFunc state query
    refine held_step registered rfl later ?_
    exact iff_of_true (by simpa [Server.streamed] using returned) rfl
  | reverseIterator query sendFunc =>
    have returned := iteratorWith_returns contract contract.reverseIterator sendFunc state query
    refine held_step registered rfl later ?_
    exact iff_of_true (by simpa [Server.streamed] using returned) rfl
  | batchWrite b =>
    refine held_step registered rfl later ?_
    simpa [Admissible] using batchWrite_returns_iff contract false state b
  | batchWriteSync b =>
    refine held_step registered rfl later ?_
    simpa [Admissible] using batchWrite_returns_iff contract true state b

include contracts in
theorem Serves.step {process : Process registry} {ready : Bool} (serves : Serves process ready)
    (request : Request registry) :
    (Survives process request ↔ Admissible ready request) ∧
      (Admissible ready request → Serves (process.handle request).2 ((readiness registry).step ready request).2) := by
  obtain ⟨⟨db⟩, rfl, rfl, registered⟩ := serves.running
  have others : (∀ inp dbCreator now, request ≠ .init inp dbCreator now) →
      (Survives (.running ⟨db⟩) request ↔ Admissible db.isSome request) ∧
        (Admissible db.isSome request → Serves (Process.handle (.running ⟨db⟩) request).2 db.isSome) := by
    intro later
    cases db with
    | none =>
      obtain ⟨dies, barred⟩ := absent_step later
      exact ⟨iff_of_false dies barred, fun admissible => (barred admissible).elim⟩
    | some held =>
      have known := registered held rfl
      exact present_step (contracts held.type known) known held.state later
  cases request with
  | init inp dbCreator now =>
    obtain ⟨exactly, next⟩ := init_step rfl inp dbCreator now
    exact ⟨exactly, fun _ => next⟩
  | _ => exact others (by simp)

/-- A new server answers every request of a history, and keeps its database through
every failed Init, exactly if no request but Init comes while the last Init, if
any, failed, no Init fails after one that succeeded, and no batch runs into an
operation without an entity. -/
theorem server_survives_iff (contracts : ∀ type ∈ registry.types, Contract (registry.db type))
    (requests : List (Request registry)) :
    (serving registry).Along Survives (.running ⟨none⟩) requests ↔
      (readiness registry).Along Admissible false requests := by
  have initial : Serves (.running (⟨none⟩ : Server registry)) false :=
    ⟨_, rfl, rfl, fun held same => by cases same⟩
  rw [← Machine.paired_left (serving registry) (readiness registry) _ false]
  exact Machine.paired_iff_along _ _ Serves (fun _ _ request serves => (serves.step contracts request).2)
    (fun _ _ request serves => (serves.step contracts request).1) initial requests

end Server

theorem server_survives_failed_init :
    let unknown : Request memRegistry := .init ⟨"nosuchdb", "test", "/tmp"⟩ (fun _ _ => .ok SortedMap.empty) 0
    let requests : List (Request memRegistry) := [unknown, .init ⟨"memdb", "test", "/tmp"⟩ (fun _ _ => .ok SortedMap.empty) 0,
      .set { key := some [1], value := some [2] }, .get { key := some [1] },
      .batchWrite ⟨[⟨some { key := some [1] }, .delete⟩]⟩, .stats 0]
    (serving memRegistry).Along Survives (.running ⟨none⟩) requests := by
  refine (server_survives_iff (fun _ _ => memContract) _).mpr ⟨?_, ?_, rfl, rfl, ⟨rfl, ?_⟩, rfl, trivial⟩
  · exact fun ready => by cases ready
  · exact fun _ => rfl
  · intro op found
    cases found

/-- A request before any Init takes the process down; and so does one after an Init
with an unknown type, which answers with an error and drops the database. -/
theorem server_failed_init_drops :
    let fill : String → String → Except Err Store := fun _ _ => .ok SortedMap.empty
    let made : Request memRegistry := .init ⟨"memdb", "test", "/tmp"⟩ fill 0
    let unknown : Request memRegistry := .init ⟨"nosuchdb", "test", "/tmp"⟩ fill 0
    let stored : Request memRegistry := .set { key := some [1], value := some [2] }
    let start : Process memRegistry := .running ⟨none⟩
    ((serving memRegistry).run start [.get { key := some [1] }]).1 = [none] ∧
      ((serving memRegistry).run start [made, stored, unknown, .get { key := some [1] }]).1 =
        [some (.ok (.entity {})), some (.ok .nothing), some (.error (.unknownBackend "nosuchdb" ["memdb"])), none] :=
  ⟨rfl, rfl⟩

/-- What a batch message owes: success with every operation applied in order, or an
error and an unchanged backend. -/
def AllOrNothing {db : DB} (contract : Contract db) (sync : Bool) (state : db.State) (b : Proto.Batch) : Prop :=
  let result := Handler.batchWrite db sync state b
  (result.1 = some (.ok ()) ∧ ∃ updates, b.ops.map Operation.update? = updates.map some ∧
      contract.contents result.2 = (contract.contents state).applyAll updates) ∨
    (∃ err, result.1 = some (.error err)) ∧ result.2 = state

private theorem map_update? {ops : List Proto.Operation} (taken : ∀ op ∈ ops, Operation.update? op ≠ none) :
    ops.map Operation.update? = (ops.filterMap Operation.update?).map some := by
  induction ops with
  | nil => rfl
  | cons op rest ih =>
    obtain ⟨first, others⟩ := List.forall_mem_cons.mp taken
    obtain ⟨update, made⟩ := Option.ne_none_iff_exists'.mp first
    rw [List.map_cons, List.filterMap_cons_some made, List.map_cons, made, ih others]

/-- The server's batchWrite is all-or-nothing exactly on the messages all of whose
operations a batch takes, and on those where the first SET or DELETE that it does
not take has an entity to be refused for. -/
theorem batchWrite_allOrNothing_iff {db : DB} (contract : Contract db) (sync : Bool) (state : db.State) (b : Proto.Batch) :
    AllOrNothing contract sync state b ↔
      (∀ op ∈ b.ops, Operation.update? op ≠ none) ∨ ∃ op, stuckAt b.ops = some op ∧ op.entity ≠ none := by
  have outcome := batchWrite_cases contract sync state b.ops
  rcases stuck : stuckAt b.ops with _ | ⟨_ | entity, type⟩
  · rw [stuck] at outcome
    constructor
    · rintro (⟨_, updates, same, _⟩ | ⟨⟨err, failed⟩, _⟩)
      · -- an operation of no known type was passed over, and success returned without it
        refine .inl fun op member skipped => ?_
        have listed : Operation.update? op ∈ updates.map some := same ▸ List.mem_map_of_mem member
        simp [skipped] at listed
      · cases outcome.1.symm.trans failed
    · rintro (taken | ⟨op, found, _⟩)
      · exact .inl ⟨outcome.1, _, map_update? taken, outcome.2⟩
      · cases found
  · rw [stuck] at outcome
    refine iff_of_false ?_ ?_
    · rintro (⟨succeeded, _⟩ | ⟨⟨err, failed⟩, _⟩)
      · cases outcome.symm.trans succeeded
      · cases outcome.symm.trans failed
    · rintro (taken | ⟨op, found, present⟩)
      · exact taken _ (List.mem_of_find?_eq_some stuck) (by cases type <;> rfl)
      · cases found
        exact present rfl
  · rw [stuck] at outcome
    obtain ⟨err, failed⟩ := outcome
    refine iff_of_true (.inr ⟨⟨err, ?_⟩, ?_⟩) (.inr ⟨_, rfl, Option.some_ne_none entity⟩)
    · rw [failed]
    · rw [failed]

/-- An operation of type 7 is lost while the caller is told of success; one without an
entity takes the handler down. -/
theorem batchWrite_loses_operation :
    let lost : Proto.Batch := ⟨[⟨some { key := some [1], value := some [2] }, .unnamed 7⟩]⟩
    let absent : Proto.Batch := ⟨[⟨none, .set⟩]⟩
    (Handler.batchWrite memDB false SortedMap.empty lost).1 = some (.ok ()) ∧
      MemDB.get (Handler.batchWrite memDB false SortedMap.empty lost).2 (some [1]) = .ok none ∧
      (Handler.batchWrite memDB false SortedMap.empty absent).1 = none := ⟨rfl, rfl, rfl⟩

end TmDb.Proofs
