import TmDb.Proofs.Companions
import TmDb.Proofs.RemoteIteration

/-! A whole caller of a RemoteDB, with its point calls, its batches and the iterators
it keeps open. As long as it keeps off what the wire confuses and does not move an
iterator past its end, it is answered as the backend would answer it. -/

namespace TmDb.Proofs
open Lib

/-- A remote iterator against the plain one: it stands on the first entry, and the
stream holds the others. -/
inductive Trails : RemoteIter × Stream → Scan → Prop where
  | on {cur : Proto.Iterator} {stream : Stream} {start stop : Slice} (valid : cur.valid = true)
      (others : ∀ item ∈ stream.messages, item.valid = true) :
      Trails (⟨some cur, none⟩, stream) ⟨start, stop, pair cur :: stream.messages.map pair⟩
  | off {err : Err} {stream : Stream} {start stop : Slice} : Trails (⟨none, some err⟩, stream) ⟨start, stop, []⟩

theorem Trails.nextFrom {cur : Option Proto.Iterator} {stream : Stream}
    (valid : ∀ item ∈ stream.messages, item.valid = true) (start stop : Slice) :
    Trails (RemoteIter.nextFrom (⟨cur, none⟩, stream)) ⟨start, stop, stream.messages.map pair⟩ := by
  obtain ⟨messages, last⟩ := stream
  cases messages with
  | nil => exact .off
  | cons item rest => exact .on (valid item List.mem_cons_self) fun other member => valid other (List.mem_cons_of_mem _ member)

theorem Trails.step {it : RemoteIter × Stream} {scan : Scan} (trails : Trails it scan) {call : IterCall}
    (allowed : call = .next → scan.valid = true) :
    ((iteration RemoteIter.ops).step it call).1 = ((iteration Scan.ops).step scan call).1 ∧
      Trails ((iteration RemoteIter.ops).step it call).2 ((iteration Scan.ops).step scan call).2 := by
  cases trails with
  | @on cur stream start stop valid others =>
    have stands : (⟨some cur, none⟩ : RemoteIter).valid = true := by simp [RemoteIter.valid, valid]
    cases call with
    | valid => exact ⟨congrArg (fun ok => IterReply.valid (some ok)) stands, .on valid others⟩
    | key =>
      refine ⟨?_, .on valid others⟩
      simp [iteration, RemoteIter.ops, RemoteIter.key, RemoteIter.asserted, stands, Scan.ops, pair]
    | value =>
      refine ⟨?_, .on valid others⟩
      simp [iteration, RemoteIter.ops, RemoteIter.value, RemoteIter.asserted, stands, Scan.ops, pair]
    | next => exact ⟨rfl, Trails.nextFrom others start stop⟩
  | off =>
    cases call with
    | valid => exact ⟨rfl, .off⟩
    | key => exact ⟨rfl, .off⟩
    | value => exact ⟨rfl, .off⟩
    | next => cases allowed rfl

theorem Trails.error {it : RemoteIter × Stream} {scan : Scan} (trails : Trails it scan) (valid : scan.valid = true) :
    RemoteIter.ops.error it = none := by
  cases trails with
  | on => rfl
  | off => cases valid

theorem handleIterator_sends (start stop : Slice) (items : List Entry) (sent : List Proto.Iterator) :
    Handler.handleIterator Scan.ops (fun _ => none) (items.length + 1) ⟨start, stop, items⟩ sent =
      (some (.ok ()), sent ++ items.map (message start stop)) := by
  induction items generalizing sent with
  | nil => simp [Handler.handleIterator, Handler.current, andThen, Scan.ops, Scan.valid]
  | cons entry rest ih =>
    rw [Handler.handleIterator, current_scan]
    change Handler.handleIterator Scan.ops _ (rest.length + 1) ⟨start, stop, rest⟩ (sent ++ [message start stop entry]) = _
    rw [ih, List.append_assoc, List.map_cons, List.singleton_append]

theorem Trails.arrived (start stop : Slice) (items : List Entry) :
    Trails (RemoteIter.make ⟨(items.map (message start stop)).map Proto.Iterator.wire, .eof⟩) ⟨start, stop, items⟩ := by
  have valid : ∀ item ∈ (items.map (message start stop)).map Proto.Iterator.wire, item.valid = true := by
    intro item member
    obtain ⟨out, sent, rfl⟩ := List.mem_map.mp member
    obtain ⟨entry, _, rfl⟩ := List.mem_map.mp sent
    rfl
  have pairs : ((items.map (message start stop)).map Proto.Iterator.wire).map pair = items := by
    rw [List.map_map, List.map_map]
    exact (List.map_congr_left fun entry _ => by simp [pair, message, Proto.Iterator.wire]).trans (List.map_id items)
  have ahead := @Trails.nextFrom none ⟨(items.map (message start stop)).map Proto.Iterator.wire, .eof⟩ valid start stop
  rw [pairs] at ahead
  exact ahead

section Opening
variable {registry : Registry} {type : String} (contract : Contract (registry.db type))

theorem iteratorWith_trails (reverse : Bool) {state direct : (registry.db type).State}
    (same : contract.contents state = contract.contents direct) {start stop : Slice} (bounded : start ≠ some [])
    (below : stop ≠ some []) :
    ∃ it other, opener (remoteDB registry) reverse (holding type state) start stop = some (.ok it) ∧
      opener (registry.db type) reverse direct start stop = some (.ok other) ∧ Trails it (contract.cursor other) := by
  have accepted : checkBounds start stop = .ok () := checkBounds_ok.mpr ⟨bounded, below⟩
  obtain ⟨served, made, ahead⟩ := opener_scan contract reverse state accepted
  obtain ⟨other, opened, at_⟩ := opener_scan contract reverse direct accepted
  have asked : Proto.Entity.wire { start := start, stop := stop } = { start := start, stop := stop } := by
    simp [Proto.Entity.wire, Slice.wire_of_ne bounded, Slice.wire_of_ne below]
  have sends : Handler.iteratorWith (registry.db type) (opener (registry.db type) reverse) (fun _ => none) state
      { start := start, stop := stop } =
      (some (.ok ()), (Store.scan (contract.contents state) start stop reverse).map (message start stop)) := by
    have bound : (registry.db type).iter.remaining served = (contract.cursor served).items.length := contract.remaining served
    simp only [Handler.iteratorWith, made]
    rw [handleIterator_read contract, bound, ← ahead, handleIterator_sends, List.nil_append]
  have stream : RemoteDB.stream reverse (holding type state) { start := start, stop := stop } =
      ⟨((Store.scan (contract.contents state) start stop reverse).map (message start stop)).map Proto.Iterator.wire, .eof⟩ := by
    simp only [RemoteDB.stream, sends]
  have remote : opener (remoteDB registry) reverse (holding type state) start stop =
      some (.ok (RemoteIter.make (RemoteDB.stream reverse (holding type state)
        (Proto.Entity.wire { start := start, stop := stop })))) := by
    cases reverse <;> rfl
  refine ⟨_, other, remote, opened, ?_⟩
  rw [asked, stream, ← at_, ← same]
  exact .arrived start stop _

end Opening

def Filled (store : Store) : Prop := ∀ key, store.get? key ≠ some []

def Pending.Filled (pending : Pending) : Prop := ∀ updates, pending = some updates → ∀ key, Update.set key [] ∉ updates

theorem Filled.insert {store : Store} (filled : Filled store) (key : Bytes) {value : Bytes} (nonempty : value ≠ []) :
    Filled (store.insert key value) := by
  intro other
  rw [SortedMap.get?_insert]
  split
  · simpa using nonempty
  · exact filled other

theorem Filled.erase {store : Store} (filled : Filled store) (key : Bytes) : Filled (store.erase key) := by
  intro other
  rw [SortedMap.get?_erase]
  split
  · exact nofun
  · exact filled other

theorem Filled.applyAll {store : Store} (filled : Filled store) {updates : List (Update Bytes Bytes)}
    (nonempty : ∀ key, Update.set key [] ∉ updates) : Filled (store.applyAll updates) := by
  induction updates generalizing store with
  | nil => exact filled
  | cons update rest ih =>
    have later : ∀ key, Update.set key [] ∉ rest := fun key member => nonempty key (List.mem_cons_of_mem _ member)
    cases update with
    | set key value =>
      have first : value ≠ [] := fun empty => nonempty key (empty ▸ List.mem_cons_self)
      exact ih (filled.insert key first) later
    | delete key => exact ih (filled.erase key) later

theorem Plain.set_filled {store : Store} (filled : Filled store) (key : Slice) {value : Slice} (nonempty : value ≠ some []) :
    Filled (Plain.set store key value).2 := by
  unfold Plain.set
  rcases checkPair_cases key value with ⟨err, refused⟩ | ⟨_, content, rfl, checked⟩
  · rw [refused]
    exact filled
  · rw [checked]
    exact filled.insert _ fun empty => nonempty (empty ▸ rfl)

theorem Plain.delete_filled {store : Store} (filled : Filled store) (key : Slice) : Filled (Plain.delete store key).2 := by
  unfold Plain.delete
  cases checkKey key with
  | error err => exact filled
  | ok key => exact filled.erase key

/-- Calls on a batch that the wire does not change. -/
def BatchUse.Careful : BatchUse → Prop
  | set key value => key.len ≠ 0 ∧ value ≠ none ∧ value ≠ some []
  | delete key => key.len ≠ 0
  | write _ | close => True

theorem BatchUse.Careful.deliverable {call : BatchUse} (careful : call.Careful) {pending : Pending}
    (filled : Pending.Filled pending) : call.Deliverable pending := by
  cases call with
  | set key value => exact fun _ => ⟨careful.1, careful.2.1⟩
  | delete key => exact fun _ => careful
  | write sync => exact filled
  | close => exact trivial

theorem Pending.Filled.append {updates : List (Update Bytes Bytes)} (filled : Pending.Filled (some updates))
    {update : Update Bytes Bytes} (nonempty : ∀ key, update ≠ .set key []) :
    Pending.Filled (some (updates ++ [update])) := by
  intro _ same key member
  cases same
  rcases List.mem_append.mp member with earlier | last
  · exact filled updates rfl key earlier
  · exact nonempty key (List.mem_singleton.mp last).symm

theorem Pending.set_filled {pending : Pending} (filled : Pending.Filled pending) (key : Slice) {value : Slice}
    (nonempty : value ≠ some []) : Pending.Filled (Pending.set pending key value).2 := by
  unfold Pending.set
  rcases checkPair_cases key value with ⟨err, refused⟩ | ⟨_, content, rfl, checked⟩
  · rw [refused]
    exact filled
  · rw [checked]
    cases pending with
    | none => exact filled
    | some updates =>
      refine filled.append fun other same => nonempty ?_
      rw [(Update.set.inj same).2]

theorem Pending.delete_filled {pending : Pending} (filled : Pending.Filled pending) (key : Slice) :
    Pending.Filled (Pending.delete pending key).2 := by
  unfold Pending.delete
  cases checkKey key with
  | error err => exact filled
  | ok key =>
    cases pending with
    | none => exact filled
    | some updates => exact filled.append nofun

theorem Pending.write_filled {store : Store} (stored : Proofs.Filled store) {pending : Pending}
    (filled : Pending.Filled pending) :
    Proofs.Filled (Pending.write store pending).2.1 ∧ Pending.Filled (Pending.write store pending).2.2 := by
  cases pending with
  | none => exact ⟨stored, filled⟩
  | some updates => exact ⟨stored.applyAll (filled updates rfl), nofun⟩

section Batch
variable {db : DB} (contract : Contract db)

theorem BatchUse.Careful.filled {call : BatchUse} (careful : call.Careful) {state : db.State} {batch : db.Batch}
    (stored : Filled (contract.contents state)) (waiting : Pending.Filled (contract.pending batch)) :
    Filled (contract.contents (call.step db (state, batch)).2.1) ∧
      Pending.Filled (contract.pending (call.step db (state, batch)).2.2) := by
  cases call with
  | set key value =>
    have filled := Pending.set_filled waiting key careful.2.2
    have read : _ = Pending.set _ key value := contract.batchSet batch key value
    rw [← read] at filled
    exact ⟨stored, filled⟩
  | delete key =>
    have filled := Pending.delete_filled waiting key
    have read : _ = Pending.delete _ key := contract.batchDelete batch key
    rw [← read] at filled
    exact ⟨stored, filled⟩
  | write sync =>
    have filled := Pending.write_filled stored waiting
    rw [← commit_read contract sync state batch] at filled
    exact filled
  | close =>
    have closed : contract.pending (db.batch.close batch).2 = none := congrArg Prod.snd (contract.batchClose batch)
    refine ⟨stored, fun updates held => ?_⟩
    cases closed.symm.trans held

end Batch

theorem checkKey_wire (key : Slice) : checkKey key.wire = checkKey key := by
  simp [checkKey, Slice.len]

theorem checkPair_wire (key : Slice) {value : Slice} (nonempty : value ≠ some []) :
    checkPair key.wire value.wire = checkPair key value := by
  simp [checkPair, Slice.len, Slice.wire_of_ne nonempty]

section Remote
variable {registry : Registry} {type : String}

theorem get_relayed (state : (registry.db type).State) (key : Slice) :
    Alike (RemoteDB.get (holding type state) key) (((registry.db type).get state key.wire).map Slice.wire) := by
  simp only [RemoteDB.get, unary, Process.handle, Server.handle, Server.onDB, Handler.get, Proto.Entity.wire]
  cases (registry.db type).get state key.wire <;> rfl

theorem has_relayed (state : (registry.db type).State) (key : Slice) :
    Alike (RemoteDB.has (holding type state) key) ((registry.db type).has state key.wire) := by
  simp only [RemoteDB.has, unary, Process.handle, Server.handle, Server.onDB, Handler.has, Proto.Entity.wire]
  cases (registry.db type).has state key.wire <;> rfl

variable (contract : Contract (registry.db type))

/-- A remote batch and the backend's own: in step, whatever the server holds. -/
structure Carries (batch : RemoteBatch) (own : (registry.db type).Batch) : Prop where
  inStep : ∀ state, InStep contract (holding type state, batch) (state, own)
  filled : Pending.Filled (contract.pending own)

def Relayed (process : Process registry) (direct : (registry.db type).State) : Prop :=
  (∃ state, process = holding type state ∧ contract.contents state = contract.contents direct) ∧
    Filled (contract.contents direct)

/-- What a caller of a RemoteDB keeps to. An empty value or bound arrives as nil, and only
the server would refuse what a batch is given. Past its end an iterator does not
panic, and reports the end of the stream as an error. -/
def careful (db : DB) : Custom db where
  writes _ value := value ≠ some []
  uses _ := BatchUse.Careful
  bounds start stop := start ≠ some [] ∧ stop ≠ some []
  stands it := (db.iter.valid it).1 = some true

variable {contract}

namespace Relayed
variable {process : Process registry} {direct : (registry.db type).State}

private theorem write {answer : Except Err Unit × Process registry}
    {served own : Except Err Unit × (registry.db type).State} {expected : Except Err Unit × Store}
    (relayed : Alike answer.1 served.1 ∧ answer.2 = holding type served.2)
    (first : served.map id contract.contents = expected) (second : own.map id contract.contents = expected)
    (kept : Filled expected.2) : Ends (Relayed contract) answer own := by
  subst second
  obtain ⟨result, contents⟩ := Prod.mk.inj first
  have same : served.1 = own.1 := result
  have alike := relayed.1
  rw [same] at alike
  exact ⟨alike, ⟨served.2, relayed.2, contents⟩, kept⟩

private theorem lookup (relayed : Relayed contract process direct) (key : Slice) :
    Alike (RemoteDB.get process key) ((registry.db type).get direct key) := by
  obtain ⟨⟨state, rfl, same⟩, filled⟩ := relayed
  have answer := get_relayed state key
  have served : (registry.db type).get state key.wire = (checkKey key).map (contract.contents direct).get? := by
    rw [contract.get, ← checkKey_wire, ← same]
    rfl
  have own : (registry.db type).get direct key = (checkKey key).map (contract.contents direct).get? := contract.get direct key
  rw [own]
  rw [served] at answer
  cases checked : checkKey key with
  | error err =>
    rw [checked] at answer
    exact answer
  | ok bytes =>
    rw [checked] at answer
    exact answer.trans (congrArg some (Slice.wire_of_ne (filled bytes)))

private theorem present (relayed : Relayed contract process direct) (key : Slice) :
    Alike (RemoteDB.has process key) ((registry.db type).has direct key) := by
  obtain ⟨⟨state, rfl, same⟩, _⟩ := relayed
  have answer := has_relayed state key
  have served : (registry.db type).has state key.wire = (registry.db type).has direct key := by
    rw [contract.has, contract.has, ← same]
    exact congrArg (Except.map _) (checkKey_wire key)
  rwa [served] at answer

private theorem set (relayed : Relayed contract process direct) (key : Slice) {value : Slice} (nonempty : value ≠ some []) :
    Ends (Relayed contract) (RemoteDB.set process key value) ((registry.db type).set direct key value) ∧
      Ends (Relayed contract) (RemoteDB.setSync process key value) ((registry.db type).setSync direct key value) := by
  obtain ⟨⟨state, rfl, same⟩, filled⟩ := relayed
  have arrives : Plain.set (contract.contents state) key.wire value.wire = Plain.set (contract.contents direct) key value := by
    simp only [Plain.set, checkPair_wire key nonempty, same]
  have kept := Plain.set_filled filled key nonempty
  exact ⟨write (set_holding state key value) ((contract.set ..).trans arrives) (contract.set ..) kept,
    write (setSync_holding state key value) ((contract.setSync ..).trans arrives) (contract.setSync ..) kept⟩

private theorem delete (relayed : Relayed contract process direct) (key : Slice) :
    Ends (Relayed contract) (RemoteDB.delete process key) ((registry.db type).delete direct key) ∧
      Ends (Relayed contract) (RemoteDB.deleteSync process key) ((registry.db type).deleteSync direct key) := by
  obtain ⟨⟨state, rfl, same⟩, filled⟩ := relayed
  have arrives : Plain.delete (contract.contents state) key.wire = Plain.delete (contract.contents direct) key := by
    simp only [Plain.delete, checkKey_wire, same]
  have kept := Plain.delete_filled filled key
  exact ⟨write (delete_holding state key) ((contract.delete ..).trans arrives) (contract.delete ..) kept,
    write (deleteSync_holding state key) ((contract.deleteSync ..).trans arrives) (contract.deleteSync ..) kept⟩

private theorem use (relayed : Relayed contract process direct) {batch : RemoteBatch} {own : (registry.db type).Batch}
    (carries : Carries contract batch own) {call : BatchUse} (careful : call.Careful) :
    Ends (fun first second => Relayed contract first.1 second.1 ∧ Carries contract first.2 second.2)
      (call.step (remoteDB registry) (process, batch)) (call.step (registry.db type) (direct, own)) := by
  obtain ⟨⟨state, held, same⟩, filled⟩ := relayed
  have inStep : InStep contract (process, batch) (direct, own) := ⟨⟨state, held, same⟩, (carries.inStep state).batch⟩
  have deliverable := careful.deliverable carries.filled
  obtain ⟨alike, next⟩ := inStep.use contract call
  obtain ⟨stored, waiting⟩ := careful.filled contract filled carries.filled
  have after := next deliverable
  exact ⟨alike.mpr deliverable, ⟨after.process, stored⟩, fun state => ⟨⟨state, rfl, rfl⟩, after.batch⟩, waiting⟩

end Relayed

variable (contract)

theorem newBatch_carried : Carries contract (some []) (registry.db type).newBatch := by
  have empty : contract.pending (registry.db type).newBatch = some [] := contract.newBatch
  refine ⟨fun state => ⟨⟨state, rfl, rfl⟩, by simp, by simp, empty⟩, fun updates held => ?_⟩
  cases empty.symm.trans held
  simp

private theorem cursor_valid {it : (registry.db type).Iter} (valid : ((registry.db type).iter.valid it).1 = some true) :
    (contract.cursor it).valid = true := by
  have read : ((registry.db type).iter.valid it).1 = some (contract.cursor it).valid := congrArg Prod.fst (contract.valid it)
  exact Option.some.inj (read.symm.trans valid)

theorem remoteDB_companions :
    @Companions (remoteDB registry) (registry.db type) (careful (registry.db type)) (Relayed contract) (Carries contract)
      fun it other => Trails it (contract.cursor other) where
  get relayed := relayed.lookup
  has relayed := relayed.present
  set relayed _ _ nonempty := (relayed.set _ nonempty).1
  setSync relayed _ _ nonempty := (relayed.set _ nonempty).2
  delete relayed key := (relayed.delete key).1
  deleteSync relayed key := (relayed.delete key).2
  newBatch := newBatch_carried contract
  use relayed carries _ careful := relayed.use carries careful
  opens := by
    intro process direct relayed reverse start stop bounds
    obtain ⟨⟨state, rfl, same⟩, _⟩ := relayed
    obtain ⟨it, other, opened, made, trails⟩ := iteratorWith_trails contract reverse same bounds.1 bounds.2
    exact .of_made opened made trails
  iterate := by
    intro it other trails call stands
    obtain ⟨answer, onward⟩ := trails.step fun next => cursor_valid contract (stands next)
    obtain ⟨own, after⟩ := (Contract.scanning contract).simulates other _ call rfl
    refine ⟨answer.trans own.symm, ?_⟩
    exact after ▸ onward
  error := by
    intro it other trails valid
    have quiet : (registry.db type).iter.error other = none := contract.error other
    exact (trails.error (cursor_valid contract valid)).trans quiet.symm

/-- A careful caller of a RemoteDB is answered as the backend would answer it, call
by call, and leaves the server with what it would have left in the backend. -/
theorem remote_browsing_alike (state : (registry.db type).State) (filled : Filled (contract.contents state))
    (calls : List Browse)
    (along : (browsing (registry.db type)).Along (careful (registry.db type)).Allows (Browser.start state) calls) :
    let remote := (browsing (remoteDB registry)).run (Browser.start (holding type state)) calls
    let direct := (browsing (registry.db type)).run (Browser.start state) calls
    List.Forall₂ BrowseReply.Alike remote.1 direct.1 ∧
      ∃ after, remote.2.session.state = holding type after ∧
        contract.contents after = contract.contents direct.2.session.state := by
  intro remote direct
  have initial : Relayed contract (holding type state) state := ⟨⟨state, rfl, rfl⟩, filled⟩
  obtain ⟨answers, last⟩ := (remoteDB_companions contract).run initial along
  exact ⟨answers, last.1⟩

end Remote

/-- Two keys, an iterator that is moved on after the first of them is deleted, and a
batch that is written under it. -/
theorem remote_browsing_alike_overwritten :
    let calls := [Browse.call (.set (some [1]) (some [2])), .call (.set (some [3]) (some [4])),
      .iterator 0 false none none, .call (.delete (some [1])), .use 0 .key, .use 0 .next, .call (.newBatch 1),
      .call (.batchSet 1 (some [3]) (some [5])), .call (.batchWrite 1), .use 0 .value, .call (.get (some [3]))]
    let remote := (browsing (remoteDB memRegistry)).run (Browser.start (holding "memdb" SortedMap.empty)) calls
    let direct := (browsing memDB).run (Browser.start SortedMap.empty) calls
    List.Forall₂ BrowseReply.Alike remote.1 direct.1 ∧
      ∃ after, remote.2.session.state = holding "memdb" after ∧
        memContract.contents after = memContract.contents direct.2.session.state := by
  intro calls
  refine @remote_browsing_alike memRegistry "memdb" memContract SortedMap.empty (fun key => nofun) calls ?_
  refine ⟨?_, ?_, ?_, trivial, trivial, ?_, trivial, ?_, fun _ _ => trivial, trivial, trivial, trivial⟩
  · exact fun empty => by cases empty
  · exact fun empty => by cases empty
  · exact ⟨nofun, nofun⟩
  · intro it held
    cases held
    rfl
  · exact fun _ _ => ⟨by decide, nofun, fun empty => by cases empty⟩

end TmDb.Proofs
