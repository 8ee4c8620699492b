import TmDb.Proofs.BackendFaults
import TmDb.Proofs.BadgerCursor
import TmDb.Proofs.Companions

/-! BadgerDB in place of another backend. As long as nothing fails, its caller is
answered alike. The channel firstFlush keeps, of a batch, what the other backends keep
in a nil pointer. -/

namespace TmDb.Proofs
open Lib

/-- What the batch relies on in badger's WriteBatch: `holds` for one that has gathered
updates, `ended` for one that is flushed or cancelled and takes nothing more. `fits` are
the updates that one transaction of badger's takes, by their keys, sizes and number. Given
more, a WriteBatch commits a part by itself, and nothing is said of it. -/
structure Gathers (api : WriteBatch) (fits : List (Update Bytes Bytes) → Prop)
    (holds : api.State → List (Update Bytes Bytes) → Prop) (ended : api.State → Prop) : Prop where
  new : holds api.new []
  set : ∀ {wb updates}, holds wb updates → ∀ {key value}, fits (updates ++ [.set key value]) →
    ∃ after, api.set wb key value = (.ok (), after) ∧ holds after (updates ++ [.set key value])
  delete : ∀ {wb updates}, holds wb updates → ∀ {key}, fits (updates ++ [.delete key]) →
    ∃ after, api.delete wb key = (.ok (), after) ∧ holds after (updates ++ [.delete key])
  flush : ∀ {wb updates}, holds wb updates → ∀ engine : Engine,
    ∃ after, api.flush engine wb = ((engine.write updates).1, (engine.write updates).2, after) ∧ ended after
  cancel : ∀ wb, ended (api.cancel wb)
  setEnded : ∀ {wb}, ended wb → ∀ key value, ∃ err after, api.set wb key value = (.error err, after) ∧ ended after
  deleteEnded : ∀ {wb}, ended wb → ∀ key, ∃ err after, api.delete wb key = (.error err, after) ∧ ended after

def Fitting (fits : List (Update Bytes Bytes) → Prop) (pending : Pending) : Prop :=
  ∀ updates, pending = some updates → fits updates

variable {api : WriteBatch} {fits : List (Update Bytes Bytes) → Prop}
variable {holds : api.State → List (Update Bytes Bytes) → Prop} {ended : api.State → Prop}

inductive Gathering (holds : api.State → List (Update Bytes Bytes) → Prop) (ended : api.State → Prop) :
    BadgerBatch api → Pending → Prop where
  | waiting {wb updates} (held : holds wb updates) (keyed : ∀ update ∈ updates, update.key ≠ []) :
      Gathering holds ended ⟨wb, true⟩ (some updates)
  | finished {wb} (done : ended wb) : Gathering holds ended ⟨wb, false⟩ none

/-- What a call on a batch leaves there to be written, if nothing fails. -/
def BatchUse.leaves (pending : Pending) : BatchUse → Pending
  | .set key value => (Pending.set pending key value).2
  | .delete key => (Pending.delete pending key).2
  | .write _ | .close => none

/-- The engine of a BadgerDB and the plain map. -/
structure Contains (engine : Engine) (store : Store) : Prop where
  same : engine.store = store
  keyed : NoEmptyKey engine

structure Healthy (engine : Engine) (store : Store) : Prop extends Contains engine store where
  reliable : engine.faults = []

section Engine
variable {engine : Engine}

theorem badger_get (key : Slice) : BadgerDB.get engine key = Plain.get engine.store key := by
  unfold BadgerDB.get Plain.get
  cases checkKey key <;> rfl

theorem badger_has (key : Slice) : BadgerDB.has engine key = Plain.has engine.store key := by
  unfold BadgerDB.has Plain.has
  cases checkKey key <;> rfl

private theorem withSync_reliable {result : Except Err Unit × Engine} (reliable : result.2.faults = []) :
    BadgerDB.withSync result = result := by
  obtain ⟨_ | _, engine⟩ := result
  · rfl
  · obtain ⟨store, faults⟩ := engine
    obtain rfl : faults = [] := reliable
    rfl

end Engine

namespace Healthy
variable {engine : Engine} {store : Store} (healthy : Healthy engine store)
include healthy

private theorem write (updates : List (Update Bytes Bytes)) (others : ∀ update ∈ updates, update.key ≠ []) :
    (engine.write updates).1 = .ok () ∧ Healthy (engine.write updates).2 (store.applyAll updates) := by
  have kept := write_keyed healthy.keyed others
  obtain ⟨⟨rfl, _⟩, reliable⟩ := healthy
  have made : engine.write updates = (.ok (), ⟨engine.store.applyAll updates, []⟩) := by
    simp [Engine.write, Engine.fault, reliable]
  rw [made] at kept ⊢
  exact ⟨rfl, ⟨rfl, kept⟩, rfl⟩

private theorem set (key value : Slice) : Ends Healthy (BadgerDB.set engine key value) (Plain.set store key value) := by
  unfold BadgerDB.set Plain.set
  rcases checkPair_cases key value with ⟨err, refused⟩ | ⟨nonempty, content, rfl, checked⟩
  · rw [refused]
    exact ⟨rfl, healthy⟩
  · rw [checked]
    obtain ⟨answer, after⟩ := healthy.write [.set key.bytes content] (by simpa [Update.key] using nonempty)
    exact ⟨congrArg Except.toOption answer, after⟩

private theorem delete (key : Slice) : Ends Healthy (BadgerDB.delete engine key) (Plain.delete store key) := by
  unfold BadgerDB.delete Plain.delete
  rcases checkKey_cases key with refused | ⟨nonempty, checked⟩
  · rw [refused]
    exact ⟨rfl, healthy⟩
  · rw [checked]
    obtain ⟨answer, after⟩ := healthy.write [.delete key.bytes] (by simpa [Update.key] using nonempty)
    exact ⟨congrArg Except.toOption answer, after⟩

end Healthy

private theorem Ends.synced {result : Except Err Unit × Engine} {expected : Except Err Unit × Store}
    (ends : Ends Healthy result expected) : Ends Healthy (BadgerDB.withSync result) expected := by
  rwa [withSync_reliable ends.2.reliable]

theorem write_flushed (gathers : Gathers api fits holds ended) {wb : api.State} {updates : List (Update Bytes Bytes)}
    (held : holds wb updates) (engine : Engine) : ∃ after, ended after ∧
      BadgerBatch.write api engine ⟨wb, true⟩ = ((engine.write updates).1, (engine.write updates).2, ⟨after, false⟩) := by
  obtain ⟨after, flushed, done⟩ := gathers.flush held engine
  exact ⟨after, done, by simp [BadgerBatch.write, flushed]⟩

section Batch
variable (gathers : Gathers api fits holds ended) {own : BadgerBatch api} {pending : Pending}
variable (gathering : Gathering holds ended own pending)
include gathers gathering

theorem set_gathered {key value : Slice} (room : Fitting fits (Pending.set pending key value).2) :
    Ends (Gathering holds ended) (BadgerBatch.set api own key value) (Pending.set pending key value) := by
  unfold BadgerBatch.set
  unfold Pending.set at room ⊢
  rcases checkPair_cases key value with ⟨err, refused⟩ | ⟨nonempty, content, rfl, checked⟩
  · rw [refused]
    exact ⟨rfl, gathering⟩
  · rw [checked] at room ⊢
    cases gathering with
    | waiting held keyed =>
      obtain ⟨after, made, gathered⟩ := gathers.set held (room _ rfl)
      simp only [made]
      exact ⟨rfl, .waiting gathered (List.forall_mem_append.mpr ⟨keyed, by simpa [Update.key] using nonempty⟩)⟩
    | finished done =>
      obtain ⟨err, after, failed, still⟩ := gathers.setEnded done key.bytes content
      simp only [failed]
      exact ⟨rfl, .finished still⟩

theorem delete_gathered {key : Slice} (room : Fitting fits (Pending.delete pending key).2) :
    Ends (Gathering holds ended) (BadgerBatch.delete api own key) (Pending.delete pending key) := by
  unfold BadgerBatch.delete
  unfold Pending.delete at room ⊢
  rcases checkKey_cases key with refused | ⟨nonempty, checked⟩
  · rw [refused]
    exact ⟨rfl, gathering⟩
  · rw [checked] at room ⊢
    cases gathering with
    | waiting held keyed =>
      obtain ⟨after, made, gathered⟩ := gathers.delete held (room _ rfl)
      simp only [made]
      exact ⟨rfl, .waiting gathered (List.forall_mem_append.mpr ⟨keyed, by simpa [Update.key] using nonempty⟩)⟩
    | finished done =>
      obtain ⟨err, after, failed, still⟩ := gathers.deleteEnded done key.bytes
      simp only [failed]
      exact ⟨rfl, .finished still⟩

variable {engine : Engine} {store : Store} (healthy : Healthy engine store)
include healthy

private theorem write_gathered (sync : Bool) :
    Ends (fun first second => Healthy first.1 second.1 ∧ Gathering holds ended first.2 second.2)
      (commit (badgerDB api) sync engine own) (commit plain sync store pending) := by
  have expects : commit plain sync store pending = Pending.write store pending := by cases sync <;> rfl
  rw [expects]
  cases gathering with
  | @finished wb done =>
    have refused : commit (badgerDB api) sync engine ⟨wb, false⟩ = (.error .batchFlushed, engine, ⟨wb, false⟩) := by
      cases sync <;> rfl
    rw [refused]
    exact ⟨rfl, healthy, .finished done⟩
  | @waiting wb updates held others =>
    obtain ⟨after, done, writes⟩ := write_flushed gathers held engine
    obtain ⟨answer, kept⟩ := healthy.write updates others
    have made : commit (badgerDB api) sync engine ⟨wb, true⟩ =
        ((engine.write updates).1, (engine.write updates).2, ⟨after, false⟩) := by
      cases sync with
      | false => exact writes
      | true =>
        have synced : BadgerDB.withSync ((engine.write updates).1, (engine.write updates).2) = engine.write updates :=
          withSync_reliable kept.reliable
        change BadgerBatch.writeSync api engine ⟨wb, true⟩ = _
        simp only [BadgerBatch.writeSync, writes, synced]
        rfl
    rw [made]
    exact ⟨congrArg Except.toOption answer, kept, .finished done⟩

private theorem use_gathered {call : BatchUse} (room : Fitting fits (call.leaves pending)) :
    Ends (fun first second => Healthy first.1 second.1 ∧ Gathering holds ended first.2 second.2)
      (call.step (badgerDB api) (engine, own)) (call.step plain (store, pending)) := by
  cases call with
  | set key value =>
    obtain ⟨alike, kept⟩ := set_gathered gathers gathering room
    exact ⟨alike, healthy, kept⟩
  | delete key =>
    obtain ⟨alike, kept⟩ := delete_gathered gathers gathering room
    exact ⟨alike, healthy, kept⟩
  | write sync => exact write_gathered gathers gathering healthy sync
  | close => exact ⟨rfl, healthy, .finished (gathers.cancel own.wb)⟩

end Batch

private theorem step_ahead {first second : Scan} (same : first.items = second.items) (call : IterCall) :
    ((iteration Scan.ops).step first call).1 = ((iteration Scan.ops).step second call).1 ∧
      ((iteration Scan.ops).step first call).2.items = ((iteration Scan.ops).step second call).2.items := by
  obtain ⟨start, stop, items⟩ := first
  obtain ⟨other, bound, _⟩ := second
  subst same
  cases call <;> cases items <;> simp [iteration, Scan.ops, Scan.valid]

private theorem checkBounds_swap (start stop : Slice) : checkBounds start stop = checkBounds stop start := by
  simp only [checkBounds, or_comm]

def Ahead (it : BadgerIter) (scan : Scan) : Prop := (BadgerIter.scan it).items = scan.items

theorem iterate_ahead : (iteration BadgerIter.ops).Simulates (iteration Scan.ops) Ahead := by
  intro it other call ahead
  obtain ⟨answer, after⟩ := BadgerIter.ops_scanning.simulates it _ call rfl
  obtain ⟨same, kept⟩ := step_ahead ahead call
  exact ⟨answer.trans same, (congrArg Scan.items after).symm.trans kept⟩

theorem opened_ahead {engine : Engine} {store : Store} (contains : Contains engine store) (reverse : Bool)
    (start stop : Slice) :
    @Opened (badgerDB api) plain Ahead (opener (badgerDB api) reverse engine start stop)
      (opener plain reverse store start stop) := by
  obtain ⟨rfl, keyed⟩ := contains
  rw [opener_plain, Plain.scan]
  cases bounds : checkBounds start stop with
  | ok _ =>
    obtain ⟨it, made, ahead⟩ := BadgerIter.opened_scan engine keyed bounds reverse
    have opens : opener (badgerDB api) reverse engine start stop = some (.ok it) := by cases reverse <;> exact made
    exact .of_made opens rfl ahead
  | error err =>
    refine .of_refused ?_ rfl
    cases reverse with
    | false => simp [opener, badgerDB, BadgerDB.iterator, BadgerDB.iteratorOpts, bounds]
    | true => simp [opener, badgerDB, BadgerDB.reverseIterator, BadgerDB.iteratorOpts, checkBounds_swap stop, bounds]

/-- A caller that gives no batch more than fits, and keeps to nothing else. -/
def roomy (fits : List (Update Bytes Bytes) → Prop) : Custom plain where
  writes _ _ := True
  uses pending call := Fitting fits (call.leaves pending)
  bounds _ _ := True
  stands _ := True

theorem badgerDB_companions (gathers : Gathers api fits holds ended) :
    @Companions (badgerDB api) plain (roomy fits) Healthy (Gathering holds ended) Ahead where
  get healthy key := congrArg Except.toOption (healthy.same ▸ badger_get key)
  has healthy key := congrArg Except.toOption (healthy.same ▸ badger_has key)
  set healthy key value _ := healthy.set key value
  setSync healthy key value _ := (healthy.set key value).synced
  delete healthy key := healthy.delete key
  deleteSync healthy key := (healthy.delete key).synced
  newBatch := .waiting gathers.new (by simp)
  use healthy gathering _ room := use_gathered gathers gathering healthy room
  opens healthy reverse start stop _ := opened_ahead healthy.toContains reverse start stop
  iterate := by
    intro it other ahead call _
    exact iterate_ahead it other call ahead
  error := fun _ _ => rfl

/-- What a call makes of the updates that the batch of that name is to write. -/
def Browse.asks (name : Nat) (sofar : Pending) : Browse → Pending
  | .call (.newBatch other) => if other = name then some [] else sofar
  | .call (.batchSet other key value) => uses other (.set key value)
  | .call (.batchDelete other key) => uses other (.delete key)
  | .call (.batchWrite other) => uses other (.write false)
  | .call (.batchWriteSync other) => uses other (.write true)
  | .call (.batchClose other) => uses other .close
  | _ => sofar
where
  uses (other : Nat) (call : BatchUse) : Pending := if other = name then call.leaves sofar else sofar

/-- What the batch of that name has been given since it was made, if it is not written or closed. -/
def asked (name : Nat) (calls : List Browse) : Pending := calls.foldl (Browse.asks name) none

theorem asked_snoc (name : Nat) (done : List Browse) (call : Browse) :
    asked name (done ++ [call]) = Browse.asks name (asked name done) call := by
  simp [asked]

/-- No batch is ever given more than fits. -/
def Roomy (fits : List (Update Bytes Bytes) → Prop) (calls : List Browse) : Prop :=
  ∀ done, done <+: calls → ∀ name, Fitting fits (asked name done)

theorem Roomy.after {done rest calls : List Browse} {call : Browse} (room : Roomy fits calls)
    (joined : done ++ call :: rest = calls) (name : Nat) : Fitting fits (Browse.asks name (asked name done) call) := by
  rw [← asked_snoc]
  apply room
  exact ⟨rest, by rw [List.append_assoc, List.singleton_append, joined]⟩

private theorem set_length (pending : Pending) (key value : Slice) :
    ((Pending.set pending key value).2.getD []).length ≤ (pending.getD []).length + 1 := by
  unfold Pending.set
  rcases checkPair key value with _ | ⟨key, value⟩ <;> rcases pending with _ | updates <;> simp

private theorem delete_length (pending : Pending) (key : Slice) :
    ((Pending.delete pending key).2.getD []).length ≤ (pending.getD []).length + 1 := by
  unfold Pending.delete
  rcases checkKey key with _ | key <;> rcases pending with _ | updates <;> simp

private theorem leaves_length (pending : Pending) (call : BatchUse) :
    ((call.leaves pending).getD []).length ≤ (pending.getD []).length + 1 := by
  cases call with
  | set key value => exact set_length pending key value
  | delete key => exact delete_length pending key
  | write sync => exact Nat.zero_le _
  | close => exact Nat.zero_le _

private theorem asks_length (name : Nat) (sofar : Pending) (call : Browse) :
    ((Browse.asks name sofar call).getD []).length ≤ (sofar.getD []).length + 1 := by
  have uses (other : Nat) (call : BatchUse) :
      ((Browse.asks.uses name sofar other call).getD []).length ≤ (sofar.getD []).length + 1 := by
    unfold Browse.asks.uses
    split
    · exact leaves_length sofar call
    · exact Nat.le_succ _
  unfold Browse.asks
  split
  · split
    · exact Nat.zero_le _
    · exact Nat.le_succ _
  · exact uses _ _
  · exact uses _ _
  · exact uses _ _
  · exact uses _ _
  · exact uses _ _
  · exact Nat.le_succ _

theorem Roomy.of_length {calls : List Browse} {size : Nat} (short : calls.length ≤ size) :
    Roomy (fun updates => updates.length ≤ size) calls := by
  have few (name : Nat) (done : List Browse) : ((asked name done).getD []).length ≤ done.length := by
    induction done using List.reverseRecOn with
    | nil => exact le_rfl
    | append_singleton done call ih =>
      rw [asked_snoc, List.length_append]
      exact (asks_length name _ call).trans (Nat.succ_le_succ ih)
  intro done before name updates given
  have bound := few name done
  rw [given] at bound
  exact bound.trans (before.length_le.trans short)

section Asked
variable {content : Nat → Pending} {browser : Browser plain}

private def Given (content : Nat → Pending) (browser : Browser plain) : Prop :=
  ∀ name pending, browser.session.batches name = some pending → pending = content name

private theorem Given.update (given : Given content browser) {name : Nat} {after : Browser plain} {wanted : Nat → Pending}
    (moved : after.session.batches = Function.update browser.session.batches name (some (wanted name)))
    (others : ∀ other, other ≠ name → wanted other = content other) : Given wanted after := by
  intro other pending held
  rw [moved] at held
  by_cases named : other = name
  · subst named
    rw [Function.update_self] at held
    exact (Option.some.inj held).symm
  · rw [Function.update_of_ne named] at held
    rw [others other named]
    exact given other pending held

private theorem leaves_plain (store : Store) (pending : Pending) (call : BatchUse) :
    (call.step plain (store, pending)).2.2 = call.leaves pending := by
  cases call with
  | set key value => rfl
  | delete key => rfl
  | write sync => cases sync <;> cases pending <;> rfl
  | close => rfl

private theorem Given.use (given : Given content browser) (name : Nat) (call : BatchUse) :
    Given (fun other => Browse.asks.uses other (content other) name call)
      { browser with session := (browser.session.withBatch name fun pending =>
          browser.session.setBoth name (call.step plain (browser.session.state, pending))).2 } := by
  have others : ∀ other, other ≠ name → Browse.asks.uses other (content other) name call = content other :=
    fun _ named => if_neg named.symm
  unfold Session.withBatch
  cases held : browser.session.batches name with
  | some pending =>
    refine given.update ?_ others
    obtain rfl := given name pending held
    simp only [Browse.asks.uses, ← leaves_plain browser.session.state]
    rfl
  | none =>
    intro other pending there
    have named : other ≠ name := by
      rintro rfl
      cases there.symm.trans held
    exact (given other pending there).trans (others other named).symm

private theorem given_step (given : Given content browser) (call : Browse) :
    Given (fun name => Browse.asks name (content name) call) ((browsing plain).step browser call).2 := by
  have apart (apart : ∀ inner, call ≠ .call inner) : Given content ((browsing plain).step browser call).2 := by
    unfold Given
    rw [step_session browser apart]
    exact given
  cases call with
  | call call =>
    cases call with
    | get key => exact given
    | has key => exact given
    | set key value => exact given
    | setSync key value => exact given
    | delete key => exact given
    | deleteSync key => exact given
    | newBatch name =>
      refine given.update ?_ fun _ named => if_neg named.symm
      simp only [Browse.asks, if_true]
      rfl
    | batchSet name key value => exact given.use name (.set key value)
    | batchDelete name key => exact given.use name (.delete key)
    | batchWrite name => exact given.use name (.write false)
    | batchWriteSync name => exact given.use name (.write true)
    | batchClose name => exact given.use name .close
  | iterator name reverse start stop => exact apart nofun
  | use name call => exact apart nofun
  | error name => exact apart nofun

end Asked

private theorem roomy_along {calls : List Browse} (room : Roomy fits calls) (store : Store) :
    (browsing plain).Along (roomy fits).Allows (Browser.start store) calls := by
  apply Machine.along_of_history
  intro done call rest joined
  have given : Given (asked · done) ((browsing plain).run (Browser.start store) done).2 := by
    apply Machine.run_history _ fun done => Given (asked · done)
    · intro done browser call given
      simpa only [asked_snoc] using given_step given call
    · intro _ _ held
      cases held
  have fitting := room.after joined
  generalize ((browsing plain).run (Browser.start store) done).2 = browser at given
  have uses (name : Nat) (use : BatchUse) (fitting : Fitting fits (Browse.asks.uses name (asked name done) name use)) :
      Custom.Allows.uses (roomy fits) browser name use := by
    intro pending held
    obtain rfl := given name pending held
    rwa [Browse.asks.uses, if_pos rfl] at fitting
  cases call with
  | call call =>
    cases call with
    | batchSet name key value => exact uses name (.set key value) (fitting name)
    | batchDelete name key => exact uses name (.delete key) (fitting name)
    | batchWrite name => exact uses name (.write false) (fitting name)
    | batchWriteSync name => exact uses name (.write true) (fitting name)
    | batchClose name => exact uses name .close (fitting name)
    | _ => exact trivial
  | iterator name reverse start stop => exact trivial
  | use name call => cases call <;> simp [Custom.Allows, roomy]
  | error name => exact fun _ _ => trivial

theorem buffered_gathers (fits : List (Update Bytes Bytes) → Prop) :
    Gathers .buffered fits (fun wb updates => wb = some updates) fun wb => wb = none where
  new := rfl
  set := by
    intro wb updates held key value _
    subst held
    exact ⟨_, rfl, rfl⟩
  delete := by
    intro wb updates held key _
    subst held
    exact ⟨_, rfl, rfl⟩
  flush := by
    intro wb updates held engine
    subst held
    exact ⟨none, rfl, rfl⟩
  cancel _ := rfl
  setEnded := by
    intro wb finished key value
    subst finished
    exact ⟨_, _, rfl, rfl⟩
  deleteEnded := by
    intro wb finished key
    subst finished
    exact ⟨_, _, rfl, rfl⟩

end TmDb.Proofs
