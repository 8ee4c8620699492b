import TmDb.Proofs.BadgerAlike

/-! BadgerDB over an engine that fails. Most calls that fail have changed nothing, but
a Sync may fail after the write before it, and a batch whose Flush has failed is not to
be written again. Apart from that a caller sees what MemDB would show it. -/

namespace TmDb.Proofs
open Lib Machine

/-- The errors of badger's, and the wrapper's own where a batch is flushed again. -/
def failed : Except Err Unit → Bool
  | .error (.engine _) | .error .batchFlushed => true
  | _ => false

structure Refuses (api : WriteBatch) (ended : api.State → Prop) : Prop where
  set : ∀ {wb}, ended wb → ∀ key value, failed (api.set wb key value).1 = true
  delete : ∀ {wb}, ended wb → ∀ key, failed (api.delete wb key).1 = true

variable {api : WriteBatch} {fits : List (Update Bytes Bytes) → Prop}
variable {holds : api.State → List (Update Bytes Bytes) → Prop} {ended : api.State → Prop}

/-- A batch of BadgerDB that was given these updates, and one of the plain map, which may
still be to be written when the first is over. -/
structure Attends (holds : api.State → List (Update Bytes Bytes) → Prop) (ended : api.State → Prop) (sofar : Pending)
    (own : BadgerBatch api) (pending : Pending) : Prop where
  gathering : Gathering holds ended own sofar
  same : sofar ≠ none → pending = sofar

def BatchUse.syncs : BatchUse → Bool
  | .write sync => sync
  | _ => false

def Browse.syncs : Browse → Bool
  | .call (.setSync ..) | .call (.deleteSync _) | .call (.batchWriteSync _) => true
  | _ => false

/-- What comes of a call that writes. It takes effect, though it fails, only if it syncs. -/
abbrev Written {σ τ : Type} (sync : Bool) (related : σ → τ → Prop) (spec : τ) (result : Except Err Unit × σ)
    (expected : Except Err Unit × τ) : Prop :=
  Upshot failed (fun answer => sync = true ∧ answer = .ok ()) related spec result expected

private theorem checkPair_answers {key value : Slice} {err : Err} (refused : checkPair key value = .error err) :
    failed (.error err) = false := by
  unfold checkPair at refused
  split_ifs at refused
  · cases refused
    rfl
  · cases value with
    | none =>
      cases refused
      rfl
    | some content => cases refused

section Engine
variable {engine : Engine} {store : Store} (contains : Contains engine store)
include contains

private theorem engine_written {updates : List (Update Bytes Bytes)} (others : ∀ update ∈ updates, update.key ≠ []) :
    Written false Contains store (engine.write updates) (.ok (), store.applyAll updates) := by
  have kept := write_keyed contains.keyed others
  unfold Engine.write at kept ⊢
  cases struck : engine.fault with
  | some fault =>
    rw [struck] at kept
    exact .void rfl ⟨contains.same, kept⟩
  | none =>
    rw [struck] at kept
    exact .answered rfl rfl ⟨congrArg (SortedMap.applyAll · updates) contains.same, kept⟩

private theorem set_written (key value : Slice) :
    Written false Contains store (BadgerDB.set engine key value) (Plain.set store key value) := by
  unfold BadgerDB.set Plain.set
  rcases checkPair_cases key value with ⟨err, refused⟩ | ⟨nonempty, content, rfl, checked⟩
  · rw [refused]
    exact .answered (checkPair_answers refused) rfl contains
  · rw [checked]
    exact engine_written contains (by simpa [Update.key] using nonempty)

private theorem delete_written (key : Slice) :
    Written false Contains store (BadgerDB.delete engine key) (Plain.delete store key) := by
  unfold BadgerDB.delete Plain.delete
  rcases checkKey_cases key with refused | ⟨nonempty, checked⟩
  · rw [refused]
    exact .answered rfl rfl contains
  · rw [checked]
    exact engine_written contains (by simpa [Update.key] using nonempty)

private theorem Contains.faults (faults : List (Option Fault)) : Contains ⟨engine.store, faults⟩ store :=
  ⟨contains.same, contains.keyed⟩

end Engine

/-- The write has been made by the time that Sync fails. -/
private theorem withSync_written {τ : Type} {related : Engine → τ → Prop}
    (blind : ∀ {engine : Engine} {spec}, related engine spec → ∀ faults, related ⟨engine.store, faults⟩ spec)
    {result : Except Err Unit × Engine} {spec : τ} {expected : Except Err Unit × τ}
    (written : Written false related spec result expected) :
    Written true related spec (BadgerDB.withSync result) expected := by
  obtain ⟨_ | _, engine⟩ := result
  · exact written.map id rfl rfl (fun _ => rfl) (fun _ lasts => nomatch lasts.1) id id
  · cases written with
    | void refusal _ => cases refusal
    | lasting refusal _ _ => cases refusal
    | answered _ same kept =>
      simp only [BadgerDB.withSync, Engine.write]
      cases engine.fault with
      | some fault => exact .lasting rfl ⟨rfl, same.symm⟩ (blind kept engine.faults.tail)
      | none => exact .answered rfl same (blind kept engine.faults.tail)

section Batch
variable (gathers : Gathers api fits holds ended) {own : BadgerBatch api} {sofar pending : Pending}

def Tallies (holds : api.State → List (Update Bytes Bytes) → Prop) (ended : api.State → Prop) (sofar : Pending)
    (first : Engine × BadgerBatch api) (second : Store × Pending) : Prop :=
  Contains first.1 second.1 ∧ Attends holds ended sofar first.2 second.2

variable {engine : Engine} {store : Store} (tallies : Tallies holds ended sofar (engine, own) (store, pending))
include gathers tallies

/-- A batch is over once it has been flushed, whatever came of that. -/
private theorem write_written :
    Written false (Tallies holds ended none) (store, pending) (BadgerBatch.write api engine own)
      (Pending.write store pending) := by
  obtain ⟨contains, gathering, same⟩ := tallies
  cases gathering with
  | finished done => exact .void rfl ⟨contains, .finished done, nofun⟩
  | waiting held others =>
    obtain rfl := same nofun
    obtain ⟨after, done, writes⟩ := write_flushed gathers held engine
    rw [writes]
    exact (engine_written contains others).map id rfl rfl (fun _ => rfl) (fun _ => id)
      (fun kept => ⟨kept, .finished done, nofun⟩) fun kept => ⟨kept, .finished done, nofun⟩

private theorem writeSync_written :
    Written true (Tallies holds ended none) (store, pending) (BadgerBatch.writeSync api engine own)
      (Pending.write store pending) := by
  have written := write_written gathers tallies
  unfold BadgerBatch.writeSync
  generalize BadgerBatch.write api engine own = result at written ⊢
  have engines : Written false (fun after expected => Tallies holds ended none (after, result.2.2) expected) (store, pending)
      (result.1, result.2.1) (Pending.write store pending) :=
    written.map id rfl rfl (fun _ => rfl) (fun _ => id) id id
  have synced := withSync_written (fun kept faults => ⟨kept.1.faults faults, kept.2⟩) engines
  exact synced.map id rfl rfl (fun _ => rfl) (fun _ => id) id id

end Batch

section Gathered
variable (gathers : Gathers api fits holds ended) (refuses : Refuses api ended) {own : BadgerBatch api}
variable {sofar pending : Pending} (attends : Attends holds ended sofar own pending)
include gathers refuses attends

private theorem batchSet_written {key value : Slice} (room : Fitting fits (Pending.set sofar key value).2) :
    Written false (Attends holds ended (Pending.set sofar key value).2) pending (BadgerBatch.set api own key value)
      (Pending.set pending key value) := by
  obtain ⟨alike, after⟩ := set_gathered gathers attends.gathering room
  unfold BadgerBatch.set Pending.set at *
  rcases checkPair_cases key value with ⟨err, refused⟩ | ⟨_, content, rfl, checked⟩
  · rw [refused]
    exact .answered (checkPair_answers refused) rfl attends
  · rw [checked] at alike after ⊢
    obtain ⟨gathering, same⟩ := attends
    cases gathering with
    | waiting held keyed =>
      obtain rfl := same nofun
      have taken := alike.eq_ok
      exact .answered (congrArg failed taken) taken ⟨after, fun _ => rfl⟩
    | finished done => exact .void (refuses.set done key.bytes content) ⟨after, nofun⟩

private theorem batchDelete_written {key : Slice} (room : Fitting fits (Pending.delete sofar key).2) :
    Written false (Attends holds ended (Pending.delete sofar key).2) pending (BadgerBatch.delete api own key)
      (Pending.delete pending key) := by
  obtain ⟨alike, after⟩ := delete_gathered gathers attends.gathering room
  unfold BadgerBatch.delete Pending.delete at *
  rcases checkKey_cases key with refused | ⟨_, checked⟩
  · rw [refused]
    exact .answered rfl rfl attends
  · rw [checked] at alike after ⊢
    obtain ⟨gathering, same⟩ := attends
    cases gathering with
    | waiting held keyed =>
      obtain rfl := same nofun
      have taken := alike.eq_ok
      exact .answered (congrArg failed taken) taken ⟨after, fun _ => rfl⟩
    | finished done => exact .void (refuses.delete done key.bytes) ⟨after, nofun⟩

private theorem use_written {engine : Engine} {store : Store} (contains : Contains engine store) {call : BatchUse}
    (room : Fitting fits (call.leaves sofar)) :
    Written call.syncs (Tallies holds ended (call.leaves sofar)) (store, pending)
      (call.step (badgerDB api) (engine, own)) (call.step plain (store, pending)) := by
  cases call with
  | set key value =>
    exact (batchSet_written gathers refuses attends room).map id rfl rfl (fun _ => rfl) (fun _ => id)
      (fun kept => ⟨contains, kept⟩) fun kept => ⟨contains, kept⟩
  | delete key =>
    exact (batchDelete_written gathers refuses attends room).map id rfl rfl (fun _ => rfl) (fun _ => id)
      (fun kept => ⟨contains, kept⟩) fun kept => ⟨contains, kept⟩
  | write sync =>
    cases sync with
    | false => exact write_written gathers ⟨contains, attends⟩
    | true => exact writeSync_written gathers ⟨contains, attends⟩
  | close => exact .answered rfl rfl ⟨contains, .finished (gathers.cancel own.wb), nofun⟩

end Gathered

section Caller
variable {content : Nat → Pending} {first : Browser (badgerDB api)} {second : Browser plain}

abbrev Matched (holds : api.State → List (Update Bytes Bytes) → Prop) (ended : api.State → Prop) (content : Nat → Pending) :
    Browser (badgerDB api) → Browser plain → Prop :=
  @Accompanies (badgerDB api) plain Contains Ahead fun name => Attends holds ended (content name)

private abbrev Comes (holds : api.State → List (Update Bytes Bytes) → Prop) (ended : api.State → Prop)
    (content : Nat → Pending) (sync : Bool) (second : Browser plain) (result : BrowseReply × Browser (badgerDB api))
    (expected : BrowseReply × Browser plain) : Prop :=
  Upshot (BrowseReply.refused failed) (fun answer => sync = true ∧ answer = .call (.done (.ok ())))
    (Matched holds ended content) second result expected

private theorem Comes.of_written {σ τ : Type} {related : σ → τ → Prop} {spec : τ} {result : Except Err Unit × σ}
    {expected : Except Err Unit × τ} {sync : Bool} (written : Written sync related spec result expected)
    {after : Browser (badgerDB api)} {wanted : Browser plain}
    (unmoved : related result.2 spec → Matched holds ended content after second)
    (moved : related result.2 expected.2 → Matched holds ended content after wanted) :
    Comes holds ended content sync second (.call (.done result.1), after) (.call (.done expected.1), wanted) := by
  refine written.map (fun answer => .call (.done answer)) rfl rfl (fun _ => rfl) ?_ unmoved moved
  rintro _ ⟨syncs, rfl⟩
  exact ⟨syncs, rfl⟩

variable (matched : Matched holds ended content first second) {sync : Bool}
include matched

private theorem setState_comes {result : Except Err Unit × Engine} {expected : Except Err Unit × Store}
    (written : Written sync Contains second.session.state result expected) :
    Comes holds ended content sync second
      ((first.session.setState result).map .call fun session => { first with session := session })
      ((second.session.setState expected).map .call fun session => { second with session := session }) :=
  .of_written written (fun kept => ⟨kept, matched.batches, matched.iterators⟩)
    fun kept => ⟨kept, matched.batches, matched.iterators⟩

private theorem use_comes (gathers : Gathers api fits holds ended) (refuses : Refuses api ended) {name : Nat} {call : BatchUse}
    (room : Fitting fits (Browse.asks.uses name (content name) name call)) :
    Comes holds ended (fun other => Browse.asks.uses other (content other) name call) call.syncs second
      ((first.session.withBatch name fun batch =>
        first.session.setBoth name (call.step (badgerDB api) (first.session.state, batch))).map .call
          fun session => { first with session := session })
      ((second.session.withBatch name fun batch =>
        second.session.setBoth name (call.step plain (second.session.state, batch))).map .call
          fun session => { second with session := session }) := by
  have others (other : Nat) (named : other ≠ name) :
      Option.Rel (Attends holds ended (Browse.asks.uses other (content other) name call)) (first.session.batches other)
        (second.session.batches other) := by
    rw [Browse.asks.uses, if_neg named.symm]
    exact matched.batches other
  unfold Session.withBatch
  rcases rel_cases (matched.batches name) with ⟨left, right⟩ | ⟨own, other, left, right, attends⟩
  · have unmade (other : Nat) : Option.Rel (Attends holds ended (Browse.asks.uses other (content other) name call))
        (first.session.batches other) (second.session.batches other) := by
      by_cases named : other = name
      · rw [named, left, right]
        exact .none
      · exact others other named
    rw [left, right]
    exact .answered rfl rfl ⟨matched.state, unmade, matched.iterators⟩
  · rw [left, right]
    rw [Browse.asks.uses, if_pos rfl] at room
    have own_content : Browse.asks.uses name (content name) name call = call.leaves (content name) := if_pos rfl
    have unmoved : Function.update second.session.batches name (some other) = second.session.batches :=
      Function.update_eq_self_iff.mpr right.symm
    refine .of_written (use_written gathers refuses attends matched.state room) ?_ ?_
    · intro kept
      refine ⟨kept.1, ?_, matched.iterators⟩
      rw [← unmoved]
      exact rel_update name others (own_content ▸ kept.2)
    · intro kept
      exact ⟨kept.1, rel_update name others (own_content ▸ kept.2), matched.iterators⟩

private theorem newBatch_attends (gathers : Gathers api fits holds ended) (name other : Nat) :
    Option.Rel (Attends holds ended (Browse.asks other (content other) (.call (.newBatch name))))
      (Function.update first.session.batches name (some ⟨api.new, true⟩) other)
      (Function.update second.session.batches name (some (some [])) other) := by
  refine @rel_update _ _ (fun other => Attends holds ended (Browse.asks other (content other) _)) _ _ name ?_ _ _ ?_ other
  · intro other named
    rw [Browse.asks, if_neg named.symm]
    exact matched.batches other
  · rw [Browse.asks, if_pos rfl]
    exact ⟨.waiting gathers.new (by simp), fun _ => rfl⟩

private theorem step_comes (gathers : Gathers api fits holds ended) (refuses : Refuses api ended) {call : Browse}
    (room : ∀ name, Fitting fits (Browse.asks name (content name) call)) :
    Comes holds ended (fun name => Browse.asks name (content name) call) (Browse.syncs call) second
      ((browsing (badgerDB api)).step first call) ((browsing plain).step second call) := by
  have state := matched.state
  have iterates (apart : ∀ inner, call ≠ .call inner) :
      Comes holds ended content (Browse.syncs call) second ((browsing (badgerDB api)).step first call)
        ((browsing plain).step second call) := by
    have together := matched.iterate apart (fun _ reverse start stop _ => opened_ahead state reverse start stop)
      (fun _ use _ it other _ ahead => iterate_ahead it other use ahead) fun _ _ _ _ _ _ => rfl
    exact .answered (refused_apart first apart) together.1 together.2
  cases call with
  | call call =>
    cases call with
    | get key => exact .answered rfl (congrArg (BrowseReply.call ∘ Reply.value) (state.same ▸ badger_get key)) matched
    | has key => exact .answered rfl (congrArg (BrowseReply.call ∘ Reply.present) (state.same ▸ badger_has key)) matched
    | set key value => exact setState_comes matched (set_written state key value)
    | setSync key value => exact setState_comes matched (withSync_written Contains.faults (set_written state key value))
    | delete key => exact setState_comes matched (delete_written state key)
    | deleteSync key => exact setState_comes matched (withSync_written Contains.faults (delete_written state key))
    | newBatch name => exact .answered rfl rfl ⟨state, newBatch_attends matched gathers name, matched.iterators⟩
    | batchSet name key value => exact use_comes matched gathers refuses (room name)
    | batchDelete name key => exact use_comes matched gathers refuses (room name)
    | batchWrite name => exact use_comes matched gathers refuses (room name)
    | batchWriteSync name => exact use_comes matched gathers refuses (room name)
    | batchClose name => exact use_comes matched gathers refuses (room name)
  | iterator name reverse start stop => exact iterates nofun
  | use name call => exact iterates nofun
  | error name => exact iterates nofun

end Caller

theorem buffered_refuses : Refuses .buffered fun wb => wb = none where
  set := by
    intro wb finished key value
    subst finished
    rfl
  delete := by
    intro wb finished key
    subst finished
    rfl

end TmDb.Proofs
