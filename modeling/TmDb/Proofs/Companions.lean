import TmDb.Proofs.Browsers
import TmDb.Proofs.RemoteBatch

/-! Two callers of two databases that do not fail in the same words. What each method
does to related states, batches and iterators is said once; from that, a whole run of
calls is answered alike. -/

namespace TmDb.Proofs
open Lib

def BrowseReply.Alike : BrowseReply → BrowseReply → Prop
  | .call first, .call second => Reply.Alike first second
  | first, second => first = second

theorem BrowseReply.Alike.of_eq {first second : BrowseReply} (same : first = second) : Alike first second := by
  subst same
  rcases first with (_ | _ | _ | _ | _) | _ | _ | _ | _ <;> exact rfl

/-- What a caller keeps to: the arguments of Set, what it does with a batch that is as it
would be, the bounds of its iterators, and where it moves an iterator on or asks for its
error. -/
structure Custom (spec : DB) where
  writes : Slice → Slice → Prop
  uses : spec.Batch → BatchUse → Prop
  bounds : Slice → Slice → Prop
  stands : spec.Iter → Prop

def Custom.Allows {spec : DB} (custom : Custom spec) (browser : Browser spec) : Browse → Prop
  | .call (.set key value) | .call (.setSync key value) => custom.writes key value
  | .call (.batchSet name key value) => uses name (.set key value)
  | .call (.batchDelete name key) => uses name (.delete key)
  | .call (.batchWrite name) => uses name (.write false)
  | .call (.batchWriteSync name) => uses name (.write true)
  | .call (.batchClose name) => uses name .close
  | .call _ => True
  | .iterator _ _ start stop => custom.bounds start stop
  | .use name .next | .error name => ∀ it, browser.iterators name = some it → custom.stands it
  | .use .. => True
where
  uses (name : Nat) (call : BatchUse) : Prop := ∀ batch, browser.session.batches name = some batch → custom.uses batch call

variable {db spec : DB}
variable (custom : Custom spec) (state : db.State → spec.State → Prop) (batch : db.Batch → spec.Batch → Prop)
variable (iter : db.Iter → spec.Iter → Prop)

def Ends {σ τ : Type} (related : σ → τ → Prop) (first : Except Err Unit × σ) (second : Except Err Unit × τ) : Prop :=
  Alike first.1 second.1 ∧ related first.2 second.2

structure Companions : Prop where
  get : ∀ {left right}, state left right → ∀ key, Alike (db.get left key) (spec.get right key)
  has : ∀ {left right}, state left right → ∀ key, Alike (db.has left key) (spec.has right key)
  set : ∀ {left right}, state left right → ∀ {key value}, custom.writes key value →
    Ends state (db.set left key value) (spec.set right key value)
  setSync : ∀ {left right}, state left right → ∀ {key value}, custom.writes key value →
    Ends state (db.setSync left key value) (spec.setSync right key value)
  delete : ∀ {left right}, state left right → ∀ key, Ends state (db.delete left key) (spec.delete right key)
  deleteSync : ∀ {left right}, state left right → ∀ key, Ends state (db.deleteSync left key) (spec.deleteSync right key)
  newBatch : batch db.newBatch spec.newBatch
  use : ∀ {left right own other}, state left right → batch own other → ∀ {call : BatchUse}, custom.uses other call →
    Ends (fun first second => state first.1 second.1 ∧ batch first.2 second.2) (call.step db (left, own))
      (call.step spec (right, other))
  opens : ∀ {left right}, state left right → ∀ reverse {start stop}, custom.bounds start stop →
    Opened iter (opener db reverse left start stop) (opener spec reverse right start stop)
  iterate : ∀ {it other}, iter it other → ∀ {call : IterCall}, (call = .next → custom.stands other) →
    ((iteration db.iter).step it call).1 = ((iteration spec.iter).step other call).1 ∧
      iter ((iteration db.iter).step it call).2 ((iteration spec.iter).step other call).2
  error : ∀ {it other}, iter it other → custom.stands other → db.iter.error it = spec.iter.error other

/-- Callers that hold related things under the same names. How two batches are related
may depend on the name. -/
structure Accompanies (named : Nat → db.Batch → spec.Batch → Prop) (first : Browser db) (second : Browser spec) : Prop where
  state : state first.session.state second.session.state
  batches : ∀ name, Option.Rel (named name) (first.session.batches name) (second.session.batches name)
  iterators : ∀ name, Option.Rel iter (first.iterators name) (second.iterators name)

variable {custom state batch iter}

namespace Accompanies
variable {first : Browser db} {second : Browser spec} {named : Nat → db.Batch → spec.Batch → Prop}

theorem start {left : db.State} {right : spec.State} (initial : state left right) :
    Accompanies state iter named (Browser.start left) (Browser.start right) := ⟨initial, fun _ => .none, fun _ => .none⟩

private theorem setState (held : Accompanies state iter named first second) {result : Except Err Unit × db.State}
    {expected : Except Err Unit × spec.State} (ends : Ends state result expected) :
    Reply.Alike (first.session.setState result).1 (second.session.setState expected).1 ∧
      Accompanies state iter named { first with session := (first.session.setState result).2 }
        { second with session := (second.session.setState expected).2 } :=
  ⟨ends.1, ends.2, held.batches, held.iterators⟩

private theorem use (companions : Companions custom state batch iter)
    (held : Accompanies state iter (fun _ => batch) first second) {name : Nat} {call : BatchUse}
    (allowed : ∀ batch, second.session.batches name = some batch → custom.uses batch call) :
    let result := first.session.withBatch name fun batch =>
      first.session.setBoth name (call.step db (first.session.state, batch))
    let expected := second.session.withBatch name fun batch =>
      second.session.setBoth name (call.step spec (second.session.state, batch))
    Reply.Alike result.1 expected.1 ∧
      Accompanies state iter (fun _ => batch) { first with session := result.2 } { second with session := expected.2 } := by
  unfold Session.withBatch
  rcases rel_cases (held.batches name) with ⟨left, right⟩ | ⟨own, other, left, right, same⟩
  · rw [left, right]
    exact ⟨rfl, held⟩
  · rw [left, right]
    obtain ⟨alike, kept, after⟩ := companions.use held.state same (allowed other right)
    exact ⟨alike, kept, rel_update name (fun other _ => held.batches other) after, held.iterators⟩

/-- What two callers do with iterators does not depend on how they write. -/
theorem iterate (held : Accompanies state iter named first second) {call : Browse} (apart : ∀ inner, call ≠ .call inner)
    (opens : ∀ name reverse start stop, call = .iterator name reverse start stop →
      Opened iter (opener db reverse first.session.state start stop) (opener spec reverse second.session.state start stop))
    (uses : ∀ name use, call = .use name use → ∀ it other, second.iterators name = some other → iter it other →
      ((iteration db.iter).step it use).1 = ((iteration spec.iter).step other use).1 ∧
        iter ((iteration db.iter).step it use).2 ((iteration spec.iter).step other use).2)
    (errors : ∀ name, call = .error name → ∀ it other, second.iterators name = some other → iter it other →
      db.iter.error it = spec.iter.error other) :
    ((browsing db).step first call).1 = ((browsing spec).step second call).1 ∧
      Accompanies state iter named ((browsing db).step first call).2 ((browsing spec).step second call).2 := by
  obtain ⟨answers, kept⟩ := iterate_alike held.iterators apart opens uses errors
  refine ⟨answers, ?_, ?_, kept⟩
  · rw [step_session first apart, step_session second apart]
    exact held.state
  · rw [step_session first apart, step_session second apart]
    exact held.batches

theorem step (companions : Companions custom state batch iter) (held : Accompanies state iter (fun _ => batch) first second)
    {call : Browse} (allowed : custom.Allows second call) :
    BrowseReply.Alike ((browsing db).step first call).1 ((browsing spec).step second call).1 ∧
      Accompanies state iter (fun _ => batch) ((browsing db).step first call).2 ((browsing spec).step second call).2 := by
  have alike {after : Browser db} {wanted : Browser spec} {answer expected : BrowseReply}
      (same : answer = expected ∧ Accompanies state iter (fun _ => batch) after wanted) :
      BrowseReply.Alike answer expected ∧ Accompanies state iter (fun _ => batch) after wanted := ⟨.of_eq same.1, same.2⟩
  cases call with
  | call call =>
    cases call with
    | get key => exact ⟨companions.get held.state key, held⟩
    | has key => exact ⟨companions.has held.state key, held⟩
    | set key value => exact held.setState (companions.set held.state allowed)
    | setSync key value => exact held.setState (companions.setSync held.state allowed)
    | delete key => exact held.setState (companions.delete held.state key)
    | deleteSync key => exact held.setState (companions.deleteSync held.state key)
    | newBatch name =>
      have made := rel_update name (fun other _ => held.batches other) companions.newBatch
      exact ⟨rfl, held.state, made, held.iterators⟩
    | batchSet name key value => exact use companions held allowed
    | batchDelete name key => exact use companions held allowed
    | batchWrite name => exact use companions held allowed
    | batchWriteSync name => exact use companions held allowed
    | batchClose name => exact use companions held allowed
  | iterator name reverse start stop =>
    refine alike (held.iterate nofun ?_ nofun nofun)
    rintro _ _ _ _ ⟨⟩
    exact companions.opens held.state reverse allowed
  | use name call =>
    refine alike (held.iterate nofun nofun ?_ nofun)
    rintro _ _ ⟨⟩ it other named same
    apply companions.iterate same
    rintro rfl
    exact allowed other named
  | error name =>
    refine alike (held.iterate nofun nofun nofun ?_)
    rintro _ ⟨⟩ it other named same
    exact companions.error same (allowed other named)

end Accompanies

theorem Companions.run (companions : Companions custom state batch iter) {left : db.State} {right : spec.State}
    (initial : state left right) {calls : List Browse} (along : (browsing spec).Along custom.Allows (Browser.start right) calls) :
    List.Forall₂ BrowseReply.Alike ((browsing db).run (Browser.start left) calls).1
        ((browsing spec).run (Browser.start right) calls).1 ∧
      state ((browsing db).run (Browser.start left) calls).2.session.state
        ((browsing spec).run (Browser.start right) calls).2.session.state := by
  have together := @Accompanies.start _ _ state iter (fun _ => batch) _ _ initial
  have kept : ∀ (first : Browser db) (second : Browser spec) (call : Browse),
      Accompanies state iter (fun _ => batch) first second → custom.Allows second call →
      Accompanies state iter (fun _ => batch) ((browsing db).step first call).2 ((browsing spec).step second call).2 :=
    fun _ _ _ held allowed => (held.step companions allowed).2
  constructor
  · exact Machine.along_answers _ _ _ kept (fun _ _ _ held allowed => (held.step companions allowed).1) together along
  · exact (Machine.along_related _ _ _ kept together along).state

end TmDb.Proofs
