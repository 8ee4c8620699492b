import TmDb.Browsing
import TmDb.Proofs.Refinement

/-! Two callers that make the same calls on two databases and keep iterators between
them. They see the same as long as the session methods translate, the iterators they
hold answer alike, and both databases open iterators on the same bounds. -/

namespace TmDb.Proofs
open Lib

variable {db spec : DB} (contents : db.State → spec.State) (pending : db.Batch → spec.Batch)
variable (level : db.Iter → spec.Iter → Prop)

structure Matches : Prop where
  translates : Translates contents pending
  uses : (iteration db.iter).Simulates (iteration spec.iter) level
  errors : ∀ {first second}, level first second → db.iter.error first = spec.iter.error second

/-- The outcomes of two constructors that a caller cannot tell apart. -/
inductive Opened : Option (Except Err db.Iter) → Option (Except Err spec.Iter) → Prop where
  | panicked : Opened none none
  | refused (err : Err) : Opened (some (.error err)) (some (.error err))
  | made {first second} (same : level first second) : Opened (some (.ok first)) (some (.ok second))

variable {level} in
theorem Opened.of_refused {left : Option (Except Err db.Iter)} {right : Option (Except Err spec.Iter)} {err : Err}
    (first : left = some (.error err)) (second : right = some (.error err)) : Opened level left right := by
  subst first second
  exact .refused err

variable {level} in
theorem Opened.of_made {left : Option (Except Err db.Iter)} {right : Option (Except Err spec.Iter)} {it : db.Iter}
    {other : spec.Iter} (first : left = some (.ok it)) (second : right = some (.ok other)) (same : level it other) :
    Opened level left right := by
  subst first second
  exact .made same

theorem rel_cases {α β : Type} {related : α → β → Prop} {first : Option α} {second : Option β}
    (rel : Option.Rel related first second) :
    first = none ∧ second = none ∨ ∃ left right, first = some left ∧ second = some right ∧ related left right := by
  cases rel with
  | none => exact .inl ⟨rfl, rfl⟩
  | some same => exact .inr ⟨_, _, rfl, rfl, same⟩

theorem rel_update {α β : Type} {related : Nat → α → β → Prop} {first : Nat → Option α} {second : Nat → Option β} (name : Nat)
    (held : ∀ other, other ≠ name → Option.Rel (related other) (first other) (second other)) {left : α} {right : β}
    (same : related name left right) (other : Nat) :
    Option.Rel (related other) (Function.update first name (some left) other)
      (Function.update second name (some right) other) := by
  by_cases named : other = name
  · subst named
    rw [Function.update_self, Function.update_self]
    exact .some same
  · rw [Function.update_of_ne named, Function.update_of_ne named]
    exact held other named

section Iterators
variable {level} {first : Browser db} {second : Browser spec}
variable (held : ∀ name, Option.Rel level (first.iterators name) (second.iterators name))

include held in
/-- What two callers do with iterators does not depend on their sessions. -/
theorem iterate_alike {call : Browse} (apart : ∀ inner, call ≠ .call inner)
    (opens : ∀ name reverse start stop, call = .iterator name reverse start stop →
      Opened level (opener db reverse first.session.state start stop) (opener spec reverse second.session.state start stop))
    (uses : ∀ name use, call = .use name use → ∀ it other, second.iterators name = some other → level it other →
      ((iteration db.iter).step it use).1 = ((iteration spec.iter).step other use).1 ∧
        level ((iteration db.iter).step it use).2 ((iteration spec.iter).step other use).2)
    (errors : ∀ name, call = .error name → ∀ it other, second.iterators name = some other → level it other →
      db.iter.error it = spec.iter.error other) :
    ((browsing db).step first call).1 = ((browsing spec).step second call).1 ∧
      ∀ name, Option.Rel level (((browsing db).step first call).2.iterators name)
        (((browsing spec).step second call).2.iterators name) := by
  cases call with
  | call inner => exact absurd rfl (apart inner)
  | iterator name reverse start stop =>
    have outcome := opens name reverse start stop rfl
    change (first.open_ name (opener db reverse first.session.state start stop)).1 =
      (second.open_ name (opener spec reverse second.session.state start stop)).1 ∧
        ∀ other, Option.Rel level ((first.open_ name (opener db reverse first.session.state start stop)).2.iterators other)
          ((second.open_ name (opener spec reverse second.session.state start stop)).2.iterators other)
    generalize opener db reverse first.session.state start stop = left at outcome
    generalize opener spec reverse second.session.state start stop = right at outcome
    cases outcome with
    | panicked => exact ⟨rfl, held⟩
    | refused err => exact ⟨rfl, held⟩
    | made same => exact ⟨rfl, rel_update name (fun other _ => held other) same⟩
  | use name use =>
    simp only [browsing, Browser.step, Browser.withIterator]
    rcases rel_cases (held name) with ⟨left, right⟩ | ⟨it, other, left, right, same⟩
    · rw [left, right]
      exact ⟨rfl, held⟩
    · rw [left, right]
      obtain ⟨answer, kept⟩ := uses name use rfl it other right same
      exact ⟨congrArg BrowseReply.use answer, rel_update name (fun other _ => held other) kept⟩
  | error name =>
    simp only [browsing, Browser.step, Browser.withIterator]
    rcases rel_cases (held name) with ⟨left, right⟩ | ⟨it, other, left, right, same⟩
    · rw [left, right]
      exact ⟨rfl, held⟩
    · rw [left, right]
      exact ⟨congrArg BrowseReply.error (errors name rfl it other right same), held⟩

end Iterators

private theorem withIterator_session (browser : Browser db) (name : Nat) {method : db.Iter → BrowseReply × Browser db}
    (kept : ∀ it, (method it).2.session = browser.session) :
    (browser.withIterator name method).2.session = browser.session := by
  unfold Browser.withIterator
  cases browser.iterators name with
  | none => rfl
  | some it => exact kept it

/-- Opening and using an iterator changes neither the database nor the batches. -/
theorem step_session (browser : Browser db) {call : Browse} (apart : ∀ inner, call ≠ .call inner) :
    ((browsing db).step browser call).2.session = browser.session := by
  cases call with
  | call inner => exact absurd rfl (apart inner)
  | iterator name reverse start stop =>
    change (browser.open_ name (opener db reverse browser.session.state start stop)).2.session = _
    rcases opener db reverse browser.session.state start stop with _ | _ | it <;> rfl
  | use name call => exact withIterator_session browser name fun _ => rfl
  | error name => exact withIterator_session browser name fun _ => rfl

structure Beside (first : Browser db) (second : Browser spec) : Prop where
  session : second.session = Session.translate contents pending first.session
  iterators : ∀ name, Option.Rel level (first.iterators name) (second.iterators name)

variable {contents pending level} {first : Browser db} {second : Browser spec}

theorem beside_start (state : db.State) :
    Beside contents pending level (Browser.start state) (Browser.start (contents state)) := ⟨rfl, fun _ => .none⟩

namespace Beside

theorem iterate (uses : (iteration db.iter).Simulates (iteration spec.iter) level)
    (errors : ∀ left right, level left right → db.iter.error left = spec.iter.error right)
    (beside : Beside contents pending level first second) {call : Browse} (apart : ∀ inner, call ≠ .call inner)
    (opens : ∀ name reverse start stop, call = .iterator name reverse start stop →
      Opened level (opener db reverse first.session.state start stop)
        (opener spec reverse (contents first.session.state) start stop)) :
    ((browsing db).step first call).1 = ((browsing spec).step second call).1 ∧
      Beside contents pending level ((browsing db).step first call).2 ((browsing spec).step second call).2 := by
  have state : contents first.session.state = second.session.state := (congrArg Session.state beside.session).symm
  rw [state] at opens
  obtain ⟨answers, kept⟩ := iterate_alike beside.iterators apart opens (fun _ use _ it other _ => uses it other use)
    fun _ _ it other _ => errors it other
  refine ⟨answers, ?_, kept⟩
  rw [step_session first apart, step_session second apart, beside.session]

theorem step (agree : Matches contents pending level) (beside : Beside contents pending level first second) (call : Browse)
    (opens : ∀ name reverse start stop, call = .iterator name reverse start stop →
      Opened level (opener db reverse first.session.state start stop)
        (opener spec reverse (contents first.session.state) start stop)) :
    ((browsing db).step first call).1 = ((browsing spec).step second call).1 ∧
      Beside contents pending level ((browsing db).step first call).2 ((browsing spec).step second call).2 := by
  have iterates (apart : ∀ inner, call ≠ .call inner) :=
    beside.iterate agree.uses (fun _ _ => agree.errors) apart opens
  cases call with
  | call call =>
    have same := agree.translates.step first.session call
    rw [← beside.session] at same
    exact ⟨congrArg BrowseReply.call (congrArg Prod.fst same), (congrArg Prod.snd same).symm, beside.iterators⟩
  | iterator name reverse start stop => exact iterates nofun
  | use name call => exact iterates nofun
  | error name => exact iterates nofun

end Beside

theorem sessions_kept (translates : Translates contents pending) (first : Browser db) (second : Browser spec) (call : Browse)
    (same : second.session = Session.translate contents pending first.session) :
    ((browsing spec).step second call).2.session =
      Session.translate contents pending ((browsing db).step first call).2.session := by
  cases call with
  | call call =>
    have answered := translates.step first.session call
    rw [← same] at answered
    exact (congrArg Prod.snd answered).symm
  | iterator name reverse start stop => rw [step_session first (by simp), step_session second (by simp), same]
  | use name call => rw [step_session first (by simp), step_session second (by simp), same]
  | error name => rw [step_session first (by simp), step_session second (by simp), same]

section Refinement
variable (refines : Refines db spec)

private theorem iteration_read (it : db.Iter) (call : IterCall) :
    ((iteration db.iter).step it call).map id refines.cursor = (iteration spec.iter).step (refines.cursor it) call := by
  cases call with
  | valid => exact congrArg (Prod.map IterReply.valid id) (refines.valid it)
  | key => exact congrArg (Prod.map IterReply.key id) (refines.key it)
  | value => exact congrArg (Prod.map IterReply.value id) (refines.value it)
  | next => exact congrArg (Prod.map IterReply.next id) (refines.next it)

private theorem refines_matches : Matches refines.contents refines.pending fun it read => read = refines.cursor it where
  translates := Refines.translates refines
  uses := by
    intro it read call same
    subst same
    have answered := iteration_read refines it call
    exact ⟨congrArg Prod.fst answered, (congrArg Prod.snd answered).symm⟩
  errors := by
    intro it read same
    subst same
    exact refines.error it

private theorem opened_read (reverse : Bool) (state : db.State) (start stop : Slice) :
    Opened (fun it read => read = refines.cursor it) (opener db reverse state start stop)
      (opener spec reverse (refines.contents state) start stop) := by
  rw [← refines.opener_read]
  rcases opener db reverse state start stop with _ | _ | it
  · exact .panicked
  · exact .refused _
  · exact .made rfl

/-- A caller that keeps iterators cannot tell a database from one it refines. -/
theorem browsing_run (state : db.State) (calls : List Browse) :
    let run := (browsing db).run (Browser.start state) calls
    let expected := (browsing spec).run (Browser.start (refines.contents state)) calls
    run.1 = expected.1 ∧ refines.contents run.2.session.state = expected.2.session.state := by
  intro run expected
  have simulates : (browsing db).Simulates (browsing spec)
      (Beside refines.contents refines.pending fun it read => read = refines.cursor it) := by
    intro first second call beside
    exact beside.step (refines_matches refines) call fun _ reverse start stop _ => opened_read refines reverse _ start stop
  obtain ⟨replies, reached⟩ := simulates.run (beside_start state) calls
  exact ⟨replies, (congrArg Session.state reached.session).symm⟩

end Refinement
end TmDb.Proofs
