import Mathlib.Data.List.Infix
import Mathlib.Logic.Function.Basic
import TmDb.Lib.Machine

/-! Objects that many callers use at once. Of such a system one sees only who calls
and who is answered. The simplest one answers each call in a single step somewhere
between the two, and its histories are linearizable; a system whose steps it can
follow has no others. -/

namespace TmDb.Lib

/-- What is seen of a caller. -/
inductive Observation (ι κ ρ : Type*) where
  | call (who : ι) (call : κ)
  | reply (who : ι) (answer : ρ)

namespace Observation
variable {ι κ ρ : Type*} [DecidableEq ι]

def callOf (who : ι) : Observation ι κ ρ → Option κ
  | .call other request => if other = who then some request else none
  | .reply _ _ => none

def replyTo (who : ι) : Observation ι κ ρ → Option ρ
  | .call _ _ => none
  | .reply other answer => if other = who then some answer else none

def called (who : ι) (history : List (Observation ι κ ρ)) : List κ := history.filterMap (callOf who)

def replied (who : ι) (history : List (Observation ι κ ρ)) : List ρ := history.filterMap (replyTo who)

end Observation

/-- Steps that may be seen from outside, or not. -/
abbrev System (σ α : Type*) := σ → Option α → σ → Prop

namespace System
variable {σ τ α : Type*}

inductive Run (step : System σ α) (first : σ) : List α → σ → Prop where
  | start : Run step first [] first
  | silent {history before after} (run : Run step first history before) (last : step before none after) :
      Run step first history after
  | seen {history before after event} (run : Run step first history before) (last : step before (some event) after) :
      Run step first (history ++ [event]) after

variable {step : System σ α} {spec : System τ α}

theorem Run.trans {first middle last : σ} {early late : List α} (run : Run step first early middle)
    (rest : Run step middle late last) : Run step first (early ++ late) last := by
  induction rest with
  | start =>
    rw [List.append_nil]
    exact run
  | silent _ step ih => exact ih.silent step
  | seen _ step ih =>
    rw [← List.append_assoc]
    exact ih.seen step

theorem Run.kept {holds : σ → Prop} (kept : ∀ before label after, step before label after → holds before → holds after)
    {first last : σ} {history : List α} (run : Run step first history last) (initial : holds first) : holds last := by
  induction run with
  | start => exact initial
  | silent _ step ih => exact kept _ _ _ step ih
  | seen _ step ih => exact kept _ _ _ step ih

/-- A system whose every step can be followed by another one has its histories only. -/
theorem Run.follow {related : σ → τ → Prop}
    (follows : ∀ before label after abstract, step before label after → related before abstract →
      ∃ next, Run spec abstract label.toList next ∧ related after next)
    {first last : σ} {abstract : τ} {history : List α} (run : Run step first history last) (initial : related first abstract) :
    ∃ final, Run spec abstract history final ∧ related last final := by
  induction run with
  | start => exact ⟨abstract, .start, initial⟩
  | silent _ step ih =>
    obtain ⟨middle, sofar, matched⟩ := ih
    obtain ⟨next, more, matches_⟩ := follows _ _ _ _ step matched
    have joined := sofar.trans more
    rw [Option.toList_none, List.append_nil] at joined
    exact ⟨next, joined, matches_⟩
  | seen _ step ih =>
    obtain ⟨middle, sofar, matched⟩ := ih
    obtain ⟨next, more, matches_⟩ := follows _ _ _ _ step matched
    exact ⟨next, sofar.trans more, matches_⟩

end System

structure Effect (ι κ ρ : Type*) where
  who : ι
  call : κ
  answer : ρ

section Linearizable
variable {σ ι κ ρ : Type*} [DecidableEq ι]

def Effect.ofCaller (order : List (Effect ι κ ρ)) (who : ι) : List (Effect ι κ ρ) :=
  order.filter fun effect => effect.who = who

/-- The calls take effect one after another as on `machine`. At every moment of the
history some beginning of this order holds every call that has been answered, and no
call that has not been made: a call that is over before another one is made comes
before it. -/
structure Linearization (machine : Machine σ κ ρ) (initial : σ) (history : List (Observation ι κ ρ))
    (order : List (Effect ι κ ρ)) : Prop where
  answers : (machine.run initial (order.map Effect.call)).1 = order.map Effect.answer
  moments : ∀ early, early <+: history → ∃ sofar, sofar <+: order ∧ ∀ who,
    (Effect.ofCaller sofar who).map Effect.call <+: Observation.called who early ∧
      Observation.replied who early <+: (Effect.ofCaller sofar who).map Effect.answer

def Linearizable (machine : Machine σ κ ρ) (initial : σ) (history : List (Observation ι κ ρ)) : Prop :=
  ∃ order, Linearization machine initial history order

end Linearizable

namespace Observation
variable {ι κ ρ : Type*} [DecidableEq ι] (history : List (Observation ι κ ρ))

theorem called_own (who : ι) (request : κ) : called who (history ++ [.call who request]) = called who history ++ [request] := by
  simp [called, callOf]

theorem replied_own (who : ι) (answer : ρ) : replied who (history ++ [.reply who answer]) = replied who history ++ [answer] := by
  simp [replied, replyTo]

theorem called_other {who other : ι} (request : κ) (different : other ≠ who) :
    called other (history ++ [.call who request]) = called other history := by
  simp [called, callOf, different.symm]

theorem replied_other {who other : ι} (answer : ρ) (different : other ≠ who) :
    replied other (history ++ [.reply who answer]) = replied other history := by
  simp [replied, replyTo, different.symm]

theorem called_reply (who other : ι) (answer : ρ) :
    called other (history ++ [.reply who answer]) = called other history := by
  simp [called, callOf]

theorem replied_call (who other : ι) (request : κ) :
    replied other (history ++ [.call who request]) = replied other history := by
  simp [replied, replyTo]

end Observation

inductive Caller (κ ρ : Type*) where
  | idle
  | waiting (call : κ)
  | served (answer : ρ)

/-- An object that answers each call in one step; `order` records them. -/
structure Atomic (σ ι κ ρ : Type*) where
  state : σ
  callers : ι → Caller κ ρ
  order : List (Effect ι κ ρ)

namespace Atomic
variable {σ ι κ ρ : Type*}

def start (state : σ) : Atomic σ ι κ ρ := ⟨state, fun _ => .idle, []⟩

variable [DecidableEq ι]

inductive Step (machine : Machine σ κ ρ) : System (Atomic σ ι κ ρ) (Observation ι κ ρ) where
  | call {object who} (call : κ) (idle : object.callers who = .idle) :
      Step machine object (some (.call who call))
        { object with callers := Function.update object.callers who (.waiting call) }
  | effect {object who call} (waiting : object.callers who = .waiting call) :
      Step machine object none
        { state := (machine.step object.state call).2
          callers := Function.update object.callers who (.served (machine.step object.state call).1)
          order := object.order ++ [⟨who, call, (machine.step object.state call).1⟩] }
  | reply {object who answer} (served : object.callers who = .served answer) :
      Step machine object (some (.reply who answer))
        { object with callers := Function.update object.callers who .idle }

def unserved : Caller κ ρ → List κ
  | .waiting call => [call]
  | _ => []

def undelivered : Caller κ ρ → List ρ
  | .served answer => [answer]
  | _ => []

structure Recorded (machine : Machine σ κ ρ) (initial : σ) (history : List (Observation ι κ ρ))
    (object : Atomic σ ι κ ρ) : Prop extends Linearization machine initial history object.order where
  state : (machine.run initial (object.order.map Effect.call)).2 = object.state
  calls : ∀ who, Observation.called who history =
    (Effect.ofCaller object.order who).map Effect.call ++ unserved (object.callers who)
  replies : ∀ who, (Effect.ofCaller object.order who).map Effect.answer =
    Observation.replied who history ++ undelivered (object.callers who)

variable {machine : Machine σ κ ρ} {initial : σ} {history : List (Observation ι κ ρ)} {object : Atomic σ ι κ ρ}

theorem start_recorded : Recorded machine initial ([] : List (Observation ι κ ρ)) (start initial) where
  answers := rfl
  moments early nothing := by
    rw [List.prefix_nil.mp nothing]
    exact ⟨[], List.nil_prefix, fun _ => ⟨List.nil_prefix, List.nil_prefix⟩⟩
  state := rfl
  calls _ := rfl
  replies _ := rfl

private theorem Recorded.see (recorded : Recorded machine initial history object) {event : Observation ι κ ρ} {who : ι}
    {caller : Caller κ ρ}
    (calls : Observation.called who (history ++ [event]) =
      (Effect.ofCaller object.order who).map Effect.call ++ unserved caller)
    (replies : (Effect.ofCaller object.order who).map Effect.answer =
      Observation.replied who (history ++ [event]) ++ undelivered caller)
    (others : ∀ other, other ≠ who → Observation.called other (history ++ [event]) = Observation.called other history ∧
      Observation.replied other (history ++ [event]) = Observation.replied other history) :
    Recorded machine initial (history ++ [event])
      { object with callers := Function.update object.callers who caller } := by
  have asked : ∀ other, Observation.called other (history ++ [event]) =
      (Effect.ofCaller object.order other).map Effect.call ++
        unserved (Function.update object.callers who caller other) := by
    intro other
    by_cases own : other = who
    · subst own
      rw [Function.update_self, calls]
    · rw [Function.update_of_ne own, (others other own).1, recorded.calls]
  have answered : ∀ other, (Effect.ofCaller object.order other).map Effect.answer =
      Observation.replied other (history ++ [event]) ++
        undelivered (Function.update object.callers who caller other) := by
    intro other
    by_cases own : other = who
    · subst own
      rw [Function.update_self, replies]
    · rw [Function.update_of_ne own, (others other own).2, recorded.replies]
  refine ⟨⟨recorded.answers, ?_⟩, recorded.state, asked, answered⟩
  intro early begins
  rcases List.prefix_concat_iff.mp begins with whole | before
  · rw [whole]
    exact ⟨object.order, List.prefix_rfl, fun other => ⟨⟨_, (asked other).symm⟩, ⟨_, (answered other).symm⟩⟩⟩
  · exact recorded.moments early before

private theorem Recorded.effect (recorded : Recorded machine initial history object) {who : ι} {call : κ}
    (waiting : object.callers who = .waiting call) :
    Recorded machine initial history
      { state := (machine.step object.state call).2
        callers := Function.update object.callers who (.served (machine.step object.state call).1)
        order := object.order ++ [⟨who, call, (machine.step object.state call).1⟩] } where
  answers := by
    rw [List.map_append, List.map_append, Machine.run_append, recorded.state, recorded.answers]
    rfl
  moments early begins := by
    obtain ⟨sofar, beginning, between⟩ := recorded.moments early begins
    exact ⟨sofar, beginning.trans (List.prefix_append _ _), between⟩
  state := by
    rw [List.map_append, Machine.run_append, recorded.state]
    rfl
  calls other := by
    rw [recorded.calls]
    by_cases own : other = who
    · subst own
      simp [waiting, unserved, Effect.ofCaller]
    · simp [Effect.ofCaller, Ne.symm own, Function.update_of_ne own]
  replies other := by
    have before := recorded.replies other
    by_cases own : other = who
    · subst own
      have none_due : undelivered (object.callers other) = [] := by
        rw [waiting]
        rfl
      rw [none_due, List.append_nil] at before
      simp [← before, undelivered, Effect.ofCaller]
    · have same : undelivered (Function.update object.callers who
          (.served (machine.step object.state call).1) other) = undelivered (object.callers other) := by
        rw [Function.update_of_ne own]
      rw [same, ← before]
      simp [Effect.ofCaller, Ne.symm own]

theorem Recorded.run (run : System.Run (Step machine) (start initial) history object) :
    Recorded machine initial history object := by
  induction run with
  | start => exact start_recorded
  | silent _ step recorded =>
    cases step with
    | effect waiting => exact recorded.effect waiting
  | @seen history _ _ _ _ step recorded =>
    cases step with
    | @call _ who request idle =>
      refine recorded.see ?_ ?_ fun other different => ⟨?_, ?_⟩
      · rw [Observation.called_own, recorded.calls, idle]
        simp [unserved]
      · rw [Observation.replied_call, recorded.replies, idle]
        rfl
      · exact Observation.called_other _ _ different
      · exact Observation.replied_call _ _ _ _
    | @reply _ who answer served =>
      refine recorded.see ?_ ?_ fun other different => ⟨?_, ?_⟩
      · rw [Observation.called_reply, recorded.calls, served]
        rfl
      · rw [Observation.replied_own, recorded.replies, served]
        simp [undelivered]
      · exact Observation.called_reply _ _ _ _
      · exact Observation.replied_other _ _ different

end Atomic

end TmDb.Lib
