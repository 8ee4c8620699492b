import Mathlib.Data.List.Basic
import Mathlib.Data.List.Induction
import Mathlib.Logic.Relation

/-! Deterministic machines that answer each input and move to a new state, and
the rules for comparing two of them over whole runs. A shared machine is compared
with one that only sees the inputs a projection keeps, so that several clients of
one state can each be given a private specification. Where several parties take
steps in any order, the runs are those of a relation. -/

namespace TmDb.Lib

/-- What every step of a relation keeps holds wherever a run leads. -/
theorem steps_kept {σ : Type*} {step : σ → σ → Prop} {holds : σ → Prop}
    (kept : ∀ {before after}, step before after → holds before → holds after)
    {first last : σ} (run : Relation.ReflTransGen step first last) (initial : holds first) : holds last := by
  induction run with
  | refl => exact initial
  | tail _ step ih => exact kept step ih

structure Machine (σ ι ο : Type*) where
  step : σ → ι → ο × σ

namespace Machine
variable {σ τ ι κ ο : Type*}

def run (machine : Machine σ ι ο) : σ → List ι → List ο × σ
  | state, [] => ([], state)
  | state, input :: rest =>
    let (output, next) := machine.step state input
    let (outputs, last) := machine.run next rest
    (output :: outputs, last)

variable (machine : Machine σ ι ο) (other : Machine τ ι ο)

@[simp] theorem run_nil (state : σ) : machine.run state [] = ([], state) := rfl

@[simp] theorem run_cons (state : σ) (input : ι) (rest : List ι) :
    machine.run state (input :: rest) =
      ((machine.step state input).1 :: (machine.run (machine.step state input).2 rest).1,
        (machine.run (machine.step state input).2 rest).2) := rfl

theorem run_append (state : σ) (first rest : List ι) :
    machine.run state (first ++ rest) =
      ((machine.run state first).1 ++ (machine.run (machine.run state first).2 rest).1,
        (machine.run (machine.run state first).2 rest).2) := by
  induction first generalizing state with
  | nil => rfl
  | cons input first ih => simp only [List.cons_append, run_cons, ih]

@[simp] theorem run_length (state : σ) (inputs : List ι) :
    (machine.run state inputs).1.length = inputs.length := by
  induction inputs generalizing state with
  | nil => rfl
  | cons input rest ih => simp [ih]

theorem run_invariant (invariant : σ → Prop)
    (kept : ∀ state input, invariant state → invariant (machine.step state input).2)
    {state : σ} (initial : invariant state) (inputs : List ι) :
    invariant (machine.run state inputs).2 := by
  induction inputs generalizing state with
  | nil => exact initial
  | cons input rest ih => exact ih (kept state input initial)

/-- The same of a property of the state and of the inputs that have led to it. -/
theorem run_history (holds : List ι → σ → Prop)
    (kept : ∀ done state input, holds done state → holds (done ++ [input]) (machine.step state input).2)
    {state : σ} (initial : holds [] state) (inputs : List ι) : holds inputs (machine.run state inputs).2 := by
  induction inputs using List.reverseRecOn with
  | nil => exact initial
  | append_singleton done input ih =>
    rw [run_append]
    exact kept done _ input ih

def Simulates (related : σ → τ → Prop) : Prop :=
  ∀ state spec input, related state spec →
    (machine.step state input).1 = (other.step spec input).1 ∧
      related (machine.step state input).2 (other.step spec input).2

variable {machine other}

/-- Related states that answer the inputs of a run alike answer the run alike. -/
theorem run_related {allowed : ι → Prop} {related : σ → τ → Prop}
    (simulates : ∀ state spec input, allowed input → related state spec →
      (machine.step state input).1 = (other.step spec input).1 ∧
        related (machine.step state input).2 (other.step spec input).2)
    {state : σ} {spec : τ} (initial : related state spec) {inputs : List ι} (all : ∀ input ∈ inputs, allowed input) :
    (machine.run state inputs).1 = (other.run spec inputs).1 ∧
      related (machine.run state inputs).2 (other.run spec inputs).2 := by
  induction inputs generalizing state spec with
  | nil => exact ⟨rfl, initial⟩
  | cons input rest ih =>
    obtain ⟨first, others⟩ := List.forall_mem_cons.mp all
    obtain ⟨same, next⟩ := simulates state spec input first initial
    obtain ⟨sames, last⟩ := ih next others
    exact ⟨by simp only [run_cons, same, sames], last⟩

theorem Simulates.run {related : σ → τ → Prop} (simulates : machine.Simulates other related)
    {state : σ} {spec : τ} (initial : related state spec) (inputs : List ι) :
    (machine.run state inputs).1 = (other.run spec inputs).1 ∧
      related (machine.run state inputs).2 (other.run spec inputs).2 :=
  run_related (fun state spec input _ => simulates state spec input) initial fun _ _ => trivial

theorem run_kept {υ : Type*} {other : Machine τ ι υ} {related : σ → τ → Prop}
    (kept : ∀ state spec input, related state spec → related (machine.step state input).2 (other.step spec input).2)
    {state : σ} {spec : τ} (initial : related state spec) (inputs : List ι) :
    related (machine.run state inputs).2 (other.run spec inputs).2 := by
  induction inputs generalizing state spec with
  | nil => exact initial
  | cons input rest ih => exact ih (kept state spec input initial)

/-- Runs from related states give the same answers exactly when all their inputs are
ones that related states answer alike. -/
theorem run_eq_iff {allowed : ι → Prop} {related : σ → τ → Prop}
    (alike : ∀ state spec input, related state spec → allowed input →
      (machine.step state input).1 = (other.step spec input).1 ∧
        related (machine.step state input).2 (other.step spec input).2)
    (apart : ∀ state spec input, related state spec → ¬ allowed input →
      (machine.step state input).1 ≠ (other.step spec input).1)
    {state : σ} {spec : τ} (initial : related state spec) (inputs : List ι) :
    (machine.run state inputs).1 = (other.run spec inputs).1 ↔ ∀ input ∈ inputs, allowed input := by
  induction inputs generalizing state spec with
  | nil => simp
  | cons input rest ih =>
    rw [List.forall_mem_cons, run_cons, run_cons, List.cons_eq_cons]
    by_cases permitted : allowed input
    · obtain ⟨same, next⟩ := alike state spec input initial permitted
      rw [ih next]
      exact and_congr_left' (iff_of_true same permitted)
    · have differ := apart state spec input initial permitted
      exact iff_of_false (fun both => differ both.1) fun both => permitted both.1

/-- Every input of a run is allowed in the state it arrives in. -/
def Along (machine : Machine σ ι ο) (allowed : σ → ι → Prop) : σ → List ι → Prop
  | _, [] => True
  | state, input :: rest => allowed state input ∧ machine.Along allowed (machine.step state input).2 rest

theorem along_of_history (machine : Machine σ ι ο) {allowed : σ → ι → Prop} {state : σ} {inputs : List ι}
    (each : ∀ done input rest, done ++ input :: rest = inputs → allowed (machine.run state done).2 input) :
    machine.Along allowed state inputs := by
  induction inputs generalizing state with
  | nil => exact trivial
  | cons input rest ih =>
    refine ⟨each [] input rest rfl, ih ?_⟩
    intro done next others joined
    exact each (input :: done) next others (congrArg (List.cons input) joined)

/-- A property of the states of two machines before each of the same inputs. -/
def Paired {υ : Type*} (machine : Machine σ ι ο) (other : Machine τ ι υ) (holds : σ → τ → ι → Prop) :
    σ → τ → List ι → Prop
  | _, _, [] => True
  | state, spec, input :: rest =>
    holds state spec input ∧ machine.Paired other holds (machine.step state input).2 (other.step spec input).2 rest

theorem paired_left {υ : Type*} (machine : Machine σ ι ο) (other : Machine τ ι υ) {holds : σ → ι → Prop}
    (state : σ) (spec : τ) (inputs : List ι) :
    machine.Paired other (fun state _ input => holds state input) state spec inputs ↔ machine.Along holds state inputs := by
  induction inputs generalizing state spec with
  | nil => exact Iff.rfl
  | cons input rest ih => exact and_congr_right fun _ => ih _ _

section Lockstep
variable {υ : Type*} (machine : Machine σ ι ο) (other : Machine τ ι υ)
variable (related : σ → τ → Prop) {allowed : τ → ι → Prop}
variable (kept : ∀ state spec input, related state spec → allowed spec input →
  related (machine.step state input).2 (other.step spec input).2)
include kept

theorem along_related {state : σ} {spec : τ} (initial : related state spec) {inputs : List ι}
    (along : other.Along allowed spec inputs) : related (machine.run state inputs).2 (other.run spec inputs).2 := by
  induction inputs generalizing state spec with
  | nil => exact initial
  | cons input rest ih => exact ih (kept state spec input initial along.1) along.2

theorem along_answers {agree : ο → υ → Prop}
    (answers : ∀ state spec input, related state spec → allowed spec input →
      agree (machine.step state input).1 (other.step spec input).1)
    {state : σ} {spec : τ} (initial : related state spec) {inputs : List ι} (along : other.Along allowed spec inputs) :
    List.Forall₂ agree (machine.run state inputs).1 (other.run spec inputs).1 := by
  induction inputs generalizing state spec with
  | nil => exact .nil
  | cons input rest ih =>
    exact .cons (answers state spec input initial along.1) (ih (kept state spec input initial along.1) along.2)

/-- When moreover related states meet a property exactly for the inputs that are
allowed, two runs meet it exactly when all their inputs are allowed. -/
theorem paired_iff_along {holds : σ → τ → ι → Prop}
    (exactly : ∀ state spec input, related state spec → (holds state spec input ↔ allowed spec input))
    {state : σ} {spec : τ} (initial : related state spec) (inputs : List ι) :
    machine.Paired other holds state spec inputs ↔ other.Along allowed spec inputs := by
  induction inputs generalizing state spec with
  | nil => exact Iff.rfl
  | cons input rest ih =>
    constructor
    · rintro ⟨first, others⟩
      have permitted := (exactly state spec input initial).mp first
      exact ⟨permitted, (ih (kept state spec input initial permitted)).mp others⟩
    · rintro ⟨permitted, others⟩
      exact ⟨(exactly state spec input initial).mpr permitted, (ih (kept state spec input initial permitted)).mpr others⟩

end Lockstep

def answers (select : ι → Option κ) (inputs : List ι) (outputs : List ο) : List ο :=
  (inputs.zip outputs).filterMap fun entry => (select entry.1).map fun _ => entry.2

variable (machine) (alone : Machine τ κ ο)

/-- Inputs outside the projection may change the shared state only in ways the
private specification cannot see. Its answers are then those of a run in which
no other input was ever made. -/
theorem run_project (select : ι → Option κ) (related : σ → τ → Prop)
    (own : ∀ state spec input kept, select input = some kept → related state spec →
      (machine.step state input).1 = (alone.step spec kept).1 ∧
        related (machine.step state input).2 (alone.step spec kept).2)
    (others : ∀ state spec input, select input = none → related state spec →
      related (machine.step state input).2 spec)
    {state : σ} {spec : τ} (initial : related state spec) (inputs : List ι) :
    answers select inputs (machine.run state inputs).1 = (alone.run spec (inputs.filterMap select)).1 ∧
      related (machine.run state inputs).2 (alone.run spec (inputs.filterMap select)).2 := by
  induction inputs generalizing state spec with
  | nil => exact ⟨rfl, initial⟩
  | cons input rest ih =>
    cases selected : select input with
    | none =>
      obtain ⟨same, last⟩ := ih (others state spec input selected initial)
      refine ⟨?_, by simpa only [run_cons, List.filterMap_cons, selected] using last⟩
      simpa only [answers, run_cons, List.zip_cons_cons, List.filterMap_cons, selected, Option.map_none] using same
    | some kept =>
      obtain ⟨answer, next⟩ := own state spec input kept selected initial
      obtain ⟨same, last⟩ := ih next
      refine ⟨?_, by simpa only [run_cons, List.filterMap_cons, selected] using last⟩
      simp only [answers, run_cons, List.zip_cons_cons, List.filterMap_cons, selected, Option.map_some, answer]
      exact congrArg _ same

section Granted
variable (refused : ο → Bool)

def granted (machine : Machine σ ι ο) (state : σ) (inputs : List ι) : List (ι × ο) :=
  (inputs.zip (machine.run state inputs).1).filter fun entry => !refused entry.2

theorem granted_refused {machine : Machine σ ι ο} {state : σ} {input : ι}
    (refusal : refused (machine.step state input).1 = true) (rest : List ι) :
    machine.granted refused state (input :: rest) = machine.granted refused (machine.step state input).2 rest := by
  simp [granted, refusal]

theorem granted_answered {machine : Machine σ ι ο} {state : σ} {input : ι}
    (answer : refused (machine.step state input).1 = false) (rest : List ι) :
    machine.granted refused state (input :: rest) =
      (input, (machine.step state input).1) :: machine.granted refused (machine.step state input).2 rest := by
  simp [granted, answer]

variable {machine : Machine σ ι ο} {other : Machine τ ι ο} {refused}

/-- The granted inputs get the answers of a run in which no other input was made. -/
theorem run_granted {related : σ → τ → Prop}
    (step : ∀ state spec input, related state spec →
      refused (machine.step state input).1 = true ∧ related (machine.step state input).2 spec ∨
      refused (machine.step state input).1 = false ∧ (machine.step state input).1 = (other.step spec input).1 ∧
        related (machine.step state input).2 (other.step spec input).2)
    {state : σ} {spec : τ} (initial : related state spec) (inputs : List ι) :
    let granted := machine.granted refused state inputs
    granted.map Prod.snd = (other.run spec (granted.map Prod.fst)).1 ∧
      related (machine.run state inputs).2 (other.run spec (granted.map Prod.fst)).2 := by
  induction inputs generalizing state spec with
  | nil => exact ⟨rfl, initial⟩
  | cons input rest ih =>
    rcases step state spec input initial with ⟨refusal, kept⟩ | ⟨answer, same, kept⟩
    · rw [granted_refused refused refusal]
      exact ih kept
    · obtain ⟨answers, reached⟩ := ih kept
      rw [granted_answered refused answer]
      refine ⟨?_, reached⟩
      rw [List.map_cons, List.map_cons, run_cons, same]
      exact congrArg _ answers

/-- What may come of an input: it is refused and does nothing, it is refused and takes
effect nevertheless, or it is answered. -/
inductive Upshot (refused : ο → Bool) (lasting : ο → Prop) (related : σ → τ → Prop) (spec : τ) (result : ο × σ)
    (expected : ο × τ) : Prop where
  | void (refusal : refused result.1 = true) (kept : related result.2 spec)
  | lasting (refusal : refused result.1 = true) (lasts : lasting expected.1) (kept : related result.2 expected.2)
  | answered (answer : refused result.1 = false) (same : result.1 = expected.1) (kept : related result.2 expected.2)

theorem Upshot.map {σ' τ' ο' : Type*} {lasting : ο → Prop} {related : σ → τ → Prop} {spec : τ} {result : ο × σ}
    {expected : ο × τ} (upshot : Upshot refused lasting related spec result expected) {refused' : ο' → Bool}
    {lasting' : ο' → Prop} {related' : σ' → τ' → Prop} {spec' : τ'} {result' : ο' × σ'} {expected' : ο' × τ'}
    (reply : ο → ο') (answers : result'.1 = reply result.1) (expects : expected'.1 = reply expected.1)
    (refuses : ∀ answer, refused' (reply answer) = refused answer) (lasts : ∀ answer, lasting answer → lasting' (reply answer))
    (unmoved : related result.2 spec → related' result'.2 spec')
    (moved : related result.2 expected.2 → related' result'.2 expected'.2) :
    Upshot refused' lasting' related' spec' result' expected' := by
  have refusals : refused' result'.1 = refused result.1 := (congrArg refused' answers).trans (refuses result.1)
  cases upshot with
  | void refusal kept => exact .void (refusals.trans refusal) (unmoved kept)
  | lasting refusal last kept => exact .lasting (refusals.trans refusal) (expects ▸ lasts _ last) (moved kept)
  | answered answer same kept =>
    exact .answered (refusals.trans answer) (answers.trans ((congrArg reply same).trans expects.symm)) (moved kept)

/-- The granted inputs get the answers of a run in which, of the refused ones, only
some were made. What relates the states may depend on the inputs so far. -/
theorem run_upshots {lasting : ι → ο → Prop} {related : List ι → σ → τ → Prop} {inputs : List ι}
    (step : ∀ done input rest, done ++ input :: rest = inputs → ∀ state spec, related done state spec →
      Upshot refused (lasting input) (related (done ++ [input])) spec (machine.step state input) (other.step spec input))
    {state : σ} {spec : τ} (initial : related [] state spec) :
    ∃ kept, List.Sublist kept (inputs.zip (machine.run state inputs).1) ∧
      (kept.filter fun entry => !refused entry.2) = machine.granted refused state inputs ∧
      List.Forall₂ (fun entry answer => if refused entry.2 then lasting entry.1 answer else entry.2 = answer) kept
        (other.run spec (kept.map Prod.fst)).1 := by
  suffices onward : ∀ rest done state spec, done ++ rest = inputs → related done state spec →
      ∃ kept, List.Sublist kept (rest.zip (machine.run state rest).1) ∧
        (kept.filter fun entry => !refused entry.2) = machine.granted refused state rest ∧
        List.Forall₂ (fun entry answer => if refused entry.2 then lasting entry.1 answer else entry.2 = answer) kept
          (other.run spec (kept.map Prod.fst)).1 from onward inputs [] state spec rfl initial
  intro rest
  induction rest with
  | nil => exact fun _ _ _ _ _ => ⟨[], .slnil, rfl, .nil⟩
  | cons input rest ih =>
    intro done state spec joined before
    have joined' : (done ++ [input]) ++ rest = inputs := (List.append_cons done input rest).symm.trans joined
    cases step done input rest joined state spec before with
    | void refusal related =>
      obtain ⟨kept, among, granted, answers⟩ := ih _ _ _ joined' related
      exact ⟨kept, among.cons _, granted.trans (granted_refused refused refusal rest).symm, answers⟩
    | lasting refusal lasts related =>
      obtain ⟨kept, among, granted, answers⟩ := ih _ _ _ joined' related
      refine ⟨(input, (machine.step state input).1) :: kept, among.cons_cons _, ?_, .cons ?_ answers⟩
      · rw [granted_refused refused refusal, ← granted]
        simp [refusal]
      · rwa [if_pos refusal]
    | answered answer same related =>
      obtain ⟨kept, among, granted, answers⟩ := ih _ _ _ joined' related
      refine ⟨(input, (machine.step state input).1) :: kept, among.cons_cons _, ?_, .cons ?_ answers⟩
      · rw [granted_answered refused answer, ← granted]
        simp [answer]
      · rwa [if_neg (by simp [answer])]

end Granted

end Machine
end TmDb.Lib
