import Mathlib.Data.Set.Subsingleton
import TmDb.Lib.Linear

/-! A permit that is given away once. Whoever takes it uses it later; whoever voids what
it is for makes sure first that nobody takes it any more. Both come in two steps, so
a use can still meet something that has been voided in the meantime. -/

namespace TmDb.Lib

/-- `users` have taken the permit and not used it yet, `voiders` are about to void. -/
structure OneShot (ι : Type*) where
  ready : Bool
  users : Set ι
  voiders : Set ι

namespace OneShot
variable {ι : Type*}

inductive Event where
  | used
  | voided
  | refused
deriving DecidableEq

def fresh : OneShot ι := ⟨true, ∅, ∅⟩

inductive Step : System (OneShot ι) Event where
  | take {permit} (who : ι) (ready : permit.ready = true) :
      Step permit none { permit with ready := false, users := insert who permit.users }
  | refuse {permit} (taken : permit.ready = false) : Step permit (some .refused) permit
  | use {permit} {who : ι} (holds : who ∈ permit.users) :
      Step permit (some .used) { permit with users := permit.users \ {who} }
  | withdraw {permit} (who : ι) : Step permit none { permit with ready := false, voiders := insert who permit.voiders }
  | void {permit} {who : ι} (voids : who ∈ permit.voiders) :
      Step permit (some .voided) { permit with voiders := permit.voiders \ {who} }

/-- What a history says of the permit. -/
structure Accounted (history : List Event) (permit : OneShot ι) : Prop where
  once : history.count .used ≤ 1
  untouched : permit.ready = true → history = [] ∧ permit.users = ∅ ∧ permit.voiders = ∅
  alone : permit.users.Subsingleton
  waiting : permit.users.Nonempty → .used ∉ history
  spent : permit.ready = false → .used ∈ history ∨ .voided ∈ history ∨ permit.users.Nonempty ∨ permit.voiders.Nonempty

namespace Accounted
variable {history : List Event} {permit : OneShot ι}

theorem fresh : Accounted [] (fresh : OneShot ι) where
  once := by simp
  untouched _ := ⟨rfl, rfl, rfl⟩
  alone := Set.subsingleton_empty
  waiting := by simp
  spent absurd := by cases absurd

private theorem held (accounted : Accounted history permit) {who : ι} (holds : who ∈ permit.users ∨ who ∈ permit.voiders) :
    permit.ready = false := by
  rw [← Bool.not_eq_true]
  intro ready
  obtain ⟨_, users, voiders⟩ := accounted.untouched ready
  simp [users, voiders] at holds

private theorem take (accounted : Accounted history permit) (who : ι) (ready : permit.ready = true) :
    Accounted history { permit with ready := false, users := insert who permit.users } := by
  obtain ⟨rfl, users, _⟩ := accounted.untouched ready
  constructor
  · exact accounted.once
  · exact fun absurd => by cases absurd
  · simp [users]
  · simp
  · exact fun _ => .inr (.inr (.inl ⟨who, Set.mem_insert who _⟩))

private theorem refuse (accounted : Accounted history permit) (taken : permit.ready = false) :
    Accounted (history ++ [.refused]) permit where
  once := by simpa using accounted.once
  untouched ready := by cases taken.symm.trans ready
  alone := accounted.alone
  waiting held := by simpa using accounted.waiting held
  spent taken := by simpa using accounted.spent taken

private theorem use (accounted : Accounted history permit) {who : ι} (holds : who ∈ permit.users) :
    Accounted (history ++ [.used]) { permit with users := permit.users \ {who} } := by
  have unused : Event.used ∉ history := accounted.waiting ⟨who, holds⟩
  have taken := accounted.held (.inl holds)
  have gone : permit.users \ {who} = ∅ := by
    apply Set.eq_empty_of_forall_notMem
    intro other ⟨member, different⟩
    exact different (accounted.alone member holds)
  constructor
  · rw [List.count_append, List.count_eq_zero_of_not_mem unused]
    simp
  · exact fun ready => by cases taken.symm.trans ready
  · simp [gone]
  · simp [gone]
  · exact fun _ => .inl (by simp)

private theorem withdraw (accounted : Accounted history permit) (who : ι) :
    Accounted history { permit with ready := false, voiders := insert who permit.voiders } where
  once := accounted.once
  untouched absurd := by cases absurd
  alone := accounted.alone
  waiting := accounted.waiting
  spent _ := .inr (.inr (.inr ⟨who, Set.mem_insert who _⟩))

private theorem void (accounted : Accounted history permit) {who : ι} (voids : who ∈ permit.voiders) :
    Accounted (history ++ [.voided]) { permit with voiders := permit.voiders \ {who} } where
  once := by simpa using accounted.once
  untouched ready := by cases (accounted.held (.inr voids)).symm.trans ready
  alone := accounted.alone
  waiting held := by simpa using accounted.waiting held
  spent _ := .inr (.inl (by simp))

theorem run (steps : System.Run Step (OneShot.fresh : OneShot ι) history permit) : Accounted history permit := by
  induction steps with
  | start => exact fresh
  | silent _ step accounted =>
    cases step with
    | take who ready => exact accounted.take who ready
    | withdraw who => exact accounted.withdraw who
  | seen _ step accounted =>
    cases step with
    | refuse taken => exact accounted.refuse taken
    | use holds => exact accounted.use holds
    | void voids => exact accounted.void voids

end Accounted

/-- Once the permit is gone, a use comes exactly if somebody was about to make it. -/
theorem used_iff {first last : OneShot ι} {history : List Event} (steps : System.Run Step first history last)
    (taken : first.ready = false) :
    last.ready = false ∧ (.used ∈ history ∨ last.users.Nonempty ↔ first.users.Nonempty) := by
  induction steps with
  | start => exact ⟨taken, by simp⟩
  | silent _ step ih =>
    obtain ⟨gone, exactly⟩ := ih
    cases step with
    | take who ready => cases gone.symm.trans ready
    | withdraw who => exact ⟨rfl, exactly⟩
  | seen _ step ih =>
    obtain ⟨gone, exactly⟩ := ih
    refine ⟨?_, ?_⟩
    · cases step <;> exact gone
    · cases step with
      | refuse taken => simpa using exactly
      | use holds => exact iff_of_true (.inl (by simp)) (exactly.mp (.inr ⟨_, holds⟩))
      | void voids => simpa using exactly

end OneShot
end TmDb.Lib
