import TmDb.Proofs.IteratorDeadlock

/-! Closing a MemDB iterator. Once the context is cancelled the goroutine cannot wait
any more, and every step of it or of the drain loop uses up a part of the traversal,
of the channel or of the way out. The read lock goes back exactly once. -/

namespace TmDb.Proofs
open Lib

variable {ι : Type} {opening : Opening} {snapshot : Store} {before after world : World ι}

/-- The steps that the goroutine can still make. A send is worth one more than the
slot it fills, which the drain loop has to empty again. -/
def walkerRank (opening : Opening) (snapshot : Store) : Option Walker → Nat
  | some (.walking last _) => 3 * (opening.traversal.rest snapshot last).length + 3
  | some (.offering entry _) => 3 * (opening.traversal.rest snapshot (some entry.1)).length + 5
  | some .closing => 2
  | some .unlocking => 1
  | _ => 0

def clientRank : Client → Nat
  | .draining => 1
  | _ => 0

def closeRank (opening : Opening) (snapshot : Store) (world : World ι) : Nat :=
  walkerRank opening snapshot world.walker + world.buffer.length + clientRank world.client

def Closing (world : World ι) : Prop := world.client = .draining ∨ world.client = .closed

structure Ended (world : World ι) : Prop where
  client : world.client = .closed
  walker : world.walker = some .done

section Rank
variable (kept : Snapshot opening snapshot before)
include kept

theorem walkerStep_rank (step : WalkerStep opening before after) :
    closeRank opening snapshot after < closeRank opening snapshot before := by
  have tree : walkerLocks before.walker = 1 → before.tree = snapshot := kept.unchanged
  cases step with
  | skip walking next =>
    rw [tree (by simp [walking, walkerLocks])] at next
    simp only [closeRank, walkerRank, walking, next, rest_cons next, List.length_cons]
    omega
  | abort walking next =>
    simp only [closeRank, walkerRank, walking]
    omega
  | offer walking next =>
    rw [tree (by simp [walking, walkerLocks])] at next
    simp only [closeRank, walkerRank, walking, next, rest_cons next, List.length_cons]
    omega
  | finish walking next =>
    simp only [closeRank, walkerRank, walking]
    omega
  | send offering room =>
    simp only [closeRank, walkerRank, offering, List.length_append, List.length_singleton]
    omega
  | cancel offering done =>
    simp only [closeRank, walkerRank, offering]
    omega
  | close closing =>
    simp only [closeRank, walkerRank, closing]
    omega
  | runlock unlocking =>
    simp only [closeRank, walkerRank, unlocking]
    omega

end Rank

theorem closing_clientStep (closing : Closing before) (step : ClientStep opening before after) :
    Closing after ∧ closeRank opening snapshot after < closeRank opening snapshot before := by
  cases step with
  | drain draining arrived =>
    refine ⟨.inl draining, ?_⟩
    simp only [closeRank, arrived, List.length_cons]
    omega
  | drained draining empty closed =>
    refine ⟨.inr rfl, ?_⟩
    simp only [closeRank, clientRank, draining]
    omega
  | refuse found | construct found | next found | read found | rlock found | runlock found | close found =>
    rcases closing with now | now <;> simp [found] at now
  | receive found | receiveClosed found =>
    rcases found with found | found <;> rcases closing with now | now <;> simp [found] at now

theorem walkerStep_client (step : WalkerStep opening before after) : after.client = before.client := by
  cases step <;> rfl

theorem Snapshot.closing_progress (kept : Snapshot opening snapshot world) (closing : Closing world) :
    Ended world ∨ (∃ after, WalkerStep opening world after) ∨ ∃ after, ClientStep opening world after := by
  have cancelled := kept.closing.mpr closing
  obtain ⟨walker, found⟩ := Option.ne_none_iff_exists'.mp kept.started
  by_cases gone : walker = .done
  · subst gone
    have closed := kept.shut.mpr (.inr found)
    rcases closing with draining | returned
    · right
      right
      cases buffer : world.buffer with
      | nil => exact ⟨_, .drained draining buffer closed⟩
      | cons entry rest => exact ⟨_, .drain draining buffer⟩
    · exact .inl ⟨returned, found⟩
  · refine .inr (.inl ((walker_moves found gone).resolve_left ?_))
    rintro ⟨_, _, _, _, running⟩
    rw [cancelled] at running
    cases running

/-- A step of a run: where the goroutine stood, or who else moved. -/
inductive Event (ι : Type) where
  | goroutine (stood : Walker)
  | client
  | writer (i : ι)

def Event.own : Event ι → Bool
  | .writer _ => false
  | _ => true

def Event.release : Event ι → Bool
  | .goroutine .unlocking => true
  | _ => false

def released : Option Walker → Nat
  | some .done => 1
  | _ => 0

private theorem walkerStep_stands (step : WalkerStep opening before after) : ∃ stood, before.walker = some stood := by
  cases step with
  | skip stands | abort stands | offer stands | finish stands | send stands | cancel stands | close stands
  | runlock stands => exact ⟨_, stands⟩

private theorem walkerStep_released {stood : Walker} (found : before.walker = some stood)
    (step : WalkerStep opening before after) :
    released after.walker = released before.walker + [(Event.goroutine stood : Event ι)].countP Event.release := by
  cases step with
  | skip stands | abort stands | offer stands | finish stands | send stands | cancel stands | close stands
  | runlock stands =>
    obtain rfl := Option.some.inj (found.symm.trans stands)
    simp [released, stands, Event.release]

private theorem clientStep_released (locked : Locked before) (step : ClientStep opening before after) :
    released after.walker = released before.walker := by
  cases step with
  | construct fresh => rw [locked.fresh fresh]; rfl
  | refuse | next | receive | receiveClosed | read | rlock | runlock | close | drain | drained => rfl

section Runs
variable [DecidableEq ι]

inductive Traced (opening : Opening) (start : World ι) : List (Event ι) → World ι → Prop where
  | start : Traced opening start [] start
  | goroutine {events before after stood} (run : Traced opening start events before)
      (found : before.walker = some stood) (step : WalkerStep opening before after) :
      Traced opening start (events ++ [.goroutine stood]) after
  | client {events before after} (run : Traced opening start events before) (step : ClientStep opening before after) :
      Traced opening start (events ++ [.client]) after
  | writer {events before after} (i : ι) (run : Traced opening start events before) (step : WriterStep i before after) :
      Traced opening start (events ++ [.writer i]) after

theorem Traced.of_steps {start : World ι} (run : Steps opening start world) : ∃ events, Traced opening start events world := by
  induction run with
  | refl => exact ⟨[], .start⟩
  | tail _ step ih =>
    obtain ⟨events, traced⟩ := ih
    cases step with
    | walker step =>
      obtain ⟨stood, found⟩ := walkerStep_stands step
      exact ⟨_, traced.goroutine found step⟩
    | client step => exact ⟨_, traced.client step⟩
    | writer i step => exact ⟨_, traced.writer i step⟩

theorem Traced.steps {start : World ι} {events : List (Event ι)} (run : Traced opening start events world) :
    Steps opening start world := by
  induction run with
  | start => exact .refl
  | goroutine run found step ih => exact ih.tail (.walker step)
  | client run step ih => exact ih.tail (.client step)
  | writer i run step ih => exact ih.tail (.writer i step)

/-- From the call of Close on, the rank pays for every own step. -/
theorem Traced.closing_bounded {start : World ι} {events : List (Event ι)} (run : Traced opening start events world)
    (kept : Snapshot opening snapshot start) (locked : Locked start) (closing : Closing start) :
    Closing world ∧ events.countP Event.own + closeRank opening snapshot world ≤ closeRank opening snapshot start := by
  induction run with
  | start => exact ⟨closing, by simp⟩
  | goroutine run found step ih =>
    obtain ⟨still, paid⟩ := ih
    have less := walkerStep_rank (kept.steps locked run.steps) step
    refine ⟨?_, ?_⟩
    · unfold Closing
      rwa [walkerStep_client step]
    · simp only [List.countP_append, List.countP_singleton, Event.own, if_true]
      omega
  | client run step ih =>
    obtain ⟨still, paid⟩ := ih
    obtain ⟨later, less⟩ := @closing_clientStep _ _ snapshot _ _ still step
    refine ⟨later, ?_⟩
    simp only [List.countP_append, List.countP_singleton, Event.own, if_true]
    omega
  | writer i run step ih =>
    obtain ⟨still, paid⟩ := ih
    simp only [List.countP_append, List.countP_singleton, Event.own, Bool.false_eq_true, if_false]
    cases step <;> exact ⟨still, paid⟩

theorem Traced.trans {start middle : World ι} {first second : List (Event ι)} (run : Traced opening start first middle)
    (later : Traced opening middle second world) : Traced opening start (first ++ second) world := by
  induction later with
  | start => simpa using run
  | goroutine _ found step ih => simpa using Traced.goroutine ih found step
  | client _ step ih => simpa using Traced.client ih step
  | writer i _ step ih => simpa using Traced.writer i ih step

theorem Traced.releases {tree : Store} {programs : ι → List WriterCall} {events : List (Event ι)}
    (run : Traced opening (World.initial tree programs) events world) :
    events.countP Event.release = released world.walker := by
  induction run with
  | start => rfl
  | goroutine run found step ih => rw [List.countP_append, ih, walkerStep_released found step]
  | client run step ih =>
    have locked := (initial_locked tree programs).steps run.steps
    rw [List.countP_append, ih, clientStep_released locked step]
    rfl
  | writer i run step ih =>
    rw [List.countP_append, ih]
    cases step <;> rfl

structure Emptied (world : World ι) : Prop where
  closed : world.closed = true
  buffer : world.buffer = []
  item : world.item = none

/-- The goroutine has closed the channel before the drain loop ends, so it sends nothing
after it. -/
theorem Traced.emptied {start : World ι} {events : List (Event ι)} (run : Traced opening start events world)
    (kept : Snapshot opening snapshot start) (locked : Locked start) (draining : start.client = .draining) :
    world.client = .closed → Emptied world := by
  induction run with
  | start =>
    intro returned
    rw [draining] at returned
    cases returned
  | goroutine run found step ih =>
    intro returned
    rw [walkerStep_client step] at returned
    have emptied := ih returned
    have stands := (kept.steps locked run.steps).shut.mp emptied.closed
    cases step with
    | runlock => exact ⟨emptied.closed, emptied.buffer, emptied.item⟩
    | skip found | abort found | offer found | finish found | send found | cancel found | close found => simp [found] at stands
  | @client events before after run step ih =>
    intro returned
    obtain ⟨still, _⟩ := run.closing_bounded kept locked (.inl draining)
    cases step with
    | drained _ empty closed => exact ⟨closed, empty, rfl⟩
    | drain draining =>
      rw [draining] at returned
      cases returned
    | refuse found | construct found | next found | read found | rlock found | runlock found | close found =>
      rcases still with now | now <;> simp [found] at now
    | receive found | receiveClosed found => cases returned
  | writer i run step ih =>
    intro returned
    cases step <;> exact ⟨(ih returned).closed, (ih returned).buffer, (ih returned).item⟩

structure Unchanged (first second : World ι) : Prop where
  walker : second.walker = first.walker
  buffer : second.buffer = first.buffer
  closed : second.closed = first.closed
  cancelled : second.cancelled = first.cancelled
  item : second.item = first.item
  obtained : second.obtained = first.obtained
  readers : second.readers = first.readers

/-- After the end the client can only call Close again, which has nothing to do. -/
theorem late_unchanged {last : World ι} (ended : Ended last) (emptied : Emptied last) (cancelled : last.cancelled = true)
    (later : Relation.ReflTransGen (LateStep opening) last world) : Unchanged last world ∧ Closing world := by
  induction later with
  | refl => exact ⟨⟨rfl, rfl, rfl, rfl, rfl, rfl, rfl⟩, .inr ended.client⟩
  | tail _ step ih =>
    obtain ⟨same, closing⟩ := ih
    have walker := same.walker.trans ended.walker
    have buffer := same.buffer.trans emptied.buffer
    cases step with
    | close opened closed again =>
      subst again
      exact ⟨⟨same.walker, same.buffer, same.closed, cancelled.symm, same.item, same.obtained, same.readers⟩, .inl rfl⟩
    | step step =>
      cases step with
      | walker step =>
        cases step with
        | skip found | abort found | offer found | finish found | send found | cancel found | close found | runlock found =>
          simp [walker] at found
      | writer i step =>
        cases step <;>
          exact ⟨⟨same.walker, same.buffer, same.closed, same.cancelled, same.item, same.obtained, same.readers⟩, closing⟩
      | client step =>
        cases step with
        | drained draining =>
          exact ⟨⟨same.walker, same.buffer, same.closed, same.cancelled, emptied.item.symm, same.obtained, same.readers⟩,
            .inr rfl⟩
        | drain draining arrived =>
          rw [buffer] at arrived
          cases arrived
        | refuse found | construct found | next found | read found | rlock found | runlock found | close found =>
          rcases closing with now | now <;> simp [found] at now
        | receive found | receiveClosed found =>
          rcases found with found | found <;> rcases closing with now | now <;> simp [found] at now

/-- Close, in every run of the client, the goroutine and any writers: there is always a
step of the goroutine or of the drain loop until both have ended, only so many of them
can be made, and then the channel is closed and empty, the constructor's read lock has
been released once, and the iterator is invalid whatever is called on it. -/
theorem memDB_close_completes (opening : Opening) (tree : Store) (programs : ι → List WriterCall) {events : List (Event ι)}
    {called : World ι} (reached : Traced opening (World.initial tree programs) events called)
    (draining : called.client = .draining) :
    ∃ bound, ∀ later last, Traced opening called later last →
      later.countP Event.own ≤ bound ∧
      (Ended last ∨ (∃ after, WalkerStep opening last after) ∨ ∃ after, ClientStep opening last after) ∧
      (Ended last → last.closed = true ∧ last.buffer = [] ∧ last.item = none ∧ last.readers = 0 ∧
        (events ++ later).countP Event.release = 1 ∧
        ∀ again, Relation.ReflTransGen (LateStep opening) last again → Unchanged last again ∧
          (again.client = .closed ∨ ∃ after, ClientStep opening again after ∧ after.client = .closed)) := by
  have locked := (initial_locked tree programs).steps reached.steps
  obtain ⟨snapshot, kept⟩ : ∃ snapshot, Snapshot opening snapshot called := by
    refine (reachable_stage reached.steps).resolve_left ?_
    intro unopened
    rcases unopened.client with found | found <;> simp [draining] at found
  refine ⟨closeRank opening snapshot called, ?_⟩
  intro later last run
  have keeps := kept.steps locked run.steps
  obtain ⟨closing, paid⟩ := run.closing_bounded kept locked (.inl draining)
  refine ⟨by omega, keeps.closing_progress closing, ?_⟩
  intro ended
  have emptied := run.emptied kept locked draining ended.client
  have free := (locked.steps run.steps).readers
  simp only [ended.walker, ended.client, walkerLocks, clientLocks] at free
  have once := (reached.trans run).releases
  rw [ended.walker] at once
  refine ⟨emptied.closed, emptied.buffer, emptied.item, free, once, ?_⟩
  intro again late
  obtain ⟨same, closing⟩ := late_unchanged ended emptied (keeps.closing.mpr (.inr ended.client)) late
  refine ⟨same, ?_⟩
  rcases closing with busy | returned
  · right
    exact ⟨_, .drained busy (same.buffer.trans emptied.buffer) (same.closed.trans emptied.closed), rfl⟩
  · exact .inl returned

end Runs

/-- Close with the channel full and the goroutine waiting at it. -/
theorem memDB_close_completes_full :
    let opening : Opening := ⟨none, some [100], false⟩
    ∃ (events : List (Event Unit)) (called : World Unit) (bound : Nat),
      Traced opening (World.initial crowded fun _ => []) events called ∧ called.client = .draining ∧
      called.buffer.length = chBufferSize ∧ (∃ entry visitor, called.walker = some (.offering entry visitor)) ∧
      ∀ later last, Traced opening called later last → later.countP Event.own ≤ bound ∧
        (Ended last ∨ (∃ after, WalkerStep opening last after) ∨ ∃ after, ClientStep opening last after) ∧
        (Ended last → last.buffer = [] ∧ last.readers = 0) := by
  intro opening
  obtain ⟨primed, buffer, entry, visitor, full, reached⟩ :=
    @blocked_reachable Unit opening _ crowded (fun _ => []) rfl (by decide +kernel)
  obtain ⟨events, run⟩ := Traced.of_steps (reached.tail (.client (.close rfl)))
  obtain ⟨bound, completes⟩ := memDB_close_completes opening crowded (fun _ => []) run rfl
  refine ⟨events, _, bound, run, rfl, full, ⟨entry, visitor, rfl⟩, ?_⟩
  intro later last traced
  obtain ⟨bounded, moves, ended⟩ := completes later last traced
  exact ⟨bounded, moves, fun finished => ⟨(ended finished).2.1, (ended finished).2.2.2.1⟩⟩

end TmDb.Proofs
