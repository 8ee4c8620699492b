import Mathlib.Data.List.Count
import TmDb.BadgerShared
import TmDb.Lib.OneShot

/-! A WriteBatch is not to be flushed twice, nor flushed after a Cancel. The channel
firstFlush rules out the first for any number of goroutines, but the second only as long
as no Close overtakes a Write. -/

namespace TmDb.Proofs
open Lib

variable {api : WriteBatch} {ι : Type}

/-- The channel as a permit to call Flush. -/
def permit (world : BadgerShared api ι) : OneShot ι where
  ready := world.batch.firstFlush
  users := { who | ∃ sync, world.tasks who = .flushing sync }
  voiders := { who | world.tasks who = .cancelling }

def Touch.event : Touch → OneShot.Event
  | .flush => .used
  | .cancel => .voided
  | .refused => .refused

theorem Touch.event_injective : Function.Injective Touch.event := by
  intro first second same
  cases first <;> cases second <;> first | rfl | cases same

variable {world after : BadgerShared api ι} {who : ι}

theorem permit_start (engine : Engine) : permit (BadgerShared.start engine : BadgerShared api ι) = OneShot.fresh := by
  simp [permit, BadgerShared.start, badgerDB, OneShot.fresh]

private theorem set_permit (key value : Slice) :
    permit { world with batch := (BadgerBatch.set api world.batch key value).2 } = permit world := by
  unfold BadgerBatch.set
  cases checkPair key value <;> rfl

private theorem delete_permit (key : Slice) :
    permit { world with batch := (BadgerBatch.delete api world.batch key).2 } = permit world := by
  unfold BadgerBatch.delete
  cases checkKey key <;> rfl

variable [DecidableEq ι]

private theorem permit_move {users voiders : Set ι} (task : BatchTask)
    (flushes : (∃ sync, task = .flushing sync) ↔ who ∈ users) (cancels : task = .cancelling ↔ who ∈ voiders)
    (others : ∀ other, other ≠ who →
      (other ∈ users ↔ other ∈ (permit world).users) ∧ (other ∈ voiders ↔ other ∈ (permit world).voiders)) :
    permit (world.move who task) = ⟨world.batch.firstFlush, users, voiders⟩ := by
  have placed : ∀ other, (world.move who task).tasks other = if other = who then task else world.tasks other :=
    fun other => Function.update_apply ..
  have sameUsers : (permit (world.move who task)).users = users := by
    ext other
    by_cases named : other = who
    · subst named
      simpa [permit, placed] using flushes
    · simpa [permit, placed, named] using (others other named).1.symm
  have sameVoiders : (permit (world.move who task)).voiders = voiders := by
    ext other
    by_cases named : other = who
    · subst named
      simpa [permit, placed] using cancels
    · simpa [permit, placed, named] using (others other named).2.symm
  subst sameUsers sameVoiders
  rfl

private theorem permit_passing {task : BatchTask} (before : ∀ sync, world.tasks who ≠ .flushing sync)
    (neither : world.tasks who ≠ .cancelling) (next : ∀ sync, task ≠ .flushing sync) (nor : task ≠ .cancelling) :
    permit (world.move who task) = permit world :=
  permit_move task (by simp [before, next]) (by simp [neither, nor]) fun _ _ => ⟨.rfl, .rfl⟩

private theorem afterFlush_passing (sync : Bool) (result : Except Err Unit) :
    (∀ again, BatchTask.afterFlush sync result ≠ .flushing again) ∧ BatchTask.afterFlush sync result ≠ .cancelling := by
  cases result <;> cases sync <;> simp [BatchTask.afterFlush]

theorem step_permit {label : Option Touch} (step : BadgerShared.Step world label after) :
    label = none ∧ permit after = permit world ∨ OneShot.Step (permit world) (label.map Touch.event) (permit after) := by
  cases step with
  | set who key value idle => exact .inl ⟨rfl, set_permit key value⟩
  | delete who key idle => exact .inl ⟨rfl, delete_permit key⟩
  | write who sync idle => exact .inl ⟨rfl, permit_passing (by simp [idle]) (by simp [idle]) (by simp) (by simp)⟩
  | @receive _ who sync writing ready =>
    right
    have moved : permit ({ world with batch := ⟨world.batch.wb, false⟩ }.move who (.flushing sync)) =
        ⟨false, insert who (permit world).users, (permit world).voiders⟩ :=
      permit_move _ (by simp) (by simp [permit, writing]) fun other different => ⟨by simp [different, permit], .rfl⟩
    rw [moved]
    exact .take who ready
  | refuse writing empty =>
    right
    rw [permit_passing (by simp [writing]) (by simp [writing]) (by simp) (by simp)]
    exact .refuse empty
  | @flush _ who sync result engine wb flushing flushed =>
    right
    obtain ⟨done, neither⟩ := afterFlush_passing sync result
    have moved : permit ({ world with engine := engine, batch := ⟨wb, world.batch.firstFlush⟩ }.move who
        (.afterFlush sync result)) = ⟨world.batch.firstFlush, (permit world).users \ {who}, (permit world).voiders⟩ :=
      permit_move _ (by simp [done]) (by simp [neither, permit, flushing])
        fun other different => ⟨by simp [different, permit], .rfl⟩
    rw [moved]
    exact @OneShot.Step.use _ (permit world) who ⟨sync, flushing⟩
  | sync syncing =>
    exact .inl ⟨rfl, permit_passing (by simp [syncing]) (by simp [syncing]) (by simp) (by simp)⟩
  | close who idle => exact .inl ⟨rfl, permit_passing (by simp [idle]) (by simp [idle]) (by simp) (by simp)⟩
  | @drain _ who closing =>
    right
    have moved : permit ({ world with batch := ⟨world.batch.wb, false⟩ }.move who .cancelling) =
        ⟨false, (permit world).users, insert who (permit world).voiders⟩ :=
      permit_move _ (by simp [permit, closing]) (by simp) fun other different => ⟨.rfl, by simp [different, permit]⟩
    rw [moved]
    exact .withdraw who
  | @cancel _ who cancelling =>
    right
    have moved : permit ({ world with batch := ⟨api.cancel world.batch.wb, world.batch.firstFlush⟩ }.move who .idle) =
        ⟨world.batch.firstFlush, (permit world).users, (permit world).voiders \ {who}⟩ :=
      permit_move _ (by simp [permit, cancelling]) (by simp) fun other different => ⟨.rfl, by simp [different, permit]⟩
    rw [moved]
    exact OneShot.Step.void cancelling

theorem run_permit {first last : BadgerShared api ι} {history : List Touch} (run : BadgerShared.Run first history last) :
    System.Run OneShot.Step (permit first) (history.map Touch.event) (permit last) := by
  induction run with
  | start => exact .start
  | silent _ step ih =>
    rcases step_permit step with ⟨_, same⟩ | moves
    · rw [same]
      exact ih
    · exact ih.silent moves
  | seen _ step ih =>
    rcases step_permit step with ⟨absurd, _⟩ | moves
    · cases absurd
    · rw [List.map_append]
      exact ih.seen moves

private theorem event_mem {touch : Touch} {history : List Touch} :
    Touch.event touch ∈ history.map Touch.event ↔ touch ∈ history :=
  List.mem_map_of_injective Touch.event_injective

private theorem accounted {engine : Engine} {history : List Touch}
    (run : BadgerShared.Run (.start engine) history world) :
    OneShot.Accounted (history.map Touch.event) (permit world) := by
  have steps := run_permit run
  rw [permit_start] at steps
  exact .run steps

private theorem refused_alone (sync : Bool) (idle : world.tasks who = .idle) (empty : world.batch.firstFlush = false) :
    BadgerShared.Run world [.refused] world := by
  have entered : BadgerShared.Step world none (world.move who (.writing sync)) := .write who sync idle
  have refused : BadgerShared.Step (world.move who (.writing sync)) (some .refused)
      ((world.move who (.writing sync)).move who .idle) :=
    .refuse (Function.update_self ..) empty
  have back : (world.move who (.writing sync)).move who .idle = world := by
    simp only [BadgerShared.move, Function.update_idem, ← idle, Function.update_eq_self]
  rw [back] at refused
  exact (System.Run.start.silent entered).seen refused

private theorem flushed_alone (sync : Bool) (idle : world.tasks who = .idle) (ready : world.batch.firstFlush = true)
    {result : Except Err Unit} {engine : Engine} {wb : api.State}
    (flushed : api.flush world.engine world.batch.wb = (result, engine, wb)) :
    BadgerShared.Run world [.flush] ⟨engine, ⟨wb, false⟩, Function.update world.tasks who (.afterFlush sync result)⟩ := by
  have entered : BadgerShared.Step world none (world.move who (.writing sync)) := .write who sync idle
  have received : BadgerShared.Step (world.move who (.writing sync)) none
      ({ world.move who (.writing sync) with batch := ⟨world.batch.wb, false⟩ }.move who (.flushing sync)) :=
    .receive (Function.update_self ..) ready
  have done := @BadgerShared.Step.flush api ι _
    ({ world.move who (.writing sync) with batch := ⟨world.batch.wb, false⟩ }.move who (.flushing sync))
    who sync result engine wb (Function.update_self ..) flushed
  simp only [BadgerShared.move, Function.update_idem] at entered received done
  exact ((System.Run.start.silent entered).silent received).seen done

theorem write_alone (sync : Bool) (idle : world.tasks who = .idle) :
    ∃ history, BadgerShared.Run world history
      (let written := if sync then BadgerBatch.writeSync api world.engine world.batch
        else BadgerBatch.write api world.engine world.batch
      ⟨written.2.1, written.2.2, world.tasks⟩) := by
  cases ready : world.batch.firstFlush with
  | false =>
    have refused := refused_alone sync idle ready
    refine ⟨[.refused], ?_⟩
    cases sync with
    | false => simpa [BadgerBatch.write, ready] using refused
    | true => simpa [BadgerBatch.writeSync, BadgerBatch.write, BadgerDB.withSync, ready] using refused
  | true =>
    rcases flushed : api.flush world.engine world.batch.wb with ⟨result, engine, wb⟩
    have run := flushed_alone sync idle ready flushed
    have back : Function.update world.tasks who .idle = world.tasks := by rw [← idle, Function.update_eq_self]
    refine ⟨[.flush], ?_⟩
    cases sync with
    | false =>
      have stays : BatchTask.afterFlush false result = .idle := by cases result <;> rfl
      simpa [BadgerBatch.write, ready, flushed, BadgerShared.move, stays, back] using run
    | true =>
      cases result with
      | error err =>
        simpa [BadgerBatch.writeSync, BadgerBatch.write, BadgerDB.withSync, ready, flushed, BatchTask.afterFlush, back]
          using run
      | ok _ =>
        have synced := run.silent (.sync (Function.update_self ..))
        simpa [BadgerBatch.writeSync, BadgerBatch.write, BadgerDB.withSync, ready, flushed, BadgerShared.move, back] using synced

theorem close_alone (idle : world.tasks who = .idle) :
    ∃ history, BadgerShared.Run world history ⟨world.engine, (BadgerBatch.close api world.batch).2, world.tasks⟩ := by
  have entered : BadgerShared.Step world none (world.move who .closing) := .close who idle
  have drained := @BadgerShared.Step.drain api ι _ (world.move who .closing) who (Function.update_self ..)
  have cancelled := @BadgerShared.Step.cancel api ι _
    ({ world.move who .closing with batch := ⟨world.batch.wb, false⟩ }.move who .cancelling) who (Function.update_self ..)
  have back : Function.update world.tasks who .idle = world.tasks := by rw [← idle, Function.update_eq_self]
  simp only [BadgerShared.move, Function.update_idem, back] at entered drained cancelled
  exact ⟨_, ((System.Run.start.silent entered).silent drained).seen cancelled⟩

/-- However many goroutines write one batch, Flush is called once at most, by the one
that all others leave it to. A Write is turned away only if the batch is flushed or
cancelled, or about to be. -/
theorem badger_batch_flushed_once {engine : Engine} {history : List Touch}
    (run : BadgerShared.Run (.start engine) history world) :
    history.count .flush ≤ 1 ∧
      (∀ who sync, world.tasks who = .flushing sync →
        .flush ∉ history ∧ ∀ other again, world.tasks other = .flushing again → other = who) ∧
      (.refused ∈ history → .flush ∈ history ∨ .cancel ∈ history ∨
        ∃ who, (∃ sync, world.tasks who = .flushing sync) ∨ world.tasks who = .cancelling) := by
  have account := accounted run
  refine ⟨?_, fun who sync flushing => ⟨?_, fun other again also => ?_⟩, fun refused => ?_⟩
  · rw [← List.count_map_of_injective history Touch.event Touch.event_injective]
    exact account.once
  · exact fun flushed => account.waiting ⟨who, sync, flushing⟩ (event_mem.mpr flushed)
  · exact account.alone ⟨again, also⟩ ⟨sync, flushing⟩
  · have turned : OneShot.Event.refused ∈ history.map Touch.event := event_mem.mpr refused
    have gone : (permit world).ready = false := by
      rw [← Bool.not_eq_true]
      intro ready
      rw [(account.untouched ready).1] at turned
      cases turned
    rcases account.spent gone with used | voided | ⟨who, flushing⟩ | ⟨who, cancelling⟩
    · exact .inl (event_mem.mp used)
    · exact .inr (.inl (event_mem.mp voided))
    · exact .inr (.inr ⟨who, .inl flushing⟩)
    · exact .inr (.inr ⟨who, .inr cancelling⟩)

theorem badger_batch_flushed_once_contended :
    ∃ world : BadgerShared .buffered Bool,
      BadgerShared.Run (.start ⟨SortedMap.empty, []⟩) [.refused, .flush] world ∧ [Touch.refused, .flush].count .flush ≤ 1 := by
  have entered : BadgerShared.Run (.start ⟨SortedMap.empty, []⟩ : BadgerShared .buffered Bool) [] _ :=
    (System.Run.start.silent (.write false false rfl)).silent (.write true true rfl)
  have received := entered.silent (@BadgerShared.Step.receive _ _ _ _ false false rfl rfl)
  have decided := received.seen (@BadgerShared.Step.refuse _ _ _ _ true true rfl rfl)
  have run := decided.seen (@BadgerShared.Step.flush _ _ _ _ false false _ _ _ rfl rfl)
  exact ⟨_, run, (badger_batch_flushed_once run).1⟩

end TmDb.Proofs
