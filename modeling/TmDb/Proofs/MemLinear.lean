import TmDb.MemShared

/-! MemDB is concurrency-safe, as types.go asks: whatever the goroutines do at the
same time, on the MemDB and on PrefixDBs over it, they get the answers of some order
of their calls, and every call comes to an end. -/

namespace TmDb.Proofs
open Lib

section Alone
variable (tree : Store)

private theorem storeSet_alone (key value : Slice) :
    (MemDB.storeSet key value).alone tree = (MemDB.set tree key value).map .done id := by
  unfold MemDB.storeSet MemDB.set
  cases checkPair key value <;> rfl

private theorem storeDelete_alone (key : Slice) :
    (MemDB.storeDelete key).alone tree = (MemDB.delete tree key).map .done id := by
  unfold MemDB.storeDelete MemDB.delete
  cases checkKey key <;> rfl

private theorem writeBatch_alone (batch : MemBatch) :
    (MemDB.writeBatch batch).alone tree = @DirectCall.written memDB (MemBatch.write tree batch) := by
  cases batch with
  | none => rfl
  | some ops =>
    simp only [MemDB.writeBatch, Critical.alone, MemBatch.write, DirectCall.written, List.foldl_map]
    rfl

theorem critical_direct (call : DirectCall memDB) :
    (MemDB.critical call).alone tree = (direct memDB).step tree call := by
  cases call with
  | get key =>
    simp only [direct, DirectCall.step, memDB, MemDB.critical, MemDB.lookUp, MemDB.get]
    cases checkKey key with
    | error err => rfl
    | ok key => cases found : tree.get? key <;> simp [Critical.alone, found]
  | has key =>
    simp only [direct, DirectCall.step, memDB, MemDB.critical, MemDB.lookUp, MemDB.has]
    cases checkKey key <;> rfl
  | set key value => exact storeSet_alone tree key value
  | setSync key value => exact storeSet_alone tree key value
  | delete key => exact storeDelete_alone tree key
  | deleteSync key => exact storeDelete_alone tree key
  | write batch => exact writeBatch_alone tree batch
  | writeSync batch => exact writeBatch_alone tree batch
  | stats => rfl

private theorem withKey_alone (key : Slice) (refusal : Err → DirectReply memDB) (call : Slice → DirectCall memDB)
    (pfx : Bytes) :
    (PrefixDB.withKey key refusal call pfx).alone tree = match checkKey key with
      | .error err => (refusal err, tree)
      | .ok _ => (direct memDB).step tree (call (some (prefixed pfx key))) := by
  unfold PrefixDB.withKey
  cases checkKey key with
  | error err => rfl
  | ok _ => exact critical_direct tree _

private theorem withPair_alone (key value : Slice) (call : Slice → Slice → DirectCall memDB) (pfx : Bytes) :
    (PrefixDB.withPair key value call pfx).alone tree = match checkPair key value with
      | .error err => (.done (.error err), tree)
      | .ok (_, value) => (direct memDB).step tree (call (some (prefixed pfx key)) (some value)) := by
  unfold PrefixDB.withPair
  cases checkPair key value with
  | error err => rfl
  | ok pair => exact critical_direct tree _

theorem prefix_critical_direct (pfx : Bytes) (call : DirectCall memDB) :
    (PrefixDB.critical pfx call).alone tree =
      ((direct (prefixDB memDB pfx)).step tree (SharedCall.onPrefix pfx call)).map SharedCall.fromPrefix id := by
  cases call with
  | get key =>
    refine (withKey_alone tree key _ _ pfx).trans ?_
    simp only [direct, DirectCall.step, SharedCall.onPrefix, prefixDB, PrefixDB.get]
    cases checkKey key <;> rfl
  | has key =>
    refine (withKey_alone tree key _ _ pfx).trans ?_
    simp only [direct, DirectCall.step, SharedCall.onPrefix, prefixDB, PrefixDB.has]
    cases checkKey key <;> rfl
  | set key value =>
    refine (withPair_alone tree key value _ pfx).trans ?_
    simp only [direct, DirectCall.step, SharedCall.onPrefix, prefixDB, PrefixDB.setWith]
    cases checkPair key value <;> rfl
  | setSync key value =>
    refine (withPair_alone tree key value _ pfx).trans ?_
    simp only [direct, DirectCall.step, SharedCall.onPrefix, prefixDB, PrefixDB.setWith]
    cases checkPair key value <;> rfl
  | delete key =>
    refine (withKey_alone tree key _ _ pfx).trans ?_
    simp only [direct, DirectCall.step, SharedCall.onPrefix, prefixDB, PrefixDB.deleteWith]
    cases checkKey key <;> rfl
  | deleteSync key =>
    refine (withKey_alone tree key _ _ pfx).trans ?_
    simp only [direct, DirectCall.step, SharedCall.onPrefix, prefixDB, PrefixDB.deleteWith]
    cases checkKey key <;> rfl
  | write batch => exact critical_direct tree (.write batch)
  | writeSync batch => exact critical_direct tree (.writeSync batch)
  | stats => rfl

end Alone

theorem sequential_sharing : Guarded.sequential SharedCall.critical = sharing := by
  refine congrArg Machine.mk (funext fun tree => funext fun shared => ?_)
  obtain ⟨pfx, call⟩ := shared
  cases pfx with
  | none => exact critical_direct tree call
  | some pfx => exact prefix_critical_direct tree pfx call

variable {ι : Type} [DecidableEq ι]

/-- Any number of goroutines call a MemDB and PrefixDBs over it, point operations and
whole batches: in every run the answers are those of the same calls made one after
another, in an order that respects which calls were over before others began. -/
theorem memDB_linearizable (tree : Store) {history : List (Observation ι SharedCall (DirectReply memDB))}
    {world : Guarded Store ι SharedCall (DirectReply memDB)}
    (run : System.Run (Guarded.Step SharedCall.critical) (Guarded.start tree) history world) :
    Linearizable sharing tree history := by
  rw [← sequential_sharing]
  exact Guarded.linearizable run

/-- One goroutine sets a key through a PrefixDB while another one reads it from the MemDB. -/
theorem memDB_linearizable_meeting :
    ∃ (history : List (Observation Bool SharedCall (DirectReply memDB)))
      (world : Guarded Store Bool SharedCall (DirectReply memDB)),
      System.Run (Guarded.Step SharedCall.critical) (Guarded.start SortedMap.empty) history world ∧
        Observation.replied false history = [.value (.ok (some [3]))] ∧
        Linearizable sharing SortedMap.empty history := by
  have run : System.Run (Guarded.Step SharedCall.critical) (Guarded.start SortedMap.empty : Guarded Store Bool _ _) _ _ := .start
  have run := run.seen (.call true ⟨some [1], .set (some [2]) (some [3])⟩ rfl)
  have run := run.seen (.call false ⟨none, .get (some [1, 2])⟩ rfl)
  have run := run.silent (.lock true rfl rfl rfl)
  have run := run.silent (.grant true rfl rfl rfl)
  have run := run.silent (.update true rfl)
  have run := run.silent (.unlock true rfl)
  have run := run.silent (.rlock false rfl rfl rfl)
  have run := run.silent (.read false rfl rfl)
  have run := run.silent (.runlock false rfl)
  have run := run.seen (.reply false rfl)
  exact ⟨_, _, run, rfl, memDB_linearizable SortedMap.empty run⟩

/-- As long as a call is not answered some call can go on, no call goes on for ever, and
at the end every goroutine has had exactly as many answers as it has made calls. -/
theorem memDB_calls_complete (tree : Store) {history : List (Observation ι SharedCall (DirectReply memDB))}
    {world : Guarded Store ι SharedCall (DirectReply memDB)}
    (run : System.Run (Guarded.Step SharedCall.critical) (Guarded.start tree) history world) :
    (∀ who, world.threads who ≠ .idle → ∃ after, Guarded.Working SharedCall.critical world after) ∧
      (∀ worlds : Nat → Guarded Store ι SharedCall (DirectReply memDB), worlds 0 = world →
        ∃ moment, ¬ Guarded.Working SharedCall.critical (worlds moment) (worlds (moment + 1))) ∧
      ∀ who, world.threads who = .idle →
        (Observation.replied who history).length = (Observation.called who history).length := by
  have sound := Guarded.run_sound run
  refine ⟨fun who busy => sound.progress busy, ?_, fun who idle => Guarded.answered run idle⟩
  intro worlds first
  obtain ⟨active, idle⟩ := Guarded.few_busy run
  rw [← first] at idle
  exact Guarded.calls_end worlds idle

theorem memDB_calls_complete_waiting :
    ∃ (history : List (Observation Bool SharedCall (DirectReply memDB)))
      (world : Guarded Store Bool SharedCall (DirectReply memDB)),
      System.Run (Guarded.Step SharedCall.critical) (Guarded.start SortedMap.empty) history world ∧
        world.readers = 1 ∧ world.lock = some true ∧ ∃ after, Guarded.Working SharedCall.critical world after := by
  have run : System.Run (Guarded.Step SharedCall.critical) (Guarded.start SortedMap.empty : Guarded Store Bool _ _) _ _ := .start
  have run := run.seen (.call false ⟨none, .get (some [1])⟩ rfl)
  have run := run.silent (.rlock false rfl rfl rfl)
  have run := run.seen (.call true ⟨none, .delete (some [1])⟩ rfl)
  have run := run.silent (.lock true rfl rfl rfl)
  exact ⟨_, _, run, rfl, rfl, (memDB_calls_complete SortedMap.empty run).1 true nofun⟩

end TmDb.Proofs
