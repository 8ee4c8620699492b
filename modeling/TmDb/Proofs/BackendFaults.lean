import TmDb.Proofs.BatchAutomaton
import TmDb.Proofs.BoltCursor
import TmDb.Proofs.Refusals

/-! The backends over a storage engine are one database. Given the same engine they
answer every caller alike, failed writes included; and when the calls that the engine
failed are left out, they answer as MemDB does. -/

namespace TmDb.Proofs
open Lib

theorem Scanning.of_simulates {ι : Type} {ops : IterOps ι} {related : ι → Scan → Prop}
    (simulates : (iteration ops).Simulates (iteration Scan.ops) related)
    (domain : ∀ it scan, related it scan → ops.domain it = Scan.ops.domain scan)
    (error : ∀ it scan, related it scan → ops.error it = none)
    (remaining : ∀ it scan, related it scan → scan.items.length ≤ ops.remaining it) : Scanning ops related where
  domain := domain _ _
  valid := by
    intro it scan same
    obtain ⟨answer, kept⟩ := simulates it scan .valid same
    exact ⟨_, Prod.ext (IterReply.valid.inj answer) rfl, kept⟩
  key := by
    intro it scan same
    obtain ⟨answer, kept⟩ := simulates it scan .key same
    exact ⟨_, Prod.ext (IterReply.key.inj answer) rfl, kept⟩
  value := by
    intro it scan same
    obtain ⟨answer, kept⟩ := simulates it scan .value same
    exact ⟨_, Prod.ext (IterReply.value.inj answer) rfl, kept⟩
  next := by
    intro it scan same
    obtain ⟨answer, kept⟩ := simulates it scan .next same
    exact ⟨_, Prod.ext (IterReply.next.inj answer) rfl, kept⟩
  error := error _ _
  remaining := remaining _ _

theorem level_scanning (valid read next : Bool) :
    Scanning (LevelIter.ops valid read next) fun it scan => scan = LevelIter.scan it := by
  apply Scanning.of_simulates (LevelIter.ops_scan valid read next)
  · intro it scan same
    rw [same]
    rfl
  · intro it scan same
    rfl
  · intro it scan same
    rw [same]
    exact le_rfl

/-- BoltDB's bound on the steps left counts what its cursor has, inside the domain or not. -/
theorem bolt_scanning :
    Scanning BoltIter.ops fun it scan => ∃ wrapper, it = BoltIter.wrapping wrapper ∧ scan = LevelIter.scan wrapper := by
  apply Scanning.of_simulates BoltIter.ops_scan
  · rintro _ _ ⟨wrapper, rfl, rfl⟩
    rfl
  · intro it scan same
    rfl
  · rintro _ _ ⟨wrapper, rfl, rfl⟩
    change wrapper.ahead.length ≤ (LevelIter.path wrapper).length
    unfold LevelIter.ahead
    split
    · exact Nat.zero_le _
    · exact (List.takeWhile_prefix _).length_le

def DB.writable (db : DB) : Writable := ⟨db.State, db.Batch, db.set, db.delete, db.newBatch, db.batch⟩

private theorem set_attempts (engine : Engine) (key value : Slice) :
    LevelDB.set engine key value = Unreliable.set engine key value := by
  unfold LevelDB.set Unreliable.set Plain.set
  cases checkPair key value with
  | error err => rfl
  | ok pair =>
    simp only [Engine.write, Unreliable.attempt]
    cases engine.fault <;> rfl

private theorem delete_attempts (engine : Engine) (key : Slice) :
    LevelDB.delete engine key = Unreliable.delete engine key := by
  unfold LevelDB.delete Unreliable.delete Plain.delete
  cases checkKey key with
  | error err => rfl
  | ok key =>
    simp only [Engine.write, Unreliable.attempt]
    cases engine.fault <;> rfl

private theorem commit_attempts (engine : Engine) (pending : Pending) :
    Reference.commit ⟨engine, pending⟩ = (Unreliable.write engine pending).map id fun after => ⟨after.1, after.2⟩ := by
  cases pending with
  | none => rfl
  | some updates =>
    simp only [Reference.commit, Unreliable.write, Pending.write, Unreliable.attempt]
    cases engine.fault <;> rfl

theorem opener_unreliable (reverse : Bool) (engine : Engine) :
    opener unreliable reverse engine = Plain.scan reverse engine.store := by
  cases reverse <;> rfl

section Engines
variable {db : DB}

/-- A writing half that follows the reference automaton is that of the plain map over
an engine. -/
theorem Reading.honours (reading : Reading (DB.writable db)) (setSync : db.setSync = db.set)
    (deleteSync : db.deleteSync = db.delete)
    (get : ∀ state key, db.get state key = Plain.get (reading.engine state).store key)
    (has : ∀ state key, db.has state key = Plain.has (reading.engine state).store key) :
    @Honours db unreliable (fun _ => false) reading.engine reading.pending := by
  have set (state : db.State) (key value : Slice) :
      (db.set state key value).map id reading.engine = Unreliable.set (reading.engine state) key value :=
    (reading.set state key value).trans (set_attempts _ key value)
  have delete (state : db.State) (key : Slice) :
      (db.delete state key).map id reading.engine = Unreliable.delete (reading.engine state) key :=
    (reading.delete state key).trans (delete_attempts _ key)
  have written {result : Except Err Unit × db.State × db.Batch} {engine : Engine} {pending : Pending}
      (commits : result.map id (fun after => Reference.mk (reading.engine after.1) (reading.pending after.2)) =
        Reference.commit ⟨engine, pending⟩) :
      result.map id (Prod.map reading.engine reading.pending) = Unreliable.write engine pending := by
    rw [commit_attempts] at commits
    obtain ⟨answer, after⟩ := Prod.ext_iff.mp commits
    obtain ⟨engine, pending⟩ := Reference.mk.inj after
    exact Prod.ext answer (Prod.ext engine pending)
  exact {
    keyEmpty := rfl
    valueNil := rfl
    get := get
    has := has
    set := fun state key value => .made rfl (set state key value)
    setSync := fun state key value => .made rfl (setSync ▸ set state key value)
    delete := fun state key => .made rfl (delete state key)
    deleteSync := fun state key => .made rfl (deleteSync ▸ delete state key)
    newBatch := reading.newBatch
    batchSet := fun batch key value => .made rfl (reading.batchSet batch key value)
    batchDelete := fun batch key => .made rfl (reading.batchDelete batch key)
    batchWrite := fun state batch => .made rfl (written (reading.batchWrite state batch))
    batchWriteSync := fun state batch => .made rfl (written (reading.batchWriteSync state batch))
    batchClose := fun batch => .made rfl (reading.batchClose batch) }

theorem opensAlike_unreliable (contents : db.State → Engine) {related : db.Iter → Scan → Prop}
    (scanning : Scanning db.iter related)
    (refuses : ∀ reverse state start stop err, checkBounds start stop = .error err →
      opener db reverse state start stop = some (.error err))
    (opens : ∀ reverse state start stop, checkBounds start stop = .ok () →
      ∃ it, opener db reverse state start stop = some (.ok it) ∧
        related it ⟨start, stop, Store.scan (contents state).store start stop reverse⟩) :
    @OpensAlike db unreliable contents related fun it scan => scan = it where
  scanning := scanning
  expects := Contract.scanning plainContract
  opens reverse state start stop := by
    rw [opener_unreliable, Plain.scan]
    cases bounds : checkBounds start stop with
    | error err => exact .of_refused (refuses reverse state start stop err bounds) rfl
    | ok _ =>
      obtain ⟨it, opened, at_⟩ := opens reverse state start stop bounds
      exact .of_made opened rfl ⟨_, at_, rfl, scan_distinct _ _ _ _⟩

end Engines

private theorem get_plain (engine : Engine) (key : Slice) : BoltDB.get engine key = Plain.get engine.store key := by
  unfold BoltDB.get Plain.get
  cases checkKey key <;> rfl

private theorem has_plain (engine : Engine) (key : Slice) : BoltDB.has engine key = Plain.has engine.store key := by
  unfold BoltDB.has BoltDB.get Plain.has
  cases checkKey key <;> rfl

private theorem levelDB_imitates {valid read next : Bool} {newIterator : Store → Slice → Slice → Bool → LevelIter}
    {batch : BatchOps Engine LevelBatch} {stats : Engine → List (Bytes × Bytes)}
    (reading : Reading ⟨Engine, LevelBatch, LevelDB.set, LevelDB.delete, some [], batch⟩) (same : reading.engine = id)
    (reads : ∀ store start stop reverse, checkBounds start stop = .ok () →
      (⟨start, stop, Store.scan store start stop reverse⟩ : Scan) = LevelIter.scan (newIterator store start stop reverse)) :
    @Imitates (LevelDB.db (LevelIter.ops valid read next) newIterator batch stats) unreliable (fun _ => false) id := by
  let db := LevelDB.db (LevelIter.ops valid read next) newIterator batch stats
  have honours := @Reading.honours db reading rfl rfl (by rw [same]; exact get_plain) (by rw [same]; exact has_plain)
  rw [same] at honours
  refine ⟨_, _, _, honours, @opensAlike_unreliable db id _ (level_scanning valid read next) ?_ ?_⟩
  · intro reverse engine start stop err bounds
    cases reverse <;> simp [db, opener, LevelDB.db, bounds]
  · intro reverse engine start stop bounds
    refine ⟨newIterator engine.store start stop reverse, ?_, reads engine.store start stop reverse bounds⟩
    cases reverse <;> simp [db, opener, LevelDB.db, bounds]

theorem goLevelDB_imitates (property : Engine → String → Option Bytes) :
    @Imitates (goLevelDB property) unreliable (fun _ => false) id :=
  levelDB_imitates goLevelDBReading rfl fun store start stop reverse _ => goLevelDB_reads store start stop reverse

theorem cLevelDB_imitates (propertyValue : Engine → String → Bytes) :
    @Imitates (cLevelDB propertyValue) unreliable (fun _ => false) id :=
  levelDB_imitates cLevelDBReading rfl fun store _ _ reverse bounds => cLevelDB_reads store bounds reverse

theorem rocksDB_imitates (getProperty : Engine → String → Bytes) :
    @Imitates (rocksDB getProperty) unreliable (fun _ => false) id :=
  levelDB_imitates rocksDBReading rfl fun store start stop reverse _ => rocksDB_reads store start stop reverse

theorem boltDB_imitates (stats : Engine → List (Bytes × Bytes)) :
    @Imitates (boltDB stats) unreliable (fun _ => false) id := by
  have honours := @Reading.honours (boltDB stats) boltDBReading rfl rfl get_plain has_plain
  refine ⟨_, _, _, honours, @opensAlike_unreliable (boltDB stats) id _ bolt_scanning ?_ ?_⟩
  · intro reverse engine start stop err bounds
    cases reverse <;> simp [opener, boltDB, BoltDB.iteratorWith, bounds]
  · intro reverse engine start stop bounds
    refine ⟨BoltIter.new (Store.cursor engine.store) start stop reverse, ?_, BoltIter.new_reads engine.store start stop reverse⟩
    cases reverse <;> simp [opener, boltDB, BoltDB.iteratorWith, bounds]

theorem memDB_imitates : @Imitates memDB unreliable (fun _ => false) fun tree => ⟨tree, []⟩ := by
  have honours := @Reading.honours memDB memDBReading rfl rfl memContract.get memContract.has
  refine ⟨_, _, _, honours, opensAlike_unreliable _ (Contract.scanning memContract) ?_ ?_⟩
  · intro reverse tree start stop err bounds
    cases reverse <;> simp [opener, memDB, MemDB.iteratorWith, bounds]
  · intro reverse tree start stop bounds
    exact opener_scan memContract reverse tree bounds

private theorem opened_alike {db : DB} (contract : Contract db) {result : Option (Except Err db.Iter)} {reverse : Bool}
    {store : Store} {start stop : Slice} (read : result.map (Except.map contract.cursor) = Plain.scan reverse store start stop) :
    Opened (@Abreast db plain (fun it scan => scan = contract.cursor it) fun it scan => scan = it) result
      (Plain.scan reverse store start stop) := by
  cases bounds : checkBounds start stop with
  | ok _ =>
    obtain ⟨it, opened, at_⟩ := opened_scan contract read bounds
    refine .of_made opened ?_ ⟨_, at_, rfl, scan_distinct store start stop reverse⟩
    rw [Plain.scan, bounds]
    rfl
  | error err =>
    rw [Plain.scan, bounds] at read ⊢
    rcases result with _ | refusal | it
    · cases read
    · obtain rfl := Except.error.inj (Option.some.inj read)
      exact .refused refusal
    · cases read

theorem Contract.imitates {db : DB} (contract : Contract db) :
    @Imitates db plain (fun _ => false) contract.contents := by
  refine ⟨contract.pending, fun it scan => scan = contract.cursor it, fun it scan => scan = it, ?_,
    Contract.scanning contract, Contract.scanning plainContract, ?_⟩
  · exact (Refines.translates contract).honours
  · intro reverse state start stop
    rw [opener_plain]
    exact opened_alike contract (opener_read contract reverse state start stop)

def faulted : Except Err Unit → Bool
  | .error (.engine _) => true
  | _ => false

private theorem attempt_honours (engine : Engine) {expected : Except Err Unit × Store} (accepted : faulted expected.1 = false)
    (kept : ∀ err, expected.1 = .error err → expected.2 = engine.store) :
    Attempt faulted Engine.store engine (Unreliable.attempt engine expected) expected := by
  obtain ⟨answer, store⟩ := expected
  cases answer with
  | error err => exact .made accepted (Prod.ext rfl (kept err rfl).symm)
  | ok _ =>
    unfold Unreliable.attempt
    cases struck : engine.fault with
    | some fault => exact .refusal rfl rfl
    | none => exact .made rfl rfl

private theorem set_honours (engine : Engine) (key value : Slice) :
    Attempt faulted Engine.store engine (Unreliable.set engine key value) (Plain.set engine.store key value) := by
  apply attempt_honours <;> unfold Plain.set checkPair <;> split_ifs <;> cases value <;> simp [faulted]

private theorem delete_honours (engine : Engine) (key : Slice) :
    Attempt faulted Engine.store engine (Unreliable.delete engine key) (Plain.delete engine.store key) := by
  apply attempt_honours <;> unfold Plain.delete checkKey <;> split_ifs <;> simp [faulted]

private theorem write_honours (engine : Engine) (pending : Pending) :
    Attempt faulted (Prod.map Engine.store id) (engine, pending) (Unreliable.write engine pending)
      (Pending.write engine.store pending) := by
  cases pending with
  | none => exact .made rfl rfl
  | some updates =>
    simp only [Unreliable.write, Pending.write, Unreliable.attempt]
    cases struck : engine.fault with
    | some fault => exact .refusal rfl rfl
    | none => exact .made rfl rfl

private theorem batchSet_unfaulted (pending : Pending) (key value : Slice) :
    faulted (Pending.set pending key value).1 = false := by
  unfold Pending.set checkPair
  split_ifs
  · rfl
  · cases value <;> cases pending <;> rfl

private theorem batchDelete_unfaulted (pending : Pending) (key : Slice) :
    faulted (Pending.delete pending key).1 = false := by
  unfold Pending.delete checkKey
  split_ifs
  · rfl
  · cases pending <;> rfl

theorem unreliable_imitates : @Imitates unreliable plain faulted Engine.store := by
  refine ⟨id, fun it scan => scan = it, fun it scan => scan = it, ?_, Contract.scanning plainContract,
    Contract.scanning plainContract, ?_⟩
  · exact {
      keyEmpty := rfl
      valueNil := rfl
      get := fun _ _ => rfl
      has := fun _ _ => rfl
      set := set_honours
      setSync := set_honours
      delete := delete_honours
      deleteSync := delete_honours
      newBatch := rfl
      batchSet := fun batch key value => .made (batchSet_unfaulted batch key value) rfl
      batchDelete := fun batch key => .made (batchDelete_unfaulted batch key) rfl
      batchWrite := write_honours
      batchWriteSync := write_honours
      batchClose := fun _ => .made rfl rfl }
  · intro reverse (engine : Engine) start stop
    rw [opener_unreliable, opener_plain, Plain.scan]
    cases checkBounds start stop with
    | error err => exact .refused err
    | ok _ => exact .made ⟨_, rfl, rfl, scan_distinct _ _ _ _⟩

section Replies
variable (engines : Engines)

/-- What a caller is answered, by a backend or through PrefixDBs stacked on it. -/
def replies (backend : Backend) (pfxs : List Bytes) (engine : Engine) (calls : List Browse) : List BrowseReply :=
  ((browsing (nested (backend.db engines) pfxs)).run
    (Browser.start (nested.holding (backend.db engines) pfxs (backend.holding engines engine))) calls).1

theorem replies_unreliable {backend : Backend} (native : backend ≠ .badgerDB) {engine : Engine}
    (reliable : backend = .memDB → engine.faults = []) (pfxs : List Bytes) (calls : List Browse) :
    replies engines backend pfxs engine calls =
      ((browsing (nested unreliable pfxs)).run (Browser.start (nested.holding unreliable pfxs engine)) calls).1 := by
  cases backend with
  | goLevelDB => exact (goLevelDB_imitates _).always pfxs engine calls
  | cLevelDB => exact (cLevelDB_imitates _).always pfxs engine calls
  | memDB =>
    obtain ⟨store, faults⟩ := engine
    obtain rfl : faults = [] := reliable rfl
    exact memDB_imitates.always pfxs store calls
  | boltDB => exact (boltDB_imitates _).always pfxs engine calls
  | rocksDB => exact (rocksDB_imitates _).always pfxs engine calls
  | badgerDB => exact absurd rfl native

theorem replies_plain {backend : Backend} (native : backend ≠ .badgerDB) (pfxs : List Bytes) (store : Store)
    (calls : List Browse) :
    replies engines backend pfxs ⟨store, []⟩ calls =
      ((browsing (nested plain pfxs)).run (Browser.start (nested.holding plain pfxs store)) calls).1 := by
  have mem : replies engines .memDB pfxs ⟨store, []⟩ calls =
      ((browsing (nested plain pfxs)).run (Browser.start (nested.holding plain pfxs store)) calls).1 :=
    (Contract.imitates memContract).always pfxs store calls
  rw [← mem, replies_unreliable engines native fun _ => rfl, replies_unreliable engines (by decide : Backend.memDB ≠ .badgerDB)
    fun _ => rfl]

/-- One backend may be put in place of another. Over the same contents, and with the
same writes failing, every caller gets the same replies, whatever it does with its
keys, batches and iterators and however many PrefixDBs it does it through. -/
theorem backends_interchangeable {first second : Backend} (left : first ≠ .badgerDB) (right : second ≠ .badgerDB)
    {engine : Engine} (reliable : first = .memDB ∨ second = .memDB → engine.faults = []) (pfxs : List Bytes)
    (calls : List Browse) :
    replies engines first pfxs engine calls = replies engines second pfxs engine calls := by
  rw [replies_unreliable engines left fun mem => reliable (.inl mem),
    replies_unreliable engines right fun mem => reliable (.inr mem)]

theorem backends_interchangeable_failing :
    let engines : Engines := ⟨fun _ _ => none, fun _ _ => [], fun _ _ => [], fun _ => [],
      ⟨Unit, (), fun _ _ _ => (.ok (), ()), fun _ _ => (.ok (), ()), fun engine _ => (.ok (), engine, ()), id⟩⟩
    let engine : Engine := ⟨SortedMap.empty.insert [7, 3] [30], [none, some ⟨"disk full", 1⟩]⟩
    let calls : List Browse := [.call (.set (some [1]) (some [5])), .call (.delete (some [3])),
      .iterator 0 true none (some [4]), .use 0 .key, .use 0 .next, .use 0 .value, .use 0 .next, .use 0 .valid]
    replies engines .boltDB [[7]] engine calls = [.call (.done (.ok ())), .call (.done (.error (.engine "disk full"))),
      .opened (some (.ok ())), .use (.key (some [3])), .use (.next (some ())), .use (.value (some [5])),
      .use (.next (some ())), .use (.valid (some false))] ∧
    replies engines .boltDB [[7]] engine calls = replies engines .rocksDB [[7]] engine calls := by
  intro engines engine calls
  exact ⟨by decide, backends_interchangeable engines (by decide) (by decide) (by decide) [[7]] calls⟩

/-- A failed write is told of, and is all that fails: the calls that the engine let
through get the replies that MemDB gives to them alone. -/
theorem failed_writes_left_out {backend : Backend} (native : backend ≠ .badgerDB) {engine : Engine}
    (reliable : backend = .memDB → engine.faults = []) (pfxs : List Bytes) (calls : List Browse) :
    let through := (calls.zip (replies engines backend pfxs engine calls)).filter fun entry =>
      !BrowseReply.refused faulted entry.2
    through.map Prod.snd = replies engines .memDB pfxs ⟨engine.store, []⟩ (through.map Prod.fst) := by
  rw [replies_unreliable engines native reliable]
  intro through
  have plain := unreliable_imitates.nested_run pfxs engine calls
  exact plain.trans (replies_plain engines (by decide) pfxs engine.store (through.map Prod.fst)).symm

/-- A leveldb whose second write fails: the value before it is still there, and the
batch can be written again. -/
theorem failed_writes_left_out_retried :
    let engines : Engines := ⟨fun _ _ => none, fun _ _ => [], fun _ _ => [], fun _ => [],
      ⟨Unit, (), fun _ _ _ => (.ok (), ()), fun _ _ => (.ok (), ()), fun engine _ => (.ok (), engine, ()), id⟩⟩
    let engine : Engine := ⟨SortedMap.empty, [none, some ⟨"disk full", 0⟩]⟩
    let calls : List Browse := [.call (.set (some [1]) (some [5])), .call (.newBatch 0),
      .call (.batchSet 0 (some [1]) (some [6])), .call (.batchWrite 0), .call (.get (some [1])), .call (.batchWrite 0),
      .call (.get (some [1]))]
    let answers := replies engines .cLevelDB [[7]] engine calls
    let through := (calls.zip answers).filter fun entry => !BrowseReply.refused faulted entry.2
    answers = [.call (.done (.ok ())), .call .opened, .call (.done (.ok ())),
      .call (.done (.error (.engine "disk full"))), .call (.value (.ok (some [5]))), .call (.done (.ok ())),
      .call (.value (.ok (some [6])))] ∧
    through.map Prod.snd = replies engines .memDB [[7]] ⟨engine.store, []⟩ (through.map Prod.fst) := by
  intro engines engine calls answers through
  exact ⟨by decide, failed_writes_left_out engines (by decide) (by decide) [[7]] calls⟩

end Replies

end TmDb.Proofs
