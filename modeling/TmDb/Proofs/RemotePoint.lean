import TmDb.Proofs.MemContract
import TmDb.Remote.Client

/-! Point operations through a RemoteDB. Nil and empty are one thing on the wire
and two in the contract, so a RemoteDB is as good as its backend exactly while no
empty value is written or fetched. -/

namespace TmDb.Proofs
open Lib

/-- Two results of a call: both fail, or both succeed and agree. -/
def Alike {α : Type} (first second : Except Err α) : Prop := first.toOption = second.toOption

theorem Alike.error {α : Type} {result : Except Err α} {err other : Err} (failed : result = .error other) :
    Alike (.error err) result := by
  subst failed
  rfl

theorem Alike.ok {α : Type} {result : Except Err α} {value : α} (done : result = .ok value) :
    Alike (.ok value) result := by
  subst done
  rfl

theorem Alike.eq_ok {α : Type} {result : Except Err α} {value : α} (alike : Alike result (.ok value)) :
    result = .ok value := by
  cases result with
  | error err => cases alike
  | ok found => exact congrArg Except.ok (Option.some.inj alike)

def Reply.Alike : Reply → Reply → Prop
  | .value first, .value second => Proofs.Alike first second
  | .present first, .present second => Proofs.Alike first second
  | .done first, .done second => Proofs.Alike first second
  | first, second => first = second

abbrev Key := { bz : Bytes // bz ≠ [] }

inductive PointCall where
  | set (key : Key) (value : Bytes)
  | setSync (key : Key) (value : Bytes)
  | delete (key : Key)
  | deleteSync (key : Key)
  | get (key : Key)
  | has (key : Key)

namespace PointCall

def step (db : DB) (state : db.State) : PointCall → Reply × db.State
  | set key value => (db.set state (some key.1) (some value)).map .done id
  | setSync key value => (db.setSync state (some key.1) (some value)).map .done id
  | delete key => (db.delete state (some key.1)).map .done id
  | deleteSync key => (db.deleteSync state (some key.1)).map .done id
  | get key => (.value (db.get state (some key.1)), state)
  | has key => (.present (db.has state (some key.1)), state)

/-- No empty value crosses the wire: none is written, and none is fetched. -/
def NoEmptyValue (contents : Store) : PointCall → Prop
  | set _ value | setSync _ value => value ≠ []
  | get key => contents.get? key.1 ≠ some []
  | has _ | delete _ | deleteSync _ => True

end PointCall

def points (db : DB) : Machine db.State PointCall Reply := ⟨PointCall.step db⟩

abbrev holding {registry : Registry} (type : String) (state : (registry.db type).State) : Process registry :=
  .running ⟨some ⟨type, state⟩⟩

variable {registry : Registry} {type : String}

/-- What one call through the RemoteDB owes its caller, with the backend in `state`
when the same call is made on it directly. -/
structure Transparent (contract : Contract (registry.db type)) (process : Process registry)
    (state : (registry.db type).State) (call : PointCall) : Prop where
  alike : Reply.Alike (call.step (remoteDB registry) process).1 (call.step (registry.db type) state).1
  nil_iff_absent : ∀ key, call = .get key →
    ((remoteDB registry).get process (some key.1) = .ok none ↔ (contract.contents state).get? key.1 = none)
  get_has_agree : ∀ key, call = .get key →
    Alike ((remoteDB registry).has process (some key.1))
      (((remoteDB registry).get process (some key.1)).map Option.isSome)

section Wire
variable (state : (registry.db type).State)

private theorem wrapped_holding (context : String) (request : Request registry)
    {result : Except Err Unit × (registry.db type).State}
    (handled : (Server.mk (some ⟨type, state⟩)).handle request =
      (some (result.1.map fun _ => .nothing), ⟨some ⟨type, result.2⟩⟩)) :
    Alike (wrapped context (unary .reliable (holding type state) request)).1 result.1 ∧
      (wrapped context (unary .reliable (holding type state) request)).2 = holding type result.2 := by
  obtain ⟨result, after⟩ := result
  simp only [unary, Process.handle, handled]
  cases result <;> exact ⟨rfl, rfl⟩

theorem set_holding (key value : Slice) :
    Alike (RemoteDB.set (holding type state) key value).1 ((registry.db type).set state key.wire value.wire).1 ∧
      (RemoteDB.set (holding type state) key value).2 =
        holding type ((registry.db type).set state key.wire value.wire).2 :=
  wrapped_holding state _ _ rfl

theorem setSync_holding (key value : Slice) :
    Alike (RemoteDB.setSync (holding type state) key value).1
        ((registry.db type).setSync state key.wire value.wire).1 ∧
      (RemoteDB.setSync (holding type state) key value).2 =
        holding type ((registry.db type).setSync state key.wire value.wire).2 :=
  wrapped_holding state _ _ rfl

theorem delete_holding (key : Slice) :
    Alike (RemoteDB.delete (holding type state) key).1 ((registry.db type).delete state key.wire).1 ∧
      (RemoteDB.delete (holding type state) key).2 = holding type ((registry.db type).delete state key.wire).2 :=
  wrapped_holding state _ _ rfl

theorem deleteSync_holding (key : Slice) :
    Alike (RemoteDB.deleteSync (holding type state) key).1 ((registry.db type).deleteSync state key.wire).1 ∧
      (RemoteDB.deleteSync (holding type state) key).2 =
        holding type ((registry.db type).deleteSync state key.wire).2 :=
  wrapped_holding state _ _ rfl

end Wire

section Backend
variable (contract : Contract (registry.db type)) (state : (registry.db type).State)

private theorem read_get (key : Key) :
    (registry.db type).get state (some key.1) = .ok ((contract.contents state).get? key.1) :=
  (contract.get state (some key.1)).trans (Plain.get_some _ key.2)

private theorem read_has (key : Key) :
    (registry.db type).has state (some key.1) = .ok ((contract.contents state).get? key.1).isSome :=
  (contract.has state (some key.1)).trans (Plain.has_some _ key.2)

/-- A value comes back through the wire: a stored empty value as nil. -/
theorem get_holding (key : Key) : RemoteDB.get (holding type state) (some key.1) =
    .ok (Slice.wire ((contract.contents state).get? key.1)) := by
  have found : (registry.db type).get state (Slice.wire (some key.1)) = .ok ((contract.contents state).get? key.1) := by
    rw [Slice.wire_some key.2, read_get contract]
  simp only [RemoteDB.get, unary, Process.handle, Server.handle, Server.onDB, Handler.get, Proto.Entity.wire, found]
  rfl

theorem has_holding (key : Key) : RemoteDB.has (holding type state) (some key.1) =
    .ok ((contract.contents state).get? key.1).isSome := by
  have found : (registry.db type).has state (Slice.wire (some key.1)) =
      .ok ((contract.contents state).get? key.1).isSome := by
    rw [Slice.wire_some key.2, read_has contract]
  simp only [RemoteDB.has, unary, Process.handle, Server.handle, Server.onDB, Handler.has, Proto.Entity.wire, found]
  rfl

private theorem set_alike_iff {method : (registry.db type).State → Slice → Slice → Except Err Unit × (registry.db type).State}
    (kept : ∀ state key value, (method state key value).map id contract.contents =
      Plain.set (contract.contents state) key value)
    {remote : Except Err Unit} (key : Key) (value : Bytes)
    (same : Alike remote (method state (some key.1) (Slice.wire (some value))).1) :
    Alike remote (method state (some key.1) (some value)).1 ↔ value ≠ [] := by
  constructor
  · rintro alike rfl
    have refused : (method state (some key.1) none).1 = .error .valueNil := by
      have result := congrArg Prod.fst (kept state (some key.1) none)
      simpa [Plain.set, checkPair, Slice.len, key.2] using result
    have accepted : (method state (some key.1) (some [])).1 = .ok () :=
      congrArg Prod.fst ((kept state (some key.1) (some [])).trans (Plain.set_some _ key.2 []))
    have differ := same.symm.trans alike
    rw [Slice.wire_empty, refused, accepted] at differ
    cases differ
  · intro nonempty
    rwa [Slice.wire_some nonempty] at same

private theorem get_iff (key : Key) :
    Transparent contract (holding type state) state (.get key) ↔ (contract.contents state).get? key.1 ≠ some [] := by
  have got := get_holding contract state key
  have had := has_holding contract state key
  constructor
  · intro transparent empty
    have absent := transparent.nil_iff_absent key rfl
    change RemoteDB.get _ _ = _ ↔ _ at absent
    rw [got, empty] at absent
    simp at absent
  · intro nonempty
    rw [Slice.wire_of_ne nonempty] at got
    constructor
    · change Alike (RemoteDB.get _ _) _
      rw [got, read_get contract]
      rfl
    · rintro _ ⟨⟩
      change RemoteDB.get _ _ = _ ↔ _
      rw [got]
      simp
    · rintro _ ⟨⟩
      change Alike (RemoteDB.has _ _) ((RemoteDB.get _ _).map _)
      rw [got, had]
      rfl

private theorem other_iff {call : PointCall} (apart : ∀ key, call ≠ .get key) {allowed : Prop}
    (alike : Reply.Alike (call.step (remoteDB registry) (holding type state)).1
      (call.step (registry.db type) state).1 ↔ allowed) :
    Transparent contract (holding type state) state call ↔ allowed := by
  rw [← alike]
  exact ⟨fun transparent => transparent.alike,
    fun same => ⟨same, fun key gets => absurd gets (apart key), fun key gets => absurd gets (apart key)⟩⟩

theorem point_step (call : PointCall) :
    (Transparent contract (holding type state) state call ↔ call.NoEmptyValue (contract.contents state)) ∧
      (call.NoEmptyValue (contract.contents state) →
        (call.step (remoteDB registry) (holding type state)).2 = holding type (call.step (registry.db type) state).2) := by
  cases call with
  | set key value =>
    obtain ⟨same, after⟩ := set_holding state (some key.1) (some value)
    rw [Slice.wire_some key.2] at same after
    refine ⟨other_iff contract state (by simp) (set_alike_iff contract state contract.set key value same), fun nonempty => ?_⟩
    rwa [Slice.wire_some nonempty] at after
  | setSync key value =>
    obtain ⟨same, after⟩ := setSync_holding state (some key.1) (some value)
    rw [Slice.wire_some key.2] at same after
    refine ⟨other_iff contract state (by simp) (set_alike_iff contract state contract.setSync key value same), fun nonempty => ?_⟩
    rwa [Slice.wire_some nonempty] at after
  | delete key =>
    obtain ⟨same, after⟩ := delete_holding state (some key.1)
    rw [Slice.wire_some key.2] at same after
    exact ⟨other_iff contract state (by simp) (iff_true_intro same), fun _ => after⟩
  | deleteSync key =>
    obtain ⟨same, after⟩ := deleteSync_holding state (some key.1)
    rw [Slice.wire_some key.2] at same after
    exact ⟨other_iff contract state (by simp) (iff_true_intro same), fun _ => after⟩
  | get key => exact ⟨get_iff contract state key, fun _ => rfl⟩
  | has key =>
    refine ⟨other_iff contract state (by simp) (iff_true_intro ?_), fun _ => rfl⟩
    change Alike (RemoteDB.has _ _) _
    rw [has_holding contract, read_has contract]
    rfl

/-- A run of point operations through a RemoteDB is transparent, and leaves the
backend in the state of the direct run, exactly if it meets no empty value. -/
theorem remote_points_transparent_iff (calls : List PointCall) :
    ((points (remoteDB registry)).Paired (points (registry.db type)) (Transparent contract)
        (holding type state) state calls ∧
      ((points (remoteDB registry)).run (holding type state) calls).2 =
        holding type ((points (registry.db type)).run state calls).2) ↔
    (points (registry.db type)).Along (fun state call => call.NoEmptyValue (contract.contents state)) state calls := by
  have kept : ∀ process state call, process = holding type state → call.NoEmptyValue (contract.contents state) →
      ((points (remoteDB registry)).step process call).2 = holding type ((points (registry.db type)).step state call).2 := by
    rintro _ state call rfl allowed
    exact (point_step contract state call).2 allowed
  have exactly : ∀ process state call, process = holding type state →
      (Transparent contract process state call ↔ call.NoEmptyValue (contract.contents state)) := by
    rintro _ state call rfl
    exact (point_step contract state call).1
  have initial : holding type state = holding type state := rfl
  have both := Machine.paired_iff_along _ _ (fun process state => process = holding type state) kept exactly initial calls
  constructor
  · rintro ⟨paired, _⟩
    exact both.mp paired
  · intro along
    exact ⟨both.mpr along, Machine.along_related _ _ _ kept initial along⟩

end Backend

def memRegistry : Registry := ⟨["memdb"], fun _ => memDB⟩

/-- A value that is set, overwritten, looked up and deleted again, and a key with an
empty value that is only asked after. -/
theorem remote_points_transparent_overwritten :
    let key : Key := ⟨[1], by decide⟩
    let calls := [PointCall.set key [2], .setSync key [3], .get key, .has key, .delete key, .get key,
      .has ⟨[9], by decide⟩]
    let tree : Store := SortedMap.empty.insert [9] []
    let process : Process memRegistry := holding "memdb" tree
    (points (remoteDB memRegistry)).Paired (points memDB) (@Transparent memRegistry "memdb" memContract)
        process tree calls ∧
      ((points (remoteDB memRegistry)).run process calls).2 = holding "memdb" ((points memDB).run tree calls).2 := by
  intro key calls tree process
  refine (@remote_points_transparent_iff memRegistry "memdb" memContract tree _).mpr ?_
  refine ⟨?_, ?_, ?_, trivial, trivial, ?_, trivial, trivial⟩
  · exact List.cons_ne_nil _ _
  · exact List.cons_ne_nil _ _
  all_goals
    change SortedMap.get? _ _ ≠ some []
    decide

/-- An empty value: refused on its way in, though the backend takes it, and nil on
its way out, though the key is there. -/
theorem remote_empty_value_diverges :
    let process : Process memRegistry := holding "memdb" SortedMap.empty
    let stored : Store := SortedMap.empty.insert [1] []
    let after : Process memRegistry := holding "memdb" stored
    (RemoteDB.set process (some [1]) (some [])).1 = .error (.wrapped "remoteDB.Set" (.rpc "value cannot be nil")) ∧
      memDB.set SortedMap.empty (some [1]) (some []) = (.ok (), stored) ∧
      RemoteDB.get after (some [1]) = .ok none ∧ RemoteDB.has after (some [1]) = .ok true ∧
      memDB.get stored (some [1]) = .ok (some []) :=
  ⟨rfl, rfl, rfl, rfl, rfl⟩

end TmDb.Proofs
