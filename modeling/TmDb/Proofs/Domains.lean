import TmDb.Proofs.BackendFaults
import TmDb.Proofs.BadgerCursor

/-! What Domain returns over the life of an iterator. No call changes the bounds
that an iterator of a backend or of a PrefixDB has stored; an iterator of a RemoteDB
has only those of its current message. -/

namespace TmDb.Proofs.Domains
open Lib

private theorem andThen_kept {α β σ δ : Type} (read : σ → δ) {kept : δ} {result : Option α × σ}
    {next : α → σ → Option β × σ} (first : read result.2 = kept)
    (rest : ∀ value state, read state = kept → read (next value state).2 = kept) :
    read (andThen result next).2 = kept := by
  obtain ⟨outcome, state⟩ := result
  cases outcome with
  | none => exact first
  | some value => exact rest value state first

structure KeepsDomain {ι : Type} (ops : IterOps ι) : Prop where
  valid : ∀ it, ops.domain (ops.valid it).2 = ops.domain it
  next : ∀ it, ops.domain (ops.next it).2 = ops.domain it
  key : ∀ it, ops.domain (ops.key it).2 = ops.domain it
  value : ∀ it, ops.domain (ops.value it).2 = ops.domain it

theorem KeepsDomain.run {ι : Type} {ops : IterOps ι} (keeps : KeepsDomain ops) (it : ι) (calls : List IterCall) :
    ops.domain ((iteration ops).run it calls).2 = ops.domain it := by
  apply (iteration ops).run_invariant (fun reached => ops.domain reached = ops.domain it) _ rfl
  intro reached call same
  cases call with
  | valid => exact (keeps.valid reached).trans same
  | key => exact (keeps.key reached).trans same
  | value => exact (keeps.value reached).trans same
  | next => exact (keeps.next reached).trans same

theorem memIter_keeps : KeepsDomain MemIter.ops where
  valid _ := rfl
  next it := by
    unfold MemIter.ops MemIter.next
    dsimp only
    split <;> rfl
  key _ := rfl
  value _ := rfl

private theorem check_bounds (it : LevelIter) : (it.check.2.start, it.check.2.stop) = (it.start, it.stop) := by
  unfold LevelIter.check
  split
  · rfl
  · split
    · rfl
    · split <;> rfl

private theorem called_bounds {α : Type} (keeps : Bool) (it : LevelIter) (answer : α) :
    ((LevelIter.called keeps it (answer, it.check.2)).2.start, (LevelIter.called keeps it (answer, it.check.2)).2.stop) =
      (it.start, it.stop) := by
  unfold LevelIter.called
  cases keeps with
  | true => exact check_bounds it
  | false => rfl

private theorem asserted_bounds {α : Type} (keeps : Bool) (it : LevelIter) {next : Unit → LevelIter → Option α × LevelIter}
    (kept : ∀ it, ((next () it).2.start, (next () it).2.stop) = (it.start, it.stop)) :
    ((andThen (it.assertIsValid keeps) next).2.start, (andThen (it.assertIsValid keeps) next).2.stop) =
      (it.start, it.stop) := by
  apply andThen_kept fun it : LevelIter => (it.start, it.stop)
  · exact called_bounds keeps it _
  · exact fun _ it same => (kept it).trans same

theorem levelIter_keeps (valid read next : Bool) : KeepsDomain (LevelIter.ops valid read next) where
  valid it := called_bounds valid it _
  next it := asserted_bounds next it fun _ => rfl
  key it := asserted_bounds read it fun _ => rfl
  value it := asserted_bounds read it fun _ => rfl

private theorem isValid_bounds (it : BoltIter) : (it.isValid.2.start, it.isValid.2.stop) = (it.start, it.stop) := by
  unfold BoltIter.isValid
  dsimp only
  repeat' split
  all_goals rfl

private theorem boltAsserted_bounds {α : Type} (it : BoltIter) {next : Unit → BoltIter → Option α × BoltIter}
    (kept : ∀ it, ((next () it).2.start, (next () it).2.stop) = (it.start, it.stop)) :
    ((andThen it.assertIsValid next).2.start, (andThen it.assertIsValid next).2.stop) = (it.start, it.stop) := by
  apply andThen_kept fun it : BoltIter => (it.start, it.stop)
  · exact isValid_bounds it
  · exact fun _ it same => (kept it).trans same

theorem boltIter_keeps : KeepsDomain BoltIter.ops where
  valid := isValid_bounds
  next it := boltAsserted_bounds it fun _ => rfl
  key it := boltAsserted_bounds it fun _ => rfl
  value it := boltAsserted_bounds it fun _ => rfl

theorem badgerIter_keeps : KeepsDomain BadgerIter.ops where
  valid _ := rfl
  next it := by
    unfold BadgerIter.ops BadgerIter.next
    dsimp only
    split <;> rfl
  key it := by
    unfold BadgerIter.ops BadgerIter.key
    dsimp only
    split <;> rfl
  value it := by
    unfold BadgerIter.ops BadgerIter.value
    dsimp only
    split <;> rfl

section PrefixIter
variable {ι : Type} (ops : IterOps ι)

private def stored (it : PrefixIter ι) : Slice × Slice := (it.start, it.stop)

private theorem skipExact_stored (it : PrefixIter ι) : stored (PrefixIter.skipExact ops it).2 = stored it := by
  apply andThen_kept stored rfl
  intro ok it same
  cases ok with
  | false => exact same
  | true =>
    apply andThen_kept stored same
    intro key it same
    split <;> exact same

private theorem inside_stored (it : PrefixIter ι) : stored (PrefixIter.inside ops it).2 = stored it := by
  apply andThen_kept stored rfl
  intro ok it same
  cases ok with
  | false => exact same
  | true => exact andThen_kept stored same fun _ _ same => same

private theorem prefixIsValid_stored (it : PrefixIter ι) : stored (PrefixIter.isValid ops it).2 = stored it := by
  unfold PrefixIter.isValid
  split
  · rfl
  · apply andThen_kept stored rfl
    intro ok it same
    cases ok with
    | false => exact same
    | true =>
      apply andThen_kept stored same
      intro key it same
      split <;> exact same

private theorem assertIsValid_stored (it : PrefixIter ι) : stored (PrefixIter.assertIsValid ops it).2 = stored it := by
  apply andThen_kept stored (prefixIsValid_stored ops it)
  intro ok it same
  cases ok <;> exact same

private theorem next_stored (bound : Nat) (it : PrefixIter ι) : stored (PrefixIter.next ops bound it).2 = stored it := by
  induction bound generalizing it with
  | zero => rfl
  | succ bound ih =>
    apply andThen_kept stored (assertIsValid_stored ops it)
    intro _ it same
    apply andThen_kept stored same
    intro _ it same
    apply andThen_kept stored same
    intro ok it same
    cases ok with
    | false => exact same
    | true =>
      apply andThen_kept stored same
      intro key it same
      split
      · exact same
      · apply andThen_kept stored same
        intro key it same
        split
        · exact (ih it).trans same
        · exact same

theorem prefixIter_keeps : KeepsDomain (PrefixIter.iter ops) where
  valid := prefixIsValid_stored ops
  next it := next_stored ops _ it
  key it := by
    apply andThen_kept stored (assertIsValid_stored ops it)
    intro _ it same
    exact andThen_kept stored same fun _ _ same => same
  value it := andThen_kept stored (assertIsValid_stored ops it) fun _ _ same => same

theorem prefixIter_new {pfx : Bytes} {start stop : Slice} {source : ι} {it : PrefixIter ι}
    (made : PrefixIter.new ops pfx start stop source = some it) : (PrefixIter.iter ops).domain it = (start, stop) := by
  obtain ⟨valid, _, rfl⟩ := Option.map_eq_some_iff.mp made
  apply andThen_kept stored (skipExact_stored ops _)
  intro _ it same
  exact (inside_stored ops it).trans same

end PrefixIter

section Remote
variable {ι : Type} {ops : IterOps ι}

private theorem andThen_returns {α β σ : Type} {result : Option α × σ} {next : α → σ → Option β × σ} {value : β}
    {after : σ} (returned : andThen result next = (some value, after)) :
    ∃ first state, result = (some first, state) ∧ next first state = (some value, after) := by
  obtain ⟨outcome, state⟩ := result
  cases outcome with
  | none => cases returned
  | some first => exact ⟨first, state, rfl, returned⟩

private theorem current_domain (keeps : KeepsDomain ops) {it after : ι} {out : Proto.Iterator}
    (valid : Handler.current ops it = (some (some out), after)) :
    out.domain = some ⟨(ops.domain it).1, (ops.domain it).2⟩ ∧ ops.domain after = ops.domain it := by
  obtain ⟨ok, first, asked, valid⟩ := andThen_returns valid
  cases ok with
  | false => cases valid
  | true =>
    obtain ⟨key, second, keyed, valid⟩ := andThen_returns valid
    obtain ⟨value, third, valued, valid⟩ := andThen_returns valid
    obtain ⟨still, last, again, valid⟩ := andThen_returns valid
    cases valid
    have checked : ops.domain first = ops.domain it := by simpa [asked] using keeps.valid it
    refine ⟨by rw [checked], ?_⟩
    calc ops.domain after
      _ = ops.domain third := by simpa [again] using keeps.valid third
      _ = ops.domain second := by simpa [valued] using keeps.value second
      _ = ops.domain first := by simpa [keyed] using keeps.key first
      _ = ops.domain it := checked

theorem handleIterator_domain (keeps : KeepsDomain ops) (sendFunc : List Proto.Iterator → Option Err)
    {bounds : Slice × Slice} (bound : Nat) {it : ι} (same : ops.domain it = bounds) {sent : List Proto.Iterator}
    (earlier : ∀ item ∈ sent, item.domain = some ⟨bounds.1, bounds.2⟩) :
    ∀ item ∈ (Handler.handleIterator ops sendFunc bound it sent).2, item.domain = some ⟨bounds.1, bounds.2⟩ := by
  induction bound generalizing it sent with
  | zero => exact earlier
  | succ bound ih =>
    unfold Handler.handleIterator
    rcases pass : Handler.current ops it with ⟨_ | _ | out, after⟩
    · exact earlier
    · exact earlier
    · obtain ⟨carried, kept⟩ := current_domain keeps pass
      have later : ∀ item ∈ sent ++ [out], item.domain = some ⟨bounds.1, bounds.2⟩ := by
        intro item member
        obtain member | member := List.mem_append.mp member
        · exact earlier item member
        · rw [List.mem_singleton.mp member, carried, same]
      dsimp only
      cases sendFunc sent with
      | some err => exact earlier
      | none =>
        have moved := keeps.next after
        dsimp only
        rcases reached : ops.next after with ⟨_ | _, next⟩
        · exact later
        · rw [reached] at moved
          exact ih (moved.trans (kept.trans same)) later

/-- What a remote iterator stands on or has still to receive, all with one domain. -/
def Carries (bounds : Slice × Slice) (it : RemoteIter × Stream) : Prop :=
  ∀ item, it.1.cur = some item ∨ item ∈ it.2.messages → item.domain = some ⟨bounds.1, bounds.2⟩

theorem Carries.nextFrom {bounds : Slice × Slice} {it : RemoteIter × Stream} (carries : Carries bounds it) :
    Carries bounds (RemoteIter.nextFrom it) := by
  obtain ⟨client, messages, last⟩ := it
  cases messages with
  | nil =>
    intro item found
    obtain current | waiting := found
    · cases current
    · cases waiting
  | cons message rest =>
    intro item found
    obtain current | waiting := found
    · cases current
      exact carries message (.inr List.mem_cons_self)
    · exact carries item (.inr (List.mem_cons_of_mem message waiting))

theorem Carries.run {bounds : Slice × Slice} {it : RemoteIter × Stream} (carries : Carries bounds it)
    (calls : List IterCall) : Carries bounds ((iteration RemoteIter.ops).run it calls).2 := by
  apply (iteration RemoteIter.ops).run_invariant (Carries bounds) _ carries
  intro reached call same
  cases call with
  | next => exact same.nextFrom
  | _ => exact same

theorem Carries.domain {bounds : Slice × Slice} {it : RemoteIter × Stream} (carries : Carries bounds it) :
    RemoteIter.ops.domain it = if it.1.cur = none then (none, none) else bounds := by
  cases current : it.1.cur with
  | none => simp [RemoteIter.ops, RemoteIter.domain, current]
  | some item =>
    obtain ⟨domain, valid, key, value⟩ := item
    cases carries _ (.inl current)
    simp [RemoteIter.ops, RemoteIter.domain, current]

end Remote

/-- What the iterators of a backend report: badger's, going backwards, have the bounds
the other way round. -/
def Reported (backend : Backend) (reverse : Bool) (start stop : Slice) : Slice × Slice :=
  if backend = .badgerDB ∧ reverse = true then (stop, start) else (start, stop)

variable {engines : Engines} {registered : List Backend} {reverse : Bool} {start stop : Slice}

theorem backend_keeps (backend : Backend) : KeepsDomain (backend.db engines).iter := by
  cases backend with
  | goLevelDB => exact levelIter_keeps true false false
  | cLevelDB => exact levelIter_keeps false false false
  | memDB => exact memIter_keeps
  | boltDB => exact boltIter_keeps
  | rocksDB => exact levelIter_keeps true true false
  | badgerDB => exact badgerIter_keeps

private theorem made_accepted {ι : Type} {start stop : Slice} {it made : ι}
    (opened : (match checkBounds start stop with
      | .error err => some (.error err)
      | .ok _ => some (.ok made) : Option (Except Err ι)) = some (.ok it)) : made = it := by
  split at opened
  · cases opened
  · exact Except.ok.inj (Option.some.inj opened)

theorem backend_domain {backend : Backend} {state : (backend.db engines).State} {it : (backend.db engines).Iter}
    (made : opener (backend.db engines) reverse state start stop = some (.ok it)) :
    (backend.db engines).iter.domain it = Reported backend reverse start stop := by
  cases backend with
  | goLevelDB => cases reverse <;> exact made_accepted made ▸ rfl
  | cLevelDB => cases reverse <;> exact made_accepted made ▸ rfl
  | memDB => cases reverse <;> exact made_accepted made ▸ rfl
  | boltDB => cases reverse <;> exact made_accepted made ▸ rfl
  | rocksDB => cases reverse <;> exact made_accepted made ▸ rfl
  | badgerDB => cases reverse <;> exact made_accepted made ▸ rfl

def served : Process (backends engines registered) → Option Backend
  | .running ⟨some held⟩ => some ((registered.find? fun backend => backend.name = held.type).getD .memDB)
  | _ => none

private theorem domain_wire {bounds : Slice × Slice} (lower : bounds.1 ≠ some []) (upper : bounds.2 ≠ some [])
    {item : Proto.Iterator} (carried : item.domain = some ⟨bounds.1, bounds.2⟩) :
    item.wire.domain = some ⟨bounds.1, bounds.2⟩ := by
  simp [Proto.Iterator.wire, Proto.Domain.wire, carried, Slice.wire_of_ne lower, Slice.wire_of_ne upper]

private theorem reported_bounds (backend : Backend) (reverse : Bool) (bounded : start ≠ some []) (below : stop ≠ some []) :
    (Reported backend reverse start stop).1 ≠ some [] ∧ (Reported backend reverse start stop).2 ≠ some [] := by
  unfold Reported
  split
  · exact ⟨below, bounded⟩
  · exact ⟨bounded, below⟩

theorem handler_domain (backend : Backend) (sendFunc : List Proto.Iterator → Option Err)
    (state : (backend.db engines).State) (query : Proto.Entity) :
    ∀ item ∈ (Handler.iteratorWith (backend.db engines) (opener (backend.db engines) reverse) sendFunc state query).2,
      item.domain = some ⟨(Reported backend reverse query.start query.stop).1,
        (Reported backend reverse query.start query.stop).2⟩ := by
  unfold Handler.iteratorWith
  split
  · simp
  · simp
  next it made =>
    apply handleIterator_domain (backend_keeps backend) sendFunc _ (backend_domain made)
    simp

theorem stream_carries (process : Process (backends engines registered)) (bounded : start ≠ some [])
    (below : stop ≠ some []) :
    ∀ item ∈ (RemoteDB.stream reverse process (Proto.Entity.wire { start := start, stop := stop })).messages,
      ∃ backend, served process = some backend ∧ item.domain =
        some ⟨(Reported backend reverse start stop).1, (Reported backend reverse start stop).2⟩ := by
  match process with
  | .crashed => simp [RemoteDB.stream]
  | .running ⟨none⟩ => simp [RemoteDB.stream]
  | .running ⟨some ⟨type, state⟩⟩ =>
    intro item member
    refine ⟨_, rfl, ?_⟩
    set backend := (registered.find? fun backend => backend.name = type).getD .memDB
    obtain ⟨sent, relayed, rfl⟩ := List.mem_map.mp member
    obtain ⟨lower, upper⟩ := reported_bounds backend reverse bounded below
    apply domain_wire lower upper
    have carried := handler_domain backend (fun _ => none) state (Proto.Entity.wire { start := start, stop := stop }) sent relayed
    rwa [Proto.Entity.wire, Slice.wire_of_ne bounded, Slice.wire_of_ne below] at carried

/-- A remote iterator without a current message: it has come to its end, or to an error. -/
def Lost : (stack : Stack) → (stack.db engines registered).Iter → Prop
  | .remote, it => RemoteIter.cur (Prod.fst it) = none
  | _, _ => False

section Lasting
variable {ι : Type} {ops : IterOps ι} {related : ι → Scan → Prop}

/-- Each Next uses up one message, the one that the iterator stands on. -/
private theorem lost_after {it : RemoteIter × Stream} (primed : it.1.cur = none → it.2.messages = []) (calls : List IterCall) :
    ((iteration RemoteIter.ops).run it calls).2.1.cur = none ↔
      it.1.cur.toList.length + it.2.messages.length ≤ calls.count .next := by
  induction calls generalizing it with
  | nil =>
    cases current : it.1.cur with
    | none => simp [current, primed current]
    | some item => simp [current]
  | cons call rest ih =>
    have quiet (apart : call ≠ .next) : (call :: rest).count .next = rest.count .next := List.count_cons_of_ne apart
    cases call with
    | valid => exact (ih primed).trans (by rw [quiet (by decide)])
    | key => exact (ih primed).trans (by rw [quiet (by decide)])
    | value => exact (ih primed).trans (by rw [quiet (by decide)])
    | next =>
      obtain ⟨⟨cur, err⟩, messages, last⟩ := it
      rw [Machine.run_cons, List.count_cons_self]
      cases messages with
      | nil =>
        refine (ih fun _ => rfl).trans ?_
        cases cur <;> simp [RemoteIter.nextFrom, RemoteIter.next, Stream.recv, iteration, RemoteIter.ops]
      | cons message others =>
        cases cur with
        | none => cases primed rfl
        | some item =>
          refine (ih (by intro lost; cases lost)).trans ?_
          change 1 + others.length ≤ _ ↔ 1 + (others.length + 1) ≤ _
          omega

private theorem handleIterator_length (scanning : Scanning ops related) {start stop : Slice} (items : List Entry) {it : ι}
    (initial : related it ⟨start, stop, items⟩) {bound : Nat} (enough : items.length < bound) (sent : List Proto.Iterator) :
    (Handler.handleIterator ops (fun _ => none) bound it sent).2.length = sent.length + items.length := by
  induction items generalizing it bound sent with
  | nil =>
    obtain ⟨bound, rfl⟩ := Nat.exists_eq_add_of_lt enough
    obtain ⟨after, valid, kept⟩ := scanning.valid initial
    simp [Handler.handleIterator, Handler.current, valid, andThen, Scan.valid]
  | cons entry rest ih =>
    obtain ⟨bound, rfl⟩ : ∃ less, bound = less + 1 := ⟨bound - 1, by omega⟩
    obtain ⟨first, valid, same⟩ := scanning.valid initial
    obtain ⟨second, key, same⟩ := scanning.key same
    obtain ⟨third, value, same⟩ := scanning.value same
    obtain ⟨fourth, still, same⟩ := scanning.valid same
    obtain ⟨fifth, next, same⟩ := scanning.next same
    let out : Proto.Iterator := ⟨some ⟨(ops.domain first).1, (ops.domain first).2⟩, true, some entry.1, some entry.2⟩
    have pass : Handler.handleIterator ops (fun _ => none) (bound + 1) it sent =
        Handler.handleIterator ops (fun _ => none) bound fifth (sent ++ [out]) := by
      simp [Handler.handleIterator, Handler.current, valid, key, value, still, next, andThen, Scan.ops, Scan.valid, out]
    rw [pass, ih same (by simpa using enough), List.length_append, List.length_singleton, List.length_cons]
    omega

end Lasting

def contents (engines : Engines) : (backend : Backend) → (backend.db engines).State → Store
  | .memDB, tree => tree
  | .goLevelDB, engine | .cLevelDB, engine | .boltDB, engine | .rocksDB, engine | .badgerDB, engine => Engine.store engine

private theorem imitates_opens {db : DB} {engine : db.State → Engine}
    (imitates : @Imitates db unreliable (fun _ => false) engine) (reverse : Bool) (state : db.State)
    (bounds : checkBounds start stop = .ok ()) :
    ∃ (related : db.Iter → Scan → Prop) (it : db.Iter) (scan : Scan), Scanning db.iter related ∧
      opener db reverse state start stop = some (.ok it) ∧ related it scan ∧
      scan.items = Store.scan (engine state).store start stop reverse := by
  obtain ⟨_, related, expected, _, alike⟩ := imitates
  have opens := alike.opens reverse state start stop
  rw [opener_unreliable, Plain.scan, bounds] at opens
  generalize opener db reverse state start stop = left at opens
  obtain _ | _ | ⟨scan, at_, expects, _⟩ := opens
  refine ⟨related, _, scan, alike.scanning, rfl, at_, ?_⟩
  obtain ⟨_, first, _⟩ := alike.expects.loop expects
  obtain ⟨_, second, _⟩ := (Contract.scanning plainContract).loop rfl
  exact Option.some.inj (congrArg Prod.fst (first.symm.trans second))

theorem backend_opens (backend : Backend) (state : (backend.db engines).State)
    (keyed : backend = .badgerDB → (contents engines backend state).get? [] = none)
    (bounds : checkBounds start stop = .ok ()) :
    ∃ (related : (backend.db engines).Iter → Scan → Prop) (it : (backend.db engines).Iter) (scan : Scan),
      Scanning (backend.db engines).iter related ∧
      opener (backend.db engines) reverse state start stop = some (.ok it) ∧ related it scan ∧
      scan.items = Store.scan (contents engines backend state) start stop reverse := by
  cases backend with
  | goLevelDB => exact imitates_opens (goLevelDB_imitates _) reverse state bounds
  | cLevelDB => exact imitates_opens (cLevelDB_imitates _) reverse state bounds
  | memDB => exact imitates_opens memDB_imitates reverse state bounds
  | boltDB => exact imitates_opens (boltDB_imitates _) reverse state bounds
  | rocksDB => exact imitates_opens (rocksDB_imitates _) reverse state bounds
  | badgerDB =>
    obtain ⟨it, made, items⟩ := BadgerIter.opened_scan state (keyed rfl) bounds reverse
    refine ⟨_, it, BadgerIter.scan it, BadgerIter.ops_scanning, ?_, rfl, items⟩
    cases reverse <;> exact made

def holdings : Process (backends engines registered) → Store
  | .running ⟨some held⟩ =>
    contents engines ((registered.find? fun backend : Backend => backend.name = held.type).getD .memDB) held.state
  | _ => SortedMap.empty

theorem stream_length (process : Process (backends engines registered))
    (keyed : served process = some .badgerDB → (holdings process).get? [] = none) (bounded : start ≠ some [])
    (below : stop ≠ some []) :
    (RemoteDB.stream reverse process (Proto.Entity.wire { start := start, stop := stop })).messages.length =
      (Store.scan (holdings process) start stop reverse).length := by
  match process with
  | .crashed => cases reverse <;> rfl
  | .running ⟨none⟩ => cases reverse <;> rfl
  | .running ⟨some ⟨type, state⟩⟩ =>
    have asked : Proto.Entity.wire { start := start, stop := stop } = { start := start, stop := stop } := by
      simp [Proto.Entity.wire, Slice.wire_of_ne bounded, Slice.wire_of_ne below]
    obtain ⟨related, it, scan, scanning, made, at_, items⟩ :=
      @backend_opens engines reverse start stop _ state (fun badger => keyed (congrArg some badger))
        (checkBounds_ok.mpr ⟨bounded, below⟩)
    have sent := handleIterator_length scanning scan.items at_ (Nat.lt_succ_of_le (scanning.remaining at_)) []
    have opened : opener ((backends engines registered).db type) reverse state start stop = some (.ok it) := made
    rw [asked]
    simp only [RemoteDB.stream, Handler.iteratorWith, opened, List.length_map, holdings]
    rw [← items]
    exact sent.trans (Nat.zero_add _)

/-- A remote iterator is lost once there have been as many calls of Next as there are
entries in the range. -/
theorem lost_iff (process : Process (backends engines registered))
    (keyed : served process = some .badgerDB → (holdings process).get? [] = none) (bounded : start ≠ some [])
    (below : stop ≠ some []) {it : RemoteIter × Stream}
    (made : opener (remoteDB (backends engines registered)) reverse process start stop = some (.ok it))
    (calls : List IterCall) :
    @Lost engines registered .remote ((iteration RemoteIter.ops).run it calls).2 ↔
      (Store.scan (holdings process) start stop reverse).length ≤ calls.count .next := by
  have opened : RemoteIter.make (RemoteDB.stream reverse process (Proto.Entity.wire { start := start, stop := stop })) = it := by
    cases reverse <;> exact Except.ok.inj (Option.some.inj made)
  rw [← stream_length process keyed bounded below, ← opened]
  obtain ⟨messages, last⟩ := RemoteDB.stream reverse process (Proto.Entity.wire { start := start, stop := stop })
  cases messages with
  | nil =>
    refine (lost_after (fun _ => rfl) calls).trans ?_
    simp [RemoteIter.make, RemoteIter.nextFrom, RemoteIter.next, Stream.recv]
  | cons message others =>
    refine (lost_after (by intro lost; cases lost) calls).trans ?_
    simp [RemoteIter.make, RemoteIter.nextFrom, RemoteIter.next, Stream.recv, Nat.add_comm]

/-- The iterators come from badger, with at most a RemoteDB in between. -/
def FromBadger : (stack : Stack) → (stack.db engines registered).State → Prop
  | .base backend, _ => backend = .badgerDB
  | .remote, process => served process = some .badgerDB
  | .prefixed _ _, _ => False

private theorem reported_iff (backend : Backend) :
    Reported backend reverse start stop = (start, stop) ↔ (backend = .badgerDB → reverse = true → start = stop) := by
  unfold Reported
  split
  next swapped => simp [swapped, eq_comm]
  next unswapped =>
    simp only [true_iff]
    exact fun badger backwards => absurd ⟨badger, backwards⟩ unswapped

theorem Carries.reports_iff {backend : Backend} {it : RemoteIter × Stream}
    (carries : Carries (Reported backend reverse start stop) it) :
    RemoteIter.ops.domain it = (start, stop) ↔
      (it.1.cur = none → start = none ∧ stop = none) ∧
        (¬ it.1.cur = none → backend = .badgerDB → reverse = true → start = stop) := by
  rw [carries.domain]
  split
  next lost => simp [lost, eq_comm]
  next current => simp [current, reported_iff]

theorem prefix_domain {db : DB} {pfx : Bytes} {state : db.State} {it : PrefixIter db.Iter}
    (made : opener (prefixDB db pfx) reverse state start stop = some (.ok it)) :
    (PrefixIter.iter db.iter).domain it = (start, stop) := by
  have opened : PrefixDB.iteratorWith db pfx (opener db reverse) state start stop = some (.ok it) := by
    cases reverse <;> exact made
  unfold PrefixDB.iteratorWith at opened
  split at opened
  · cases opened
  · obtain ⟨pend, _, opened⟩ := Option.bind_eq_some_iff.mp opened
    obtain ⟨result, _, opened⟩ := Option.bind_eq_some_iff.mp opened
    cases result with
    | error err => cases opened
    | ok source =>
      obtain ⟨found, new, same⟩ := Option.map_eq_some_iff.mp opened
      cases same
      exact prefixIter_new db.iter new

theorem remote_carries {process : Process (backends engines registered)} {it : RemoteIter × Stream}
    (bounded : start ≠ some []) (below : stop ≠ some [])
    (made : opener (remoteDB (backends engines registered)) reverse process start stop = some (.ok it)) :
    ∃ backend, (served process = some .badgerDB ↔ backend = .badgerDB) ∧
      Carries (Reported backend reverse start stop) it := by
  have opened : RemoteIter.make (RemoteDB.stream reverse process (Proto.Entity.wire { start := start, stop := stop })) = it := by
    cases reverse <;> exact Except.ok.inj (Option.some.inj made)
  refine ⟨(served process).getD .memDB, by cases served process <;> simp, ?_⟩
  rw [← opened]
  apply Carries.nextFrom
  intro item found
  obtain current | waiting := found
  · cases current
  · obtain ⟨backend, holds, carried⟩ := stream_carries process bounded below item waiting
    simpa [holds] using carried

/-- Domain at any point of an iterator's life, for every database a caller can build. -/
theorem domain_reported_iff (stack : Stack) (state : (stack.db engines registered).State)
    (bounded : start ≠ some []) (below : stop ≠ some []) {it : (stack.db engines registered).Iter}
    (made : opener (stack.db engines registered) reverse state start stop = some (.ok it)) (calls : List IterCall) :
    let reached := ((iteration (stack.db engines registered).iter).run it calls).2
    (stack.db engines registered).iter.domain reached = (start, stop) ↔
      (Lost stack reached → start = none ∧ stop = none) ∧
        (¬ Lost stack reached → FromBadger stack state → reverse = true → start = stop) := by
  cases stack with
  | base backend =>
    have domain := ((backend_keeps backend).run it calls).trans (backend_domain made)
    refine (Eq.congr_left domain).trans ((reported_iff backend).trans ?_)
    simp [Lost, FromBadger]
  | prefixed pfx rest =>
    have domain := ((prefixIter_keeps (rest.db engines registered).iter).run it calls).trans (prefix_domain made)
    refine (Eq.congr_left domain).trans ?_
    simp [Lost, FromBadger]
  | remote =>
    obtain ⟨backend, holds, carries⟩ := remote_carries bounded below made
    have reports := (carries.run calls).reports_iff
    rw [← holds] at reports
    exact reports

/-- A PrefixDB over badger, going backwards, after its iterator has come to its end. -/
theorem domain_reported_prefixed :
    let engines : Engines := ⟨fun _ _ => none, fun _ _ => [], fun _ _ => [], fun _ => [],
      ⟨Unit, (), fun _ _ _ => (.ok (), ()), fun _ _ => (.ok (), ()), fun engine _ => (.ok (), engine, ()), id⟩⟩
    let stack : Stack := .prefixed [7] (.base .badgerDB)
    let engine : Engine := ⟨SortedMap.empty.insert [7, 3] [30], []⟩
    ∃ it, (stack.db engines []).reverseIterator engine (some [1]) (some [5]) = some (.ok it) ∧
      (stack.db engines []).iter.domain ((iteration (stack.db engines []).iter).run it [.next, .next]).2 =
        (some [1], some [5]) := by
  intro engines stack engine
  have made : ∃ it, opener (stack.db engines []) true engine (some [1]) (some [5]) = some (.ok it) := ⟨_, rfl⟩
  obtain ⟨it, made⟩ := made
  refine ⟨it, made, ?_⟩
  apply (domain_reported_iff stack engine (by simp) (by simp) made [.next, .next]).mpr
  exact ⟨False.elim, fun _ => False.elim⟩

/-- A reverse iterator of badger, fresh, and a remote one over MemDB at its end. -/
theorem domain_misreported :
    let engines : Engines := ⟨fun _ _ => none, fun _ _ => [], fun _ _ => [], fun _ => [],
      ⟨Unit, (), fun _ _ _ => (.ok (), ()), fun _ _ => (.ok (), ()), fun engine _ => (.ok (), engine, ()), id⟩⟩
    let badger := Stack.db engines [.memDB] (.base .badgerDB)
    let remote := Stack.db engines [.memDB] .remote
    let engine : Engine := ⟨SortedMap.empty.insert [3] [30], []⟩
    let process : Process (backends engines [.memDB]) := .running ⟨some ⟨"memdb", engine.store⟩⟩
    (∃ it, badger.reverseIterator engine (some [1]) (some [5]) = some (.ok it) ∧
      (badger.iter.valid it).1 = some true ∧ badger.iter.domain it = (some [5], some [1])) ∧
    (∃ it, remote.iterator process (some [1]) (some [5]) = some (.ok it) ∧
      remote.iter.domain it = (some [1], some [5]) ∧
      remote.iter.domain ((iteration remote.iter).run it [.next]).2 = (none, none)) :=
  ⟨⟨_, rfl, rfl, rfl⟩, ⟨_, rfl, rfl, rfl⟩⟩

end TmDb.Proofs.Domains
