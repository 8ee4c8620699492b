import TmDb.PrefixDB

/-! Refinement carries over to whole sessions and through PrefixDB. A result about
PrefixDBs over the plain map is therefore a result about PrefixDBs over every
database that meets the contract. -/

namespace TmDb.Proofs
open Lib

def Session.translate {db spec : DB} (contents : db.State → spec.State) (pending : db.Batch → spec.Batch)
    (session : Session db) : Session spec :=
  ⟨contents session.state, fun name => (session.batches name).map pending⟩

def Session.read {db spec : DB} (refines : Refines db spec) (session : Session db) : Session spec :=
  ⟨refines.contents session.state, fun name => (session.batches name).map refines.pending⟩

theorem update_map {α β : Type} (f : α → β) (held : Nat → Option α) (name : Nat) (value : α) :
    (fun other => (Function.update held name (some value) other).map f) =
      Function.update (fun other => (held other).map f) name (some (f value)) := by
  funext other
  by_cases same : other = name
  · subst same; simp
  · simp [same]

/-- A call that may be refused, against the one that it is expected to do. -/
inductive Attempt {ο σ τ : Type} (refused : ο → Bool) (read : σ → τ) (before : σ) (result : ο × σ) (expected : ο × τ) :
    Prop where
  | refusal (refusal : refused result.1 = true) (unchanged : read result.2 = read before)
  | made (answered : refused result.1 = false) (same : result.map id read = expected)

def Reply.refused (refused : Except Err Unit → Bool) : Reply → Bool
  | .done result => refused result
  | _ => false

section Sessions
variable {db spec : DB} {refused : Except Err Unit → Bool}
variable {contents : db.State → spec.State} {pending : db.Batch → spec.Batch}

variable (refused contents pending) in
/-- Every method of a session either is refused or does what is expected of it. -/
structure Honours : Prop where
  keyEmpty : refused (.error .keyEmpty) = false
  valueNil : refused (.error .valueNil) = false
  get : ∀ state key, db.get state key = spec.get (contents state) key
  has : ∀ state key, db.has state key = spec.has (contents state) key
  set : ∀ state key value, Attempt refused contents state (db.set state key value) (spec.set (contents state) key value)
  setSync : ∀ state key value,
    Attempt refused contents state (db.setSync state key value) (spec.setSync (contents state) key value)
  delete : ∀ state key, Attempt refused contents state (db.delete state key) (spec.delete (contents state) key)
  deleteSync : ∀ state key, Attempt refused contents state (db.deleteSync state key) (spec.deleteSync (contents state) key)
  newBatch : pending db.newBatch = spec.newBatch
  batchSet : ∀ batch key value,
    Attempt refused pending batch (db.batch.set batch key value) (spec.batch.set (pending batch) key value)
  batchDelete : ∀ batch key,
    Attempt refused pending batch (db.batch.delete batch key) (spec.batch.delete (pending batch) key)
  batchWrite : ∀ state batch, Attempt refused (Prod.map contents pending) (state, batch) (db.batch.write state batch)
    (spec.batch.write (contents state) (pending batch))
  batchWriteSync : ∀ state batch, Attempt refused (Prod.map contents pending) (state, batch) (db.batch.writeSync state batch)
    (spec.batch.writeSync (contents state) (pending batch))
  batchClose : ∀ batch, Attempt refused pending batch (db.batch.close batch) (spec.batch.close (pending batch))

namespace Honours
variable (session : Session db)

private theorem setState {result : Except Err Unit × db.State} {expected : Except Err Unit × spec.State}
    (attempt : Attempt refused contents session.state result expected) :
    Attempt (Reply.refused refused) (Session.translate contents pending) session (session.setState result)
      ((Session.translate contents pending session).setState expected) := by
  cases attempt with
  | refusal refusal unchanged =>
    exact .refusal refusal (congrArg (fun state => Session.mk state fun name => (session.batches name).map pending) unchanged)
  | made answered same =>
    subst same
    exact .made answered rfl

private theorem rebatched {name : Nat} {batch after : db.Batch} (held : session.batches name = some batch)
    (unchanged : pending after = pending batch) :
    (fun other => (Function.update session.batches name (some after) other).map pending) =
      fun other => (session.batches other).map pending := by
  rw [update_map, unchanged, Function.update_eq_self_iff, held]
  rfl

private theorem setBatch {name : Nat} {batch : db.Batch} (held : session.batches name = some batch)
    {result : Except Err Unit × db.Batch} {expected : Except Err Unit × spec.Batch}
    (attempt : Attempt refused pending batch result expected) :
    Attempt (Reply.refused refused) (Session.translate contents pending) session (session.setBatch name result)
      ((Session.translate contents pending session).setBatch name expected) := by
  cases attempt with
  | refusal refusal unchanged =>
    exact .refusal refusal (congrArg (Session.mk (contents session.state)) (rebatched session held unchanged))
  | made answered same =>
    subst same
    refine .made answered ?_
    simp only [Session.setBatch, Session.translate, Prod.map, id_eq, update_map]

private theorem setBoth {name : Nat} {batch : db.Batch} (held : session.batches name = some batch)
    {result : Except Err Unit × db.State × db.Batch} {expected : Except Err Unit × spec.State × spec.Batch}
    (attempt : Attempt refused (Prod.map contents pending) (session.state, batch) result expected) :
    Attempt (Reply.refused refused) (Session.translate contents pending) session (session.setBoth name result)
      ((Session.translate contents pending session).setBoth name expected) := by
  cases attempt with
  | refusal refusal unchanged =>
    obtain ⟨state, kept⟩ := Prod.mk.inj unchanged
    exact .refusal refusal (congrArg₂ Session.mk state (rebatched session held kept))
  | made answered same =>
    subst same
    refine .made answered ?_
    simp only [Session.setBoth, Session.translate, Prod.map, id_eq, update_map]

private theorem withBatch (name : Nat) {method : db.Batch → Reply × Session db}
    {expected : spec.Batch → Reply × Session spec}
    (attempt : ∀ batch, session.batches name = some batch →
      Attempt (Reply.refused refused) (Session.translate contents pending) session (method batch) (expected (pending batch))) :
    Attempt (Reply.refused refused) (Session.translate contents pending) session (session.withBatch name method)
      ((Session.translate contents pending session).withBatch name expected) := by
  simp only [Session.withBatch, Session.translate]
  cases held : session.batches name with
  | none => exact .made rfl rfl
  | some batch => exact attempt batch held

theorem step (honours : Honours refused contents pending) (call : Call) :
    Attempt (Reply.refused refused) (Session.translate contents pending) session (session.step call)
      ((Session.translate contents pending session).step call) := by
  cases call with
  | get key =>
    exact .made rfl (congrArg (fun result => (Reply.value result, Session.translate contents pending session))
      (honours.get _ key))
  | has key =>
    exact .made rfl (congrArg (fun result => (Reply.present result, Session.translate contents pending session))
      (honours.has _ key))
  | set key value => exact setState session (honours.set _ key value)
  | setSync key value => exact setState session (honours.setSync _ key value)
  | delete key => exact setState session (honours.delete _ key)
  | deleteSync key => exact setState session (honours.deleteSync _ key)
  | newBatch name =>
    refine .made rfl ?_
    simp only [Session.step, Session.translate, Prod.map, id_eq, update_map, honours.newBatch]
  | batchSet name key value =>
    exact withBatch session name fun batch held => setBatch session held (honours.batchSet batch key value)
  | batchDelete name key =>
    exact withBatch session name fun batch held => setBatch session held (honours.batchDelete batch key)
  | batchWrite name => exact withBatch session name fun batch held => setBoth session held (honours.batchWrite _ batch)
  | batchWriteSync name =>
    exact withBatch session name fun batch held => setBoth session held (honours.batchWriteSync _ batch)
  | batchClose name => exact withBatch session name fun batch held => setBatch session held (honours.batchClose batch)

end Honours
end Sessions

variable {db spec : DB}

structure Translates (contents : db.State → spec.State) (pending : db.Batch → spec.Batch) : Prop where
  get : ∀ state key, db.get state key = spec.get (contents state) key
  has : ∀ state key, db.has state key = spec.has (contents state) key
  set : ∀ state key value, (db.set state key value).map id contents = spec.set (contents state) key value
  setSync : ∀ state key value, (db.setSync state key value).map id contents = spec.setSync (contents state) key value
  delete : ∀ state key, (db.delete state key).map id contents = spec.delete (contents state) key
  deleteSync : ∀ state key, (db.deleteSync state key).map id contents = spec.deleteSync (contents state) key
  newBatch : pending db.newBatch = spec.newBatch
  batchSet : ∀ batch key value, (db.batch.set batch key value).map id pending = spec.batch.set (pending batch) key value
  batchDelete : ∀ batch key, (db.batch.delete batch key).map id pending = spec.batch.delete (pending batch) key
  batchWrite : ∀ state batch,
    (db.batch.write state batch).map id (Prod.map contents pending) = spec.batch.write (contents state) (pending batch)
  batchWriteSync : ∀ state batch,
    (db.batch.writeSync state batch).map id (Prod.map contents pending) = spec.batch.writeSync (contents state) (pending batch)
  batchClose : ∀ batch, (db.batch.close batch).map id pending = spec.batch.close (pending batch)

namespace Translates
variable {contents : db.State → spec.State} {pending : db.Batch → spec.Batch}

theorem honours (translates : Translates contents pending) : Honours (fun _ => false) contents pending where
  keyEmpty := rfl
  valueNil := rfl
  get := translates.get
  has := translates.has
  set state key value := .made rfl (translates.set state key value)
  setSync state key value := .made rfl (translates.setSync state key value)
  delete state key := .made rfl (translates.delete state key)
  deleteSync state key := .made rfl (translates.deleteSync state key)
  newBatch := translates.newBatch
  batchSet batch key value := .made rfl (translates.batchSet batch key value)
  batchDelete batch key := .made rfl (translates.batchDelete batch key)
  batchWrite state batch := .made rfl (translates.batchWrite state batch)
  batchWriteSync state batch := .made rfl (translates.batchWriteSync state batch)
  batchClose batch := .made rfl (translates.batchClose batch)

theorem step (translates : Translates contents pending) (session : Session db) (call : Call) :
    (session.step call).map id (Session.translate contents pending) =
      (Session.translate contents pending session).step call := by
  cases translates.honours.step session call with
  | refusal refusal _ => exact absurd refusal (by cases (session.step call).1 <;> simp [Reply.refused])
  | made _ same => exact same

end Translates

variable (refines : Refines db spec)

theorem Refines.translates : Translates refines.contents refines.pending where
  get := refines.get
  has := refines.has
  set := refines.set
  setSync := refines.setSync
  delete := refines.delete
  deleteSync := refines.deleteSync
  newBatch := refines.newBatch
  batchSet := refines.batchSet
  batchDelete := refines.batchDelete
  batchWrite := refines.batchWrite
  batchWriteSync := refines.batchWriteSync
  batchClose := refines.batchClose

theorem step_read (session : Session db) (call : Call) :
    (session.step call).map id (Session.read refines) = (Session.read refines session).step call :=
  (Refines.translates refines).step session call

/-- A caller cannot tell a database from one it refines, over any run of calls. -/
theorem session_simulates :
    (session db).Simulates (session spec) fun state expected => expected = Session.read refines state := by
  intro state expected call related
  subst related
  have same := step_read refines state call
  exact ⟨congrArg Prod.fst same, (congrArg Prod.snd same).symm⟩

/-- Each method of a prefix iterator uses its source only through the source's methods. -/
def PrefixIter.read {ι κ : Type} (cursor : ι → κ) (it : PrefixIter ι) : PrefixIter κ :=
  ⟨it.pfx, it.start, it.stop, cursor it.source, it.valid, it.err⟩

theorem andThen_map {α β σ τ : Type} (f : σ → τ) {result : Option α × σ} {expected : Option α × τ}
    {next : α → σ → Option β × σ} {next' : α → τ → Option β × τ}
    (first : result.map id f = expected) (rest : ∀ value state, (next value state).map id f = next' value (f state)) :
    (andThen result next).map id f = andThen expected next' := by
  subst first
  obtain ⟨value, state⟩ := result
  cases value with
  | none => rfl
  | some value => exact rest value state

private theorem onSource_map {ι κ α : Type} (cursor : ι → κ) (it : PrefixIter ι) {result : Option α × ι}
    {expected : Option α × κ} (same : result.map id cursor = expected) :
    (it.onSource result).map id (PrefixIter.read cursor) = (PrefixIter.read cursor it).onSource expected := by
  subst same
  rfl

theorem ite_map {α σ τ : Type} {condition : Prop} [Decidable condition] (f : σ → τ)
    {first second : Option α × σ} {first' second' : Option α × τ}
    (yes : first.map id f = first') (no : second.map id f = second') :
    (if condition then first else second).map id f = if condition then first' else second' := by
  subst yes no
  split <;> rfl

private theorem skipExact_read (it : PrefixIter db.Iter) :
    (PrefixIter.skipExact db.iter it).map id (PrefixIter.read refines.cursor) =
      PrefixIter.skipExact spec.iter (PrefixIter.read refines.cursor it) := by
  apply andThen_map _ (onSource_map refines.cursor it (refines.valid it.source))
  intro ok it
  apply ite_map _ rfl
  apply andThen_map _ (onSource_map refines.cursor it (refines.key it.source))
  intro key it
  exact ite_map _ (onSource_map refines.cursor it (refines.next it.source)) rfl

private theorem inside_read (it : PrefixIter db.Iter) :
    (PrefixIter.inside db.iter it).map id (PrefixIter.read refines.cursor) =
      PrefixIter.inside spec.iter (PrefixIter.read refines.cursor it) := by
  apply andThen_map _ (onSource_map refines.cursor it (refines.valid it.source))
  intro ok it
  apply ite_map _ rfl
  exact andThen_map _ (onSource_map refines.cursor it (refines.key it.source)) fun _ _ => rfl

private theorem new_read (pfx : Bytes) (start stop : Slice) (source : db.Iter) :
    (PrefixIter.new db.iter pfx start stop source).map (PrefixIter.read refines.cursor) =
      PrefixIter.new spec.iter pfx start stop (refines.cursor source) := by
  have checked := andThen_map _ (skipExact_read refines ⟨pfx, start, stop, source, true, none⟩)
    (fun _ it => inside_read refines it)
  have outcome := congrArg Prod.fst checked
  have reached := congrArg Prod.snd checked
  change Option.map _ (Option.map _ _) = Option.map _ (andThen (PrefixIter.skipExact spec.iter
    (PrefixIter.read refines.cursor ⟨pfx, start, stop, source, true, none⟩)) _).1
  rw [← outcome, Option.map_map]
  congr 1
  funext valid
  exact congrArg (fun it : PrefixIter spec.Iter => { it with valid := valid }) reached

private theorem isValid_read (it : PrefixIter db.Iter) :
    (PrefixIter.isValid db.iter it).map id (PrefixIter.read refines.cursor) =
      PrefixIter.isValid spec.iter (PrefixIter.read refines.cursor it) := by
  apply ite_map _ rfl
  apply andThen_map _ (onSource_map refines.cursor it (refines.valid it.source))
  intro ok it
  apply ite_map _ rfl
  apply andThen_map _ (onSource_map refines.cursor it (refines.key it.source))
  intro key it
  exact ite_map _ rfl rfl

private theorem assertIsValid_read (it : PrefixIter db.Iter) :
    (PrefixIter.assertIsValid db.iter it).map id (PrefixIter.read refines.cursor) =
      PrefixIter.assertIsValid spec.iter (PrefixIter.read refines.cursor it) := by
  apply andThen_map _ (isValid_read refines it)
  intro ok it
  exact ite_map _ rfl rfl

private theorem next_read (bound : Nat) (it : PrefixIter db.Iter) :
    (PrefixIter.next db.iter bound it).map id (PrefixIter.read refines.cursor) =
      PrefixIter.next spec.iter bound (PrefixIter.read refines.cursor it) := by
  induction bound generalizing it with
  | zero => rfl
  | succ bound ih =>
    apply andThen_map _ (assertIsValid_read refines it)
    intro _ it
    apply andThen_map _ (onSource_map refines.cursor it (refines.next it.source))
    intro _ it
    apply andThen_map _ (onSource_map refines.cursor it (refines.valid it.source))
    intro ok it
    apply ite_map _ rfl
    apply andThen_map _ (onSource_map refines.cursor it (refines.key it.source))
    intro key it
    apply ite_map _ rfl
    apply andThen_map _ (onSource_map refines.cursor it (refines.key it.source))
    intro key it
    exact ite_map _ (ih it) rfl

private theorem iteratorWith_read (pfx : Bytes)
    {method : db.State → Slice → Slice → Option (Except Err db.Iter)}
    {method' : spec.State → Slice → Slice → Option (Except Err spec.Iter)}
    (same : ∀ state start stop, (method state start stop).map (Except.map refines.cursor) =
      method' (refines.contents state) start stop)
    (state : db.State) (start stop : Slice) :
    (PrefixDB.iteratorWith db pfx method state start stop).map (Except.map (PrefixIter.read refines.cursor)) =
      PrefixDB.iteratorWith spec pfx method' (refines.contents state) start stop := by
  unfold PrefixDB.iteratorWith
  cases checkBounds start stop with
  | error err => rfl
  | ok _ =>
    simp only [Option.map_bind]
    congr 1
    funext pend
    simp only [Function.comp_apply, ← same]
    cases method state _ pend with
    | none => rfl
    | some made =>
      cases made with
      | error err => rfl
      | ok source =>
        simp only [Option.bind_some, Option.map_some, Except.map, ← new_read refines]
        cases PrefixIter.new db.iter pfx start stop source <;> rfl

private theorem checkPair_map (pfx : Bytes)
    {σ τ : Type} (f : σ → τ) (state : σ) (key value : Slice)
    {method : σ → Slice → Slice → Except Err Unit × σ} {method' : τ → Slice → Slice → Except Err Unit × τ}
    (same : ∀ state key value, (method state key value).map id f = method' (f state) key value) :
    (match checkPair key value with
      | .error err => (Except.error err, state)
      | .ok (_, value) => method state (some (prefixed pfx key)) (some value)).map id f =
    match checkPair key value with
      | .error err => (.error err, f state)
      | .ok (_, value) => method' (f state) (some (prefixed pfx key)) (some value) := by
  cases checkPair key value with
  | error err => rfl
  | ok pair => exact same state _ _

private theorem checkKey_map (pfx : Bytes)
    {σ τ : Type} (f : σ → τ) (state : σ) (key : Slice)
    {method : σ → Slice → Except Err Unit × σ} {method' : τ → Slice → Except Err Unit × τ}
    (same : ∀ state key, (method state key).map id f = method' (f state) key) :
    (match checkKey key with
      | .error err => (Except.error err, state)
      | .ok _ => method state (some (prefixed pfx key))).map id f =
    match checkKey key with
      | .error err => (.error err, f state)
      | .ok _ => method' (f state) (some (prefixed pfx key)) := by
  cases checkKey key with
  | error err => rfl
  | ok _ => exact same state _

/-- PrefixDB preserves refinement: it touches the parent through its methods only. -/
def Refines.prefixDB (pfx : Bytes) : Refines (prefixDB db pfx) (TmDb.prefixDB spec pfx) where
  contents := refines.contents
  pending := refines.pending
  cursor := PrefixIter.read refines.cursor
  get state key := by
    change PrefixDB.get db pfx state key = PrefixDB.get spec pfx _ key
    unfold PrefixDB.get
    cases checkKey key with
    | error err => rfl
    | ok _ => exact refines.get state _
  has state key := by
    change PrefixDB.has db pfx state key = PrefixDB.has spec pfx _ key
    unfold PrefixDB.has
    cases checkKey key with
    | error err => rfl
    | ok _ => exact refines.has state _
  set state key value := checkPair_map pfx refines.contents state key value refines.set
  setSync state key value := checkPair_map pfx refines.contents state key value refines.setSync
  delete state key := checkKey_map pfx refines.contents state key refines.delete
  deleteSync state key := checkKey_map pfx refines.contents state key refines.deleteSync
  iterator := iteratorWith_read refines pfx refines.iterator
  reverseIterator := iteratorWith_read refines pfx refines.reverseIterator
  domain _ := rfl
  valid := isValid_read refines
  next it := (next_read refines _ it).trans
    (congrArg (fun bound => PrefixIter.next spec.iter (bound + 1) _) (refines.remaining _))
  key it := by
    apply andThen_map _ (assertIsValid_read refines it)
    intro _ it
    exact andThen_map _ (onSource_map refines.cursor it (refines.key it.source)) fun _ _ => rfl
  value it := by
    apply andThen_map _ (assertIsValid_read refines it)
    intro _ it
    exact onSource_map refines.cursor it (refines.value it.source)
  error it := by
    change PrefixIter.error db.iter it = PrefixIter.error spec.iter _
    simp only [PrefixIter.error, refines.error]
    rfl
  remaining it := refines.remaining it.source
  newBatch := refines.newBatch
  batchSet batch key value := checkPair_map pfx refines.pending batch key value refines.batchSet
  batchDelete batch key := checkKey_map pfx refines.pending batch key refines.batchDelete
  batchWrite := refines.batchWrite
  batchWriteSync := refines.batchWriteSync
  batchClose := refines.batchClose

private theorem map_self {α : Type} (result : Option (Except Err α)) : result.map (Except.map id) = result := by
  rcases result with _ | _ | _ <;> rfl

def plainContract : Contract plain where
  contents := id
  pending := id
  cursor := id
  get _ _ := rfl
  has _ _ := rfl
  set _ _ _ := rfl
  setSync _ _ _ := rfl
  delete _ _ := rfl
  deleteSync _ _ := rfl
  iterator _ _ _ := map_self _
  reverseIterator _ _ _ := map_self _
  domain _ := rfl
  valid _ := rfl
  next _ := rfl
  key _ := rfl
  value _ := rfl
  error _ := rfl
  remaining _ := rfl
  newBatch := rfl
  batchSet _ _ _ := rfl
  batchDelete _ _ := rfl
  batchWrite _ _ := rfl
  batchWriteSync _ _ := rfl
  batchClose _ := rfl

end TmDb.Proofs
