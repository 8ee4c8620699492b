import TmDb.Proofs.MemContract
import TmDb.Proofs.Refinement

/-! PrefixDBs with incomparable prefixes are independent databases. One lemma says
what a call can write, one says what its own namespace answers; every
interleaving follows from the two. -/

namespace TmDb.Proofs
open Lib

/-- Keys that belong to a namespace. The key equal to the prefix does not. -/
def Inside (pfx key : Bytes) : Prop := ∃ suffix, suffix ≠ [] ∧ key = pfx ++ suffix

theorem Inside.unique {first second key : Bytes} (left : Inside first key) (right : Inside second key)
    (apart : ¬ first <+: second ∧ ¬ second <+: first) : False := by
  obtain ⟨suffix, _, rfl⟩ := left
  obtain ⟨other, _, same⟩ := right
  rcases List.append_eq_append_iff.mp same with ⟨middle, longer, _⟩ | ⟨middle, longer, _⟩
  · exact apart.1 ⟨middle, longer.symm⟩
  · exact apart.2 ⟨middle, longer.symm⟩

private def suffixes (pfx : Bytes) (store : Store) : List Entry :=
  (store.entries.filter fun entry => pfx.isPrefixOf entry.1 && entry.1 ≠ pfx).map fun entry =>
    (entry.1.drop pfx.length, entry.2)

private theorem mem_suffixes {pfx : Bytes} {store : Store} {key value : Bytes} :
    (key, value) ∈ suffixes pfx store ↔ key ≠ [] ∧ (pfx ++ key, value) ∈ store.entries := by
  simp only [suffixes, List.mem_map, List.mem_filter, Bool.and_eq_true, decide_eq_true_eq, Prod.mk.injEq]
  constructor
  · rintro ⟨⟨long, _⟩, ⟨member, starts, different⟩, rfl, rfl⟩
    obtain ⟨suffix, rfl⟩ := List.isPrefixOf_iff_prefix.mp starts
    simp only [List.drop_left]
    exact ⟨fun empty => different (by simp [empty]), member⟩
  · rintro ⟨nonempty, member⟩
    refine ⟨(pfx ++ key, value), ⟨member, ?_, ?_⟩, by simp, rfl⟩
    · exact List.isPrefixOf_iff_prefix.mpr (List.prefix_append pfx key)
    · simpa using nonempty

private theorem suffixes_sorted (pfx : Bytes) (store : Store) :
    (suffixes pfx store).Pairwise fun first second => first.1 < second.1 := by
  rw [suffixes, List.pairwise_map]
  apply List.Pairwise.imp_of_mem _ (store.sorted.filter _)
  intro first second left right less
  simp only [List.mem_filter, Bool.and_eq_true] at left right
  obtain ⟨one, same⟩ := List.isPrefixOf_iff_prefix.mp left.2.1
  obtain ⟨two, same'⟩ := List.isPrefixOf_iff_prefix.mp right.2.1
  rw [← same, ← same'] at less ⊢
  simpa only [List.drop_left] using Bytes.append_lt_append.mp less

/-- The plain map of a namespace: what the parent holds under the prefix, with the
prefix removed. -/
def under (pfx : Bytes) (store : Store) : Store := ⟨suffixes pfx store, suffixes_sorted pfx store⟩

theorem mem_under {pfx : Bytes} {store : Store} {key value : Bytes} :
    (key, value) ∈ (under pfx store).entries ↔ key ≠ [] ∧ (pfx ++ key, value) ∈ store.entries := mem_suffixes

theorem get?_under (pfx : Bytes) (store : Store) (key : Bytes) :
    (under pfx store).get? key = if key = [] then none else store.get? (pfx ++ key) := by
  split
  next empty =>
    rw [SortedMap.get?_eq_none]
    intro value member
    exact (mem_suffixes.mp member).1 empty
  next nonempty =>
    apply Option.ext
    intro value
    simp only [SortedMap.get?_eq_some]
    exact mem_suffixes.trans (and_iff_right nonempty)

theorem under_apply (pfx : Bytes) (store : Store) (update : Update Bytes Bytes) (nonempty : update.key ≠ []) :
    under pfx (store.apply (update.mapKey (pfx ++ ·))) = (under pfx store).apply update := by
  apply SortedMap.ext_get?
  intro key
  simp only [get?_under, SortedMap.get?_apply, Update.mapKey_key, Update.mapKey_result, List.append_cancel_left_eq]
  by_cases empty : key = []
  · simp [empty, Ne.symm nonempty]
  · simp [empty]

theorem under_applyAll (pfx : Bytes) (store : Store) (updates : List (Update Bytes Bytes))
    (nonempty : ∀ update ∈ updates, update.key ≠ []) :
    under pfx (store.applyAll (updates.map (Update.mapKey (pfx ++ ·)))) = (under pfx store).applyAll updates := by
  induction updates generalizing store with
  | nil => rfl
  | cons update rest ih =>
    simp only [List.map_cons, SortedMap.applyAll_cons]
    rw [ih _ (fun other member => nonempty other (List.mem_cons_of_mem _ member)),
      under_apply pfx store update (nonempty update List.mem_cons_self)]

theorem under_frame (pfx : Bytes) (store : Store) (updates : List (Update Bytes Bytes))
    (outside : ∀ update ∈ updates, ¬ Inside pfx update.key) :
    under pfx (store.applyAll updates) = under pfx store := by
  apply SortedMap.ext_get?
  intro key
  simp only [get?_under]
  split
  · rfl
  next nonempty =>
    apply SortedMap.get?_applyAll_untouched
    intro update member same
    exact outside update member ⟨key, nonempty, same⟩

/-- The batch of the parent that carries a batch of the namespace. -/
def lift (pfx : Bytes) : Pending → Pending := Option.map (List.map (Update.mapKey (pfx ++ ·)))

/-- A change of the parent made by updates of one namespace only. -/
def Writes (pfx : Bytes) (before after : Store) : Prop :=
  ∃ updates : List (Update Bytes Bytes), (∀ update ∈ updates, Inside pfx update.key) ∧ after = before.applyAll updates

theorem Writes.refl (pfx : Bytes) (store : Store) : Writes pfx store store := ⟨[], by simp, rfl⟩

theorem Writes.all {pfx : Bytes} {store : Store} {updates : List (Update Bytes Bytes)}
    (nonempty : ∀ update ∈ updates, update.key ≠ []) :
    Writes pfx store (store.applyAll (updates.map (Update.mapKey (pfx ++ ·)))) := by
  refine ⟨updates.map (Update.mapKey (pfx ++ ·)), ?_, rfl⟩
  intro update member
  obtain ⟨original, inside, rfl⟩ := List.mem_map.mp member
  exact ⟨original.key, nonempty original inside, Update.mapKey_key _ _⟩

theorem Writes.one {pfx : Bytes} {store : Store} (update : Update Bytes Bytes) (nonempty : update.key ≠ []) :
    Writes pfx store (store.apply (update.mapKey (pfx ++ ·))) :=
  have all : ∀ other ∈ [update], other.key ≠ [] := fun _ member => List.mem_singleton.mp member ▸ nonempty
  Writes.all all

theorem Writes.frame {pfx : Bytes} {before after : Store} (writes : Writes pfx before after) {key : Bytes}
    (outside : ¬ Inside pfx key) : after.get? key = before.get? key := by
  obtain ⟨updates, inside, rfl⟩ := writes
  exact SortedMap.get?_applyAll_untouched before fun update member same => outside (same ▸ inside update member)

def Keyed (pending : Pending) : Prop := ∀ updates, pending = some updates → ∀ update ∈ updates, update.key ≠ []

variable {pfx : Bytes} {store : Store}

theorem get_under (key : Slice) : PrefixDB.get plain pfx store key = Plain.get (under pfx store) key := by
  rcases checkKey_cases key with failed | ⟨nonempty, checked⟩
  · simp only [PrefixDB.get, Plain.get, failed]
    rfl
  · have whole : pfx ++ key.bytes ≠ [] := by simp [nonempty]
    simp only [PrefixDB.get, Plain.get, checked]
    change Plain.get store (some (pfx ++ key.bytes)) = _
    simp [Plain.get, checkKey_some whole, Except.map, get?_under, nonempty]

theorem has_under (key : Slice) : PrefixDB.has plain pfx store key = Plain.has (under pfx store) key := by
  rcases checkKey_cases key with failed | ⟨nonempty, checked⟩
  · simp only [PrefixDB.has, Plain.has, failed]
    rfl
  · have whole : pfx ++ key.bytes ≠ [] := by simp [nonempty]
    simp only [PrefixDB.has, Plain.has, checked]
    change Plain.has store (some (pfx ++ key.bytes)) = _
    simp [Plain.has, checkKey_some whole, Except.map, get?_under, nonempty]

private theorem write_under {update : Update Bytes Bytes} (nonempty : update.key ≠ [])
    {result : Except Err Unit × Store} (stored : result = (.ok (), store.apply (update.mapKey (pfx ++ ·)))) :
    result.map id (under pfx) = (.ok (), (under pfx store).apply update) ∧ Writes pfx store result.2 := by
  subst stored
  refine ⟨?_, Writes.one update nonempty⟩
  simp only [Prod.map, id_eq, under_apply pfx store update nonempty]

theorem set_under (key value : Slice) :
    (PrefixDB.setWith plain pfx Plain.set store key value).map id (under pfx) = Plain.set (under pfx store) key value ∧
      Writes pfx store (PrefixDB.setWith plain pfx Plain.set store key value).2 := by
  rcases checkPair_cases key value with ⟨err, failed⟩ | ⟨nonempty, content, rfl, checked⟩
  · simp only [PrefixDB.setWith, Plain.set, failed]
    exact ⟨rfl, Writes.refl pfx store⟩
  · have whole : pfx ++ key.bytes ≠ [] := by simp [nonempty]
    have expected : Plain.set (under pfx store) key (some content) = (.ok (), (under pfx store).insert key.bytes content) := by
      simp only [Plain.set, checked]
    rw [expected]
    apply @write_under pfx store (.set key.bytes content) nonempty
    simp only [PrefixDB.setWith, checked]
    exact Plain.set_some store whole content

theorem delete_under (key : Slice) :
    (PrefixDB.deleteWith plain pfx Plain.delete store key).map id (under pfx) = Plain.delete (under pfx store) key ∧
      Writes pfx store (PrefixDB.deleteWith plain pfx Plain.delete store key).2 := by
  rcases checkKey_cases key with failed | ⟨nonempty, checked⟩
  · simp only [PrefixDB.deleteWith, Plain.delete, failed]
    exact ⟨rfl, Writes.refl pfx store⟩
  · have whole : pfx ++ key.bytes ≠ [] := by simp [nonempty]
    have expected : Plain.delete (under pfx store) key = (.ok (), (under pfx store).erase key.bytes) := by
      simp only [Plain.delete, checked]
    rw [expected]
    apply @write_under pfx store (.delete key.bytes) nonempty
    simp only [PrefixDB.deleteWith, checked]
    exact Plain.delete_some store whole

private theorem Keyed.append {updates : List (Update Bytes Bytes)} (keyed : Keyed (some updates))
    {update : Update Bytes Bytes} (nonempty : update.key ≠ []) : Keyed (some (updates ++ [update])) := by
  intro grown same other member
  cases same
  rcases List.mem_append.mp member with old | new
  · exact keyed updates rfl other old
  · rw [List.mem_singleton.mp new]
    exact nonempty

theorem batchSet_lift (pfx : Bytes) {pending : Pending} (keyed : Keyed pending) (key value : Slice) :
    PrefixBatch.set pfx Pending.ops (lift pfx pending) key value = (Pending.set pending key value).map id (lift pfx) ∧
      Keyed (Pending.set pending key value).2 := by
  rcases checkPair_cases key value with ⟨err, failed⟩ | ⟨nonempty, content, rfl, checked⟩
  · simp only [PrefixBatch.set, Pending.set, failed]
    exact ⟨rfl, keyed⟩
  · have whole : pfx ++ key.bytes ≠ [] := by simp [nonempty]
    have passed : PrefixBatch.set pfx Pending.ops (lift pfx pending) key (some content) =
        Pending.set (lift pfx pending) (some (pfx ++ key.bytes)) (some content) := by
      simp only [PrefixBatch.set, checked]
      rfl
    rw [passed]
    cases pending with
    | none =>
      simp only [Pending.set, checked, checkPair_some whole]
      exact ⟨rfl, keyed⟩
    | some updates =>
      simp only [Pending.set, checked, checkPair_some whole, lift, Option.map_some, Prod.map, id_eq, List.map_append]
      exact ⟨rfl, keyed.append nonempty⟩

theorem batchDelete_lift (pfx : Bytes) {pending : Pending} (keyed : Keyed pending) (key : Slice) :
    PrefixBatch.delete pfx Pending.ops (lift pfx pending) key = (Pending.delete pending key).map id (lift pfx) ∧
      Keyed (Pending.delete pending key).2 := by
  rcases checkKey_cases key with failed | ⟨nonempty, checked⟩
  · simp only [PrefixBatch.delete, Pending.delete, failed]
    exact ⟨rfl, keyed⟩
  · have whole : pfx ++ key.bytes ≠ [] := by simp [nonempty]
    have passed : PrefixBatch.delete pfx Pending.ops (lift pfx pending) key =
        Pending.delete (lift pfx pending) (some (pfx ++ key.bytes)) := by
      simp only [PrefixBatch.delete, checked]
      rfl
    rw [passed]
    cases pending with
    | none =>
      simp only [Pending.delete, checked, checkKey_some whole]
      exact ⟨rfl, keyed⟩
    | some updates =>
      simp only [Pending.delete, checked, checkKey_some whole, lift, Option.map_some, Prod.map, id_eq, List.map_append]
      exact ⟨rfl, keyed.append nonempty⟩

theorem empty_keyed : Keyed (some []) := fun _ same _ member => by
  cases same
  cases member

theorem closed_keyed : Keyed none := fun _ impossible => by cases impossible

/-- A caller of the namespace and a caller of its plain map. -/
structure Mirrors (pfx : Bytes) (inner : Session (prefixDB plain pfx)) (spec : Session plain) : Prop where
  state : spec.state = under pfx inner.state
  batches : ∀ name, inner.batches name = (spec.batches name).map (lift pfx)
  keyed : ∀ name pending, spec.batches name = some pending → Keyed pending

/-- What one call does: it answers as the plain map does, keeps the two callers in
step, and writes nowhere else. -/
def Agrees (pfx : Bytes) (store : Store) (made : Reply × Session (prefixDB plain pfx))
    (expected : Reply × Session plain) : Prop :=
  made.1 = expected.1 ∧ Mirrors pfx made.2 expected.2 ∧ Writes pfx store made.2.state

section Steps
variable {inner : Session (prefixDB plain pfx)} {spec : Session plain} (mirrors : Mirrors pfx inner spec)
include mirrors

theorem Mirrors.setState {result : Except Err Unit × Store} {expected : Except Err Unit × Store}
    (same : result.map id (under pfx) = expected) (writes : Writes pfx inner.state result.2) :
    Agrees pfx inner.state (inner.setState result) (spec.setState expected) := by
  subst same
  exact ⟨rfl, ⟨rfl, mirrors.batches, mirrors.keyed⟩, writes⟩

theorem Mirrors.hold (name : Nat) (store : Store) {pending : Pending} (keyed : Keyed pending) :
    Mirrors pfx ⟨store, Function.update inner.batches name (some (lift pfx pending))⟩
      ⟨under pfx store, Function.update spec.batches name (some pending)⟩ := by
  refine ⟨rfl, ?_, ?_⟩
  · intro other
    by_cases same : other = name
    · subst same
      simp only [Function.update_self]
      rfl
    · simp only [Function.update_of_ne same]
      exact mirrors.batches other
  · intro other held found
    by_cases same : other = name
    · subst same
      simp only [Function.update_self] at found
      exact Option.some.inj found ▸ keyed
    · simp only [Function.update_of_ne same] at found
      exact mirrors.keyed other held found

theorem Mirrors.setBatch (name : Nat) {result expected : Except Err Unit × Pending}
    (same : result = expected.map id (lift pfx)) (keyed : Keyed expected.2) :
    Agrees pfx inner.state (inner.setBatch name result) (spec.setBatch name expected) := by
  subst same
  refine ⟨rfl, ?_, Writes.refl pfx _⟩
  have held := mirrors.hold name inner.state keyed
  rw [← mirrors.state] at held
  exact held

theorem Mirrors.write (name : Nat) {pending : Pending} (keyed : Keyed pending) :
    Agrees pfx inner.state (inner.setBoth name (Pending.write inner.state (lift pfx pending)))
      (spec.setBoth name (Pending.write spec.state pending)) := by
  rw [mirrors.state]
  cases pending with
  | none => exact ⟨rfl, mirrors.hold name inner.state keyed, Writes.refl pfx _⟩
  | some updates =>
    have nonempty := keyed updates rfl
    refine ⟨rfl, ?_, Writes.all nonempty⟩
    have held := mirrors.hold name (inner.state.applyAll (updates.map (Update.mapKey (pfx ++ ·)))) closed_keyed
    rw [under_applyAll pfx inner.state updates nonempty] at held
    exact held

theorem Mirrors.withBatch (name : Nat) {method : Pending → Reply × Session (prefixDB plain pfx)}
    {expected : Pending → Reply × Session plain}
    (agrees : ∀ pending, Keyed pending → Agrees pfx inner.state (method (lift pfx pending)) (expected pending)) :
    Agrees pfx inner.state (inner.withBatch name method) (spec.withBatch name expected) := by
  simp only [Session.withBatch, mirrors.batches name]
  cases found : spec.batches name with
  | none => exact ⟨rfl, mirrors, Writes.refl pfx _⟩
  | some pending => exact agrees pending (mirrors.keyed name pending found)

theorem Mirrors.step (call : Call) : Agrees pfx inner.state (inner.step call) (spec.step call) := by
  cases call with
  | get key =>
    refine ⟨congrArg Reply.value ?_, mirrors, Writes.refl pfx _⟩
    exact mirrors.state ▸ get_under key
  | has key =>
    refine ⟨congrArg Reply.present ?_, mirrors, Writes.refl pfx _⟩
    exact mirrors.state ▸ has_under key
  | set key value | setSync key value =>
    exact mirrors.setState (mirrors.state ▸ (set_under key value).1) (set_under key value).2
  | delete key | deleteSync key =>
    exact mirrors.setState (mirrors.state ▸ (delete_under key).1) (delete_under key).2
  | newBatch name =>
    have held := mirrors.hold name inner.state empty_keyed
    rw [← mirrors.state] at held
    exact ⟨rfl, held, Writes.refl pfx _⟩
  | batchSet name key value =>
    refine mirrors.withBatch name fun pending keyed => ?_
    obtain ⟨same, kept⟩ := batchSet_lift pfx keyed key value
    exact mirrors.setBatch name same kept
  | batchDelete name key =>
    refine mirrors.withBatch name fun pending keyed => ?_
    obtain ⟨same, kept⟩ := batchDelete_lift pfx keyed key
    exact mirrors.setBatch name same kept
  | batchWrite name | batchWriteSync name =>
    exact mirrors.withBatch name fun pending keyed => mirrors.write name keyed
  | batchClose name =>
    exact mirrors.withBatch name fun pending keyed => mirrors.setBatch name rfl closed_keyed

end Steps

section Family
variable {ι : Type} [DecidableEq ι] {pfx : ι → Bytes}

/-- Read the states of a family through a refinement of its parent. -/
def Family.read {db spec : DB} (refines : Refines db spec) (family : Family db ι) : Family spec ι :=
  ⟨refines.contents family.parent, fun owner name => (family.batches owner name).map refines.pending⟩

private theorem put_read {db spec : DB} (refines : Refines db spec) (state : Family db ι) (owner : ι)
    (after : Session (prefixDB db (pfx owner))) :
    Family.read refines (state.put pfx owner after) =
      (Family.read refines state).put pfx owner (Session.read (Refines.prefixDB refines (pfx owner)) after) := by
  refine congrArg (Family.mk (refines.contents after.state)) (funext fun other => ?_)
  change (fun name => ((state.put pfx owner after).batches other name).map refines.pending) =
    ((Family.read refines state).put pfx owner _).batches other
  by_cases same : other = owner
  · subst same
    rw [Family.put_own, Family.put_own]
    rfl
  · rw [Family.put_other _ _ same, Family.put_other _ _ same]
    rfl

theorem family_simulates {db spec : DB} (refines : Refines db spec) (pfx : ι → Bytes) :
    (family db pfx).Simulates (family spec pfx) fun state expected => expected = Family.read refines state := by
  intro state expected call related
  subst related
  obtain ⟨reply, after⟩ := session_simulates (Refines.prefixDB refines (pfx call.1)) (state.session pfx call.1) _ call.2 rfl
  refine ⟨reply, ?_⟩
  change (Family.read refines state).put pfx call.1 _ = Family.read refines (state.put pfx call.1 _)
  rw [put_read]
  exact congrArg _ after

variable {members : Family plain ι}

theorem Mirrors.own {owner : ι} {spec : Session plain} (mirrors : Mirrors (pfx owner) (members.session pfx owner) spec)
    (call : Call) :
    (members.step pfx (owner, call)).1 = (spec.step call).1 ∧
      Mirrors (pfx owner) ((members.step pfx (owner, call)).2.session pfx owner) (spec.step call).2 := by
  obtain ⟨reply, after, _⟩ := mirrors.step call
  refine ⟨reply, after.state, ?_, after.keyed⟩
  intro name
  exact (congrFun (members.put_own _) name).trans (after.batches name)

theorem Mirrors.others {owner other : ι} {acting spec : Session plain}
    (acts : Mirrors (pfx owner) (members.session pfx owner) acting)
    (mirrors : Mirrors (pfx other) (members.session pfx other) spec) (different : other ≠ owner)
    (apart : ∀ first second, first ≠ second → ¬ pfx first <+: pfx second) (call : Call) :
    Mirrors (pfx other) ((members.step pfx (owner, call)).2.session pfx other) spec := by
  obtain ⟨_, _, updates, inside, written⟩ := acts.step call
  refine ⟨?_, ?_, mirrors.keyed⟩
  · have frame := under_frame (pfx other) members.parent updates fun update member own =>
      own.unique (inside update member) ⟨apart _ _ different, apart _ _ different.symm⟩
    exact mirrors.state.trans (frame.symm.trans (congrArg (under (pfx other)) written.symm))
  · intro name
    exact (congrFun (members.put_other _ different) name).trans (mirrors.batches name)

def callsOf (owner : ι) (call : ι × Call) : Option Call := if call.1 = owner then some call.2 else none

def Formed (pfx : ι → Bytes) (members : Family plain ι) : Prop :=
  ∀ owner, ∃ spec, Mirrors (pfx owner) (members.session pfx owner) spec

theorem Formed.step (formed : Formed pfx members) (apart : ∀ first second, first ≠ second → ¬ pfx first <+: pfx second)
    (call : ι × Call) : Formed pfx (members.step pfx call).2 := by
  intro owner
  obtain ⟨acting, acts⟩ := formed call.1
  by_cases same : owner = call.1
  · subst same
    exact ⟨_, (acts.own call.2).2⟩
  · obtain ⟨spec, mirrors⟩ := formed owner
    exact ⟨spec, acts.others mirrors same apart call.2⟩

theorem member_alone (formed : Formed pfx members)
    (apart : ∀ first second, first ≠ second → ¬ pfx first <+: pfx second) {owner : ι} {spec : Session plain}
    (mirrors : Mirrors (pfx owner) (members.session pfx owner) spec) (calls : List (ι × Call)) :
    Machine.answers (callsOf owner) calls ((family plain pfx).run members calls).1 =
        ((session plain).run spec (calls.filterMap (callsOf owner))).1 ∧
      Mirrors (pfx owner) (((family plain pfx).run members calls).2.session pfx owner)
        ((session plain).run spec (calls.filterMap (callsOf owner))).2 := by
  have projected := (family plain pfx).run_project (session plain) (callsOf owner)
    (fun members spec => Mirrors (pfx owner) (members.session pfx owner) spec ∧ Formed pfx members)
    ?_ ?_ ⟨mirrors, formed⟩ calls
  · exact ⟨projected.1, projected.2.1⟩
  · rintro members spec ⟨caller, call⟩ kept selected ⟨mirrors, formed⟩
    obtain ⟨rfl, rfl⟩ : caller = owner ∧ call = kept := by simpa [callsOf] using selected
    obtain ⟨reply, after⟩ := mirrors.own call
    exact ⟨reply, after, formed.step apart (caller, call)⟩
  · rintro members spec ⟨caller, call⟩ selected ⟨mirrors, formed⟩
    have different : owner ≠ caller := by
      rintro rfl
      simp [callsOf] at selected
    obtain ⟨acting, acts⟩ := formed caller
    exact ⟨acts.others mirrors different apart call, formed.step apart (caller, call)⟩

/-- No call of the family touches a key outside every namespace. -/
theorem outside_kept (formed : Formed pfx members)
    (apart : ∀ first second, first ≠ second → ¬ pfx first <+: pfx second) {key : Bytes}
    (outside : ∀ owner, ¬ Inside (pfx owner) key) (calls : List (ι × Call)) :
    ((family plain pfx).run members calls).2.parent.get? key = members.parent.get? key := by
  have kept := (family plain pfx).run_invariant
    (fun after => Formed pfx after ∧ after.parent.get? key = members.parent.get? key) ?_ ⟨formed, rfl⟩ calls
  · exact kept.2
  · rintro state call ⟨formed, same⟩
    obtain ⟨acting, acts⟩ := formed call.1
    obtain ⟨_, _, writes⟩ := acts.step call.2
    exact ⟨formed.step apart call, (writes.frame (outside call.1)).trans same⟩

private theorem start_mirrors (pfx : Bytes) (store : Store) :
    Mirrors pfx ⟨store, fun _ => none⟩ ⟨under pfx store, fun _ => none⟩ :=
  ⟨rfl, fun _ => rfl, fun _ _ found => by cases found⟩

/-- PrefixDBs whose prefixes are not prefixes of one another behave as separate
databases over any parent that meets the contract, under every interleaving of
their calls; they hold what those databases hold, and leave the rest of the
parent alone. -/
theorem prefix_namespaces_independent {db : DB} (contract : Contract db) (pfx : ι → Bytes)
    (apart : ∀ first second, first ≠ second → ¬ pfx first <+: pfx second)
    (parent : db.State) (calls : List (ι × Call)) :
    let outcome := (family db pfx).run ⟨parent, fun _ _ => none⟩ calls
    (∀ owner,
      let own := (session plain).run ⟨under (pfx owner) (contract.contents parent), fun _ => none⟩
        (calls.filterMap (callsOf owner))
      Machine.answers (callsOf owner) calls outcome.1 = own.1 ∧
        under (pfx owner) (contract.contents outcome.2.parent) = own.2.state) ∧
    (∀ key, (∀ owner, ¬ Inside (pfx owner) key) →
      (contract.contents outcome.2.parent).get? key = (contract.contents parent).get? key) ∧
    ∀ owner, (contract.contents outcome.2.parent).get? (pfx owner) = (contract.contents parent).get? (pfx owner) := by
  obtain ⟨replies, related⟩ := @Machine.Simulates.run _ _ _ _ _ _ _ (family_simulates contract pfx)
    ⟨parent, fun _ _ => none⟩ _ rfl calls
  have store := congrArg Family.parent related
  have formed : Formed pfx (Family.read contract ⟨parent, fun _ _ => none⟩) := fun owner => ⟨_, start_mirrors _ _⟩
  have frame : ∀ key, (∀ owner, ¬ Inside (pfx owner) key) →
      (contract.contents ((family db pfx).run ⟨parent, fun _ _ => none⟩ calls).2.parent).get? key =
        (contract.contents parent).get? key := fun key outside =>
    (congrArg (fun store : Store => store.get? key) store.symm).trans (outside_kept formed apart outside calls)
  refine ⟨?_, frame, ?_⟩
  · intro owner
    obtain ⟨answers, mirrors⟩ := member_alone formed apart (start_mirrors (pfx owner) _) calls
    exact ⟨(congrArg _ replies).trans answers, (congrArg (under (pfx owner)) store).symm.trans mirrors.state.symm⟩
  · intro owner
    apply frame
    rintro other ⟨suffix, nonempty, same⟩
    by_cases equal : owner = other
    · subst equal
      exact nonempty (List.append_right_eq_self.mp same.symm)
    · exact apart other owner (Ne.symm equal) ⟨suffix, same.symm⟩

end Family

/-- Two PrefixDBs over a MemDB: what one sets, the other does not find. -/
theorem memDB_namespaces_independent :
    let pfx : Bool → Bytes := fun owner => if owner then [1] else [2]
    let calls : List (Bool × Call) :=
      [(true, .set (some [7]) (some [8])), (false, .get (some [7])), (true, .get (some [7]))]
    (∀ first second, first ≠ second → ¬ pfx first <+: pfx second) ∧
      Machine.answers (callsOf false) calls ((family memDB pfx).run ⟨SortedMap.empty, fun _ _ => none⟩ calls).1 =
        [.value (.ok none)] := by
  have apart : ∀ first second : Bool, first ≠ second →
      ¬ (if first then [1] else [2] : Bytes) <+: (if second then [1] else [2]) := by decide
  exact ⟨apart, ((prefix_namespaces_independent memContract _ apart SortedMap.empty _).1 false).1.trans (by decide)⟩

end TmDb.Proofs
