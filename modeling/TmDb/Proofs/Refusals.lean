import TmDb.Unreliable
import TmDb.Proofs.Browsers
import TmDb.Proofs.PrefixCursor

/-! A database whose writes may be refused imitates one whose writes are not: a
refused write changes nothing that can be read, and every other call does what the
other database does. Stacking PrefixDBs on both keeps this. -/

namespace TmDb.Proofs
open Lib

def BrowseReply.refused (refused : Except Err Unit → Bool) : BrowseReply → Bool
  | .call reply => Reply.refused refused reply
  | _ => false

variable {db spec : DB} {refused : Except Err Unit → Bool}
variable {contents : db.State → spec.State} {pending : db.Batch → spec.Batch}

namespace Honours

private theorem setWith (pfx : Bytes) (keyEmpty : refused (.error .keyEmpty) = false)
    (valueNil : refused (.error .valueNil) = false) {σ τ : Type} {read : σ → τ}
    {method : σ → Slice → Slice → Except Err Unit × σ} {expected : τ → Slice → Slice → Except Err Unit × τ}
    (attempt : ∀ state key value, Attempt refused read state (method state key value) (expected (read state) key value))
    (state : σ) (key value : Slice) :
    Attempt refused read state
      (match checkPair key value with
        | .error err => (.error err, state)
        | .ok (_, value) => method state (some (prefixed pfx key)) (some value))
      (match checkPair key value with
        | .error err => (.error err, read state)
        | .ok (_, value) => expected (read state) (some (prefixed pfx key)) (some value)) := by
  by_cases empty : key.len = 0
  · have failed : checkPair key value = .error .keyEmpty := if_pos empty
    rw [failed]
    exact .made keyEmpty rfl
  · cases value with
    | none =>
      have failed : checkPair key none = .error .valueNil := if_neg empty
      rw [failed]
      exact .made valueNil rfl
    | some value =>
      have passed : checkPair key (some value) = .ok (key.bytes, value) := if_neg empty
      rw [passed]
      exact attempt state _ _

private theorem deleteWith (pfx : Bytes) (keyEmpty : refused (.error .keyEmpty) = false) {σ τ : Type} {read : σ → τ}
    {method : σ → Slice → Except Err Unit × σ} {expected : τ → Slice → Except Err Unit × τ}
    (attempt : ∀ state key, Attempt refused read state (method state key) (expected (read state) key))
    (state : σ) (key : Slice) :
    Attempt refused read state
      (match checkKey key with
        | .error err => (.error err, state)
        | .ok _ => method state (some (prefixed pfx key)))
      (match checkKey key with
        | .error err => (.error err, read state)
        | .ok _ => expected (read state) (some (prefixed pfx key))) := by
  rcases checkKey_cases key with failed | ⟨_, passed⟩
  · rw [failed]
    exact .made keyEmpty rfl
  · rw [passed]
    exact attempt state _

theorem prefixDB (honours : Honours refused contents pending) (pfx : Bytes) :
    @Honours (prefixDB db pfx) (prefixDB spec pfx) refused contents pending where
  keyEmpty := honours.keyEmpty
  valueNil := honours.valueNil
  get state key := by
    change PrefixDB.get db pfx state key = PrefixDB.get spec pfx _ key
    unfold PrefixDB.get
    cases checkKey key with
    | error err => rfl
    | ok _ => exact honours.get state _
  has state key := by
    change PrefixDB.has db pfx state key = PrefixDB.has spec pfx _ key
    unfold PrefixDB.has
    cases checkKey key with
    | error err => rfl
    | ok _ => exact honours.has state _
  set := setWith pfx honours.keyEmpty honours.valueNil honours.set
  setSync := setWith pfx honours.keyEmpty honours.valueNil honours.setSync
  delete := deleteWith pfx honours.keyEmpty honours.delete
  deleteSync := deleteWith pfx honours.keyEmpty honours.deleteSync
  newBatch := honours.newBatch
  batchSet := setWith pfx honours.keyEmpty honours.valueNil honours.batchSet
  batchDelete := deleteWith pfx honours.keyEmpty honours.batchDelete
  batchWrite := honours.batchWrite
  batchWriteSync := honours.batchWriteSync
  batchClose := honours.batchClose

end Honours

section Iterators
variable {related : db.Iter → Scan → Prop} {expected : spec.Iter → Scan → Prop}

variable (related expected) in
/-- Two iterators that read as the same plain one, over distinct keys. -/
def Abreast (first : db.Iter) (second : spec.Iter) : Prop :=
  ∃ scan, related first scan ∧ expected second scan ∧ (scan.items.map Prod.fst).Nodup

variable (contents related expected) in
structure OpensAlike : Prop where
  scanning : Scanning db.iter related
  expects : Scanning spec.iter expected
  opens : ∀ reverse state start stop, Opened (Abreast related expected) (opener db reverse state start stop)
    (opener spec reverse (contents state) start stop)

private theorem step_distinct (scan : Scan) (call : IterCall) (distinct : (scan.items.map Prod.fst).Nodup) :
    (((iteration Scan.ops).step scan call).2.items.map Prod.fst).Nodup := by
  rcases scan with ⟨start, stop, _ | ⟨entry, rest⟩⟩
  · cases call <;> exact distinct
  · cases call with
    | valid => exact distinct
    | key => exact distinct
    | value => exact distinct
    | next => exact (List.nodup_cons.mp distinct).2

theorem OpensAlike.uses (opens : OpensAlike contents related expected) :
    (iteration db.iter).Simulates (iteration spec.iter) (Abreast related expected) := by
  intro first second call abreast
  obtain ⟨scan, left, right, distinct⟩ := abreast
  obtain ⟨answer, kept⟩ := opens.scanning.simulates first scan call left
  obtain ⟨answer', kept'⟩ := opens.expects.simulates second scan call right
  exact ⟨answer.trans answer'.symm, _, kept, kept', step_distinct scan call distinct⟩

theorem visited_distinct (pfx : Bytes) {items : List Entry} (distinct : (items.map Prod.fst).Nodup) :
    ((visited pfx items).map Prod.fst).Nodup := by
  have run : ((items.takeWhile fun entry => pfx.isPrefixOf entry.1).map Prod.fst).Nodup :=
    distinct.sublist ((List.takeWhile_prefix _).sublist.map Prod.fst)
  rw [visited, strip, List.map_map, List.Nodup, List.pairwise_map]
  rw [List.Nodup, List.pairwise_map] at run
  refine (run.filter _).imp_of_mem ?_
  intro first second left right differ same
  have starts {entry : Entry} (member : entry ∈ (items.takeWhile fun entry => pfx.isPrefixOf entry.1).filter
      fun entry => pfx.isPrefixOf entry.1 && entry.1 ≠ pfx) : pfx <+: entry.1 := by
    have kept := (List.mem_filter.mp member).2
    exact List.isPrefixOf_iff_prefix.mp ((Bool.and_eq_true _ _).mp kept).1
  obtain ⟨low, same_low⟩ := starts left
  obtain ⟨high, same_high⟩ := starts right
  simp only [Function.comp_apply, ← same_low, ← same_high, List.drop_left] at same
  exact differ (by rw [← same_low, ← same_high, same])

section Opening
variable {pfx : Bytes} {start stop pend : Slice} {method : db.State → Slice → Slice → Option (Except Err db.Iter)}
variable {state : db.State} (bounds : checkBounds start stop = .ok ())
include bounds

private theorem iteratorWith_endless (overflows : rangeEnd pfx stop = none) :
    PrefixDB.iteratorWith db pfx method state start stop = none := by
  cases stop with
  | none =>
    have incremented : cpIncr (some pfx) = none := overflows
    simp [PrefixDB.iteratorWith, bounds, incremented]
  | some stop => cases overflows

private theorem iteratorWith_unopened (made : rangeEnd pfx stop = some pend) {result : Option Err}
    (parent : method state (some (pfx ++ start.bytes)) pend = result.map .error) :
    PrefixDB.iteratorWith db pfx method state start stop = result.map .error := by
  have asked : method state (some (cp (some pfx) ++ start.bytes)) pend = result.map .error := parent
  cases stop with
  | none =>
    have incremented : cpIncr (some pfx) = some pend := made
    cases result <;> simp [PrefixDB.iteratorWith, bounds, incremented, asked]
  | some stop =>
    obtain rfl := Option.some.inj made
    cases result <;> simp [PrefixDB.iteratorWith, bounds, asked]

end Opening

private theorem iteratorWith_alike (alike : OpensAlike contents related expected) (pfx : Bytes) (reverse : Bool)
    (state : db.State) (start stop : Slice) :
    @Opened (prefixDB db pfx) (prefixDB spec pfx)
      (@Abreast (prefixDB db pfx) (prefixDB spec pfx) (Stands related) (Stands expected))
      (PrefixDB.iteratorWith db pfx (opener db reverse) state start stop)
      (PrefixDB.iteratorWith spec pfx (opener spec reverse) (contents state) start stop) := by
  cases bounds : checkBounds start stop with
  | error err => exact .of_refused (iteratorWith_refused db pfx _ bounds) (iteratorWith_refused spec pfx _ bounds)
  | ok _ =>
    cases made : rangeEnd pfx stop with
    | none =>
      rw [iteratorWith_endless bounds made, iteratorWith_endless bounds made]
      exact .panicked
    | some pend =>
      have parents := alike.opens reverse state (some (pfx ++ start.bytes)) pend
      generalize left : opener db reverse state (some (pfx ++ start.bytes)) pend = first at parents
      generalize right : opener spec reverse (contents state) (some (pfx ++ start.bytes)) pend = second at parents
      cases parents with
      | panicked =>
        rw [@iteratorWith_unopened _ _ _ _ _ _ _ bounds made none left,
          @iteratorWith_unopened _ _ _ _ _ _ _ bounds made none right]
        exact .panicked
      | refused err =>
        exact .of_refused (@iteratorWith_unopened _ _ _ _ _ _ _ bounds made (some err) left)
          (@iteratorWith_unopened _ _ _ _ _ _ _ bounds made (some err) right)
      | made abreast =>
        obtain ⟨⟨low, high, items⟩, at_, beside, distinct⟩ := abreast
        obtain ⟨it, opened, stands⟩ := iteratorWith_stands alike.scanning bounds made left at_ distinct
        obtain ⟨other, opened', stands'⟩ := iteratorWith_stands alike.expects bounds made right beside distinct
        exact .of_made opened opened' ⟨_, stands, stands', visited_distinct pfx distinct⟩

theorem OpensAlike.prefixDB (alike : OpensAlike contents related expected) (pfx : Bytes) :
    @OpensAlike (prefixDB db pfx) (prefixDB spec pfx) contents (Stands related) (Stands expected) where
  scanning := prefix_scanning alike.scanning
  expects := prefix_scanning alike.expects
  opens reverse state start stop := by
    cases reverse with
    | false => exact iteratorWith_alike alike pfx false state start stop
    | true => exact iteratorWith_alike alike pfx true state start stop

/-- A caller learns of a refusal only from a call that writes. -/
theorem refused_apart (browser : Browser db) {call : Browse} (apart : ∀ inner, call ≠ .call inner) :
    BrowseReply.refused refused ((browsing db).step browser call).1 = false := by
  have held (name : Nat) {method : db.Iter → BrowseReply × Browser db}
      (answers : ∀ it, BrowseReply.refused refused (method it).1 = false) :
      BrowseReply.refused refused (browser.withIterator name method).1 = false := by
    unfold Browser.withIterator
    cases browser.iterators name with
    | none => rfl
    | some it => exact answers it
  cases call with
  | call inner => exact absurd rfl (apart inner)
  | iterator name reverse start stop => rfl
  | use name call => exact held name fun _ => rfl
  | error name => exact held name fun _ => rfl

private theorem step_imitates (honours : Honours refused contents pending) (alike : OpensAlike contents related expected)
    (first : Browser db) (second : Browser spec) (call : Browse)
    (beside : Beside contents pending (Abreast related expected) first second) :
    let after := (browsing db).step first call
    let wanted := (browsing spec).step second call
    BrowseReply.refused refused after.1 = true ∧ Beside contents pending (Abreast related expected) after.2 second ∨
      BrowseReply.refused refused after.1 = false ∧ after.1 = wanted.1 ∧
        Beside contents pending (Abreast related expected) after.2 wanted.2 := by
  have iterates (apart : ∀ inner, call ≠ .call inner) :=
    beside.iterate alike.uses (fun _ _ ⟨_, left, right, _⟩ => (alike.scanning.error left).trans (alike.expects.error right).symm)
      apart fun _ reverse start stop _ => alike.opens reverse _ start stop
  cases call with
  | call call =>
    have attempt := honours.step first.session call
    rw [← beside.session] at attempt
    cases attempt with
    | refusal refusal unchanged => exact .inl ⟨refusal, beside.session.trans unchanged.symm, beside.iterators⟩
    | made answered same =>
      exact .inr ⟨answered, congrArg BrowseReply.call (congrArg Prod.fst same), (congrArg Prod.snd same).symm,
        beside.iterators⟩
  | iterator name reverse start stop => exact .inr ⟨rfl, iterates (by simp)⟩
  | use name call => exact .inr ⟨refused_apart first (by simp), iterates (by simp)⟩
  | error name => exact .inr ⟨refused_apart first (by simp), iterates (by simp)⟩

end Iterators

variable (refused contents) in
/-- A caller that leaves out the refused calls cannot tell the one database from the
other. -/
def Imitates : Prop :=
  ∃ pending related expected, @Honours db spec refused contents pending ∧ OpensAlike contents related expected

namespace Imitates

theorem prefixDB (imitates : Imitates refused contents) (pfx : Bytes) :
    @Imitates (prefixDB db pfx) (prefixDB spec pfx) refused contents := by
  obtain ⟨pending, related, expected, honours, alike⟩ := imitates
  exact ⟨pending, Stands related, Stands expected, honours.prefixDB pfx, alike.prefixDB pfx⟩

theorem run (imitates : Imitates refused contents) (state : db.State) (calls : List Browse) :
    let granted := (browsing db).granted (BrowseReply.refused refused) (Browser.start state) calls
    granted.map Prod.snd = ((browsing spec).run (Browser.start (contents state)) (granted.map Prod.fst)).1 := by
  obtain ⟨pending, related, expected, honours, alike⟩ := imitates
  exact (Machine.run_granted (step_imitates honours alike) (beside_start state) calls).1

private theorem stacked (imitates : Imitates refused contents) (pfxs : List Bytes) :
    ∃ through : (nested db pfxs).State → (nested spec pfxs).State, Imitates refused through ∧
      ∀ state, through (nested.holding db pfxs state) = nested.holding spec pfxs (contents state) := by
  induction pfxs with
  | nil => exact ⟨contents, imitates, fun _ => rfl⟩
  | cons pfx rest ih =>
    obtain ⟨through, below, holds⟩ := ih
    exact ⟨through, below.prefixDB pfx, holds⟩

theorem nested_run (imitates : Imitates refused contents) (pfxs : List Bytes) (state : db.State) (calls : List Browse) :
    let granted := (browsing (nested db pfxs)).granted (BrowseReply.refused refused)
      (Browser.start (nested.holding db pfxs state)) calls
    granted.map Prod.snd = ((browsing (nested spec pfxs)).run
      (Browser.start (nested.holding spec pfxs (contents state))) (granted.map Prod.fst)).1 := by
  obtain ⟨through, stack, holds⟩ := imitates.stacked pfxs
  rw [← holds state]
  exact stack.run _ calls

end Imitates

/-- Nothing is refused: the two databases are the same to every caller. -/
theorem Imitates.always (imitates : Imitates (fun _ => false) contents) (pfxs : List Bytes) (state : db.State)
    (calls : List Browse) :
    ((browsing (nested db pfxs)).run (Browser.start (nested.holding db pfxs state)) calls).1 =
      ((browsing (nested spec pfxs)).run (Browser.start (nested.holding spec pfxs (contents state))) calls).1 := by
  have never (reply : BrowseReply) : BrowseReply.refused (fun _ => false) reply = false := by
    rcases reply with (_ | _ | _ | _ | _) | _ | _ | _ | _ <;> rfl
  have all := imitates.nested_run pfxs state calls
  have whole : ∀ state : Browser (nested db pfxs), (browsing (nested db pfxs)).granted
      (BrowseReply.refused fun _ => false) state calls = calls.zip ((browsing (nested db pfxs)).run state calls).1 := by
    intro state
    simp [Machine.granted, never]
  simp only [whole] at all
  rwa [List.map_snd_zip (by simp), List.map_fst_zip (by simp)] at all

end TmDb.Proofs
