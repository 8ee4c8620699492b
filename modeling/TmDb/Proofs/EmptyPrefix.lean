import TmDb.Proofs.Browsers
import TmDb.Proofs.PrefixCursor

/-! PrefixDB with the empty prefix. Point calls and batches reach the parent unchanged,
and so do iterators with two bounds. A missing end makes the increment of the prefix
panic, and a missing start becomes an empty one, which the parent refuses. -/

namespace TmDb.Proofs
open Lib

private theorem prefixed_empty {key : Slice} (nonempty : key.bytes ≠ []) : some (prefixed [] key) = key := by
  cases key with
  | none => exact absurd rfl nonempty
  | some bytes => rfl

private theorem key_empty {α : Type} (refused : Err → α) (method : Slice → α) (key : Slice)
    (refuses : ∀ err, checkKey key = .error err → method key = refused err) :
    (match checkKey key with
      | .error err => refused err
      | .ok _ => method (some (prefixed [] key))) = method key := by
  rcases checkKey_cases key with failed | ⟨nonempty, passed⟩
  · rw [failed]
    exact (refuses _ failed).symm
  · rw [passed, prefixed_empty nonempty]

private theorem pair_empty {α : Type} (refused : Err → α) (method : Slice → Slice → α) (key value : Slice)
    (refuses : ∀ err, checkPair key value = .error err → method key value = refused err) :
    (match checkPair key value with
      | .error err => refused err
      | .ok (_, value) => method (some (prefixed [] key)) (some value)) = method key value := by
  rcases checkPair_cases key value with ⟨err, failed⟩ | ⟨nonempty, content, rfl, passed⟩
  · rw [failed]
    exact (refuses _ failed).symm
  · rw [passed]
    exact congrArg (fun key => method key (some content)) (prefixed_empty nonempty)

private theorem set_empty (store : Store) (key value : Slice) :
    PrefixDB.setWith plain [] plain.set store key value = Plain.set store key value := by
  apply pair_empty (fun err => (Except.error err, store)) (Plain.set store) key value
  intro err failed
  simp only [Plain.set, failed]

private theorem delete_empty (store : Store) (key : Slice) :
    PrefixDB.deleteWith plain [] plain.delete store key = Plain.delete store key := by
  apply key_empty (fun err => (Except.error err, store)) (Plain.delete store) key
  intro err failed
  simp only [Plain.delete, failed]

private theorem batchSet_empty (pending : Pending) (key value : Slice) :
    PrefixBatch.set [] Pending.ops pending key value = Pending.set pending key value := by
  apply pair_empty (fun err => (Except.error err, pending)) (Pending.set pending) key value
  intro err failed
  simp only [Pending.set, failed]

private theorem batchDelete_empty (pending : Pending) (key : Slice) :
    PrefixBatch.delete [] Pending.ops pending key = Pending.delete pending key := by
  apply key_empty (fun err => (Except.error err, pending)) (Pending.delete pending) key
  intro err failed
  simp only [Pending.delete, failed]

private theorem empty_translates : @Translates (prefixDB plain []) plain id id where
  get store key := by
    apply key_empty Except.error (Plain.get store) key
    intro err failed
    simp only [Plain.get, failed]
    rfl
  has store key := by
    apply key_empty Except.error (Plain.has store) key
    intro err failed
    simp only [Plain.has, failed]
    rfl
  set := set_empty
  setSync := set_empty
  delete := delete_empty
  deleteSync := delete_empty
  newBatch := rfl
  batchSet := batchSet_empty
  batchDelete := batchDelete_empty
  batchWrite _ _ := rfl
  batchWriteSync _ _ := rfl
  batchClose _ := rfl

private def Follows : PrefixIter Scan → Scan → Prop := Stands fun it scan => scan = plainContract.cursor it

private theorem empty_matches : @Matches (prefixDB plain []) plain id id Follows where
  translates := empty_translates
  uses := (prefix_scanning (Contract.scanning plainContract)).simulates
  errors := (prefix_scanning (Contract.scanning plainContract)).error

/-- Without the empty key nothing is skipped, and every key has the empty prefix. -/
private theorem visited_empty {items : List Entry} (proper : ∀ entry ∈ items, entry.1 ≠ []) : visited [] items = items := by
  induction items with
  | nil => rfl
  | cons entry rest ih =>
    obtain ⟨first, others⟩ := List.forall_mem_cons.mp proper
    rw [visited_cons List.nil_prefix first, ih others]
    rfl

section Opening
variable (store : Store) (reverse : Bool)

private theorem opener_empty (start stop : Slice) : opener (prefixDB plain []) reverse store start stop =
    PrefixDB.iteratorWith plain [] (opener plain reverse) store start stop := by
  cases reverse <;> rfl

private theorem plain_refused {start stop : Slice} {err : Err} (bounds : checkBounds start stop = .error err) :
    opener plain reverse store start stop = some (.error err) := by
  rw [opener_plain]
  simp only [Plain.scan, bounds]
  rfl

private theorem plain_opened {start stop : Slice} (bounds : checkBounds start stop = .ok ()) :
    opener plain reverse store start stop = some (.ok ⟨start, stop, Store.scan store start stop reverse⟩) := by
  rw [opener_plain]
  simp only [Plain.scan, bounds]
  rfl

private theorem open_between {low high : Bytes} (bounds : checkBounds (some low) (some high) = .ok ()) :
    ∃ it, opener (prefixDB plain []) reverse store (some low) (some high) = some (.ok it) ∧
      Follows it ⟨some low, some high, Store.scan store (some low) (some high) reverse⟩ := by
  have proper : ∀ entry ∈ Store.scan store (some low) (some high) reverse, entry.1 ≠ [] := by
    intro entry member empty
    have above := (isKeyInDomain_iff.mp (Store.mem_scan.mp member).2).1
    rw [empty] at above
    exact (checkBounds_ok.mp bounds).1 (congrArg some (le_antisymm above (Bytes.nil_le low)))
  have made : rangeEnd [] (some high) = some (some high) := rfl
  obtain ⟨it, opened, stands⟩ := iteratorWith_stands (Contract.scanning plainContract) bounds made
    (plain_opened store reverse bounds) rfl (scan_distinct store (some low) (some high) reverse)
  have whole := congrArg (fun items => Follows it ⟨some low, some high, items⟩) (visited_empty proper)
  exact ⟨it, (opener_empty store reverse (some low) (some high)).trans opened, whole.mp stands⟩

/-- With a missing bound the wrapper panics or reports an error. -/
private theorem open_unbounded {start stop : Slice} (bounds : checkBounds start stop = .ok ())
    (missing : ¬ (start.isSome ∧ stop.isSome)) :
    opener (prefixDB plain []) reverse store start stop = none ∨
      opener (prefixDB plain []) reverse store start stop = some (.error .keyEmpty) := by
  rw [opener_empty]
  cases stop with
  | none =>
    simp only [PrefixDB.iteratorWith, bounds]
    exact .inl rfl
  | some high =>
    cases start with
    | none =>
      simp only [PrefixDB.iteratorWith, bounds]
      cases reverse <;> exact .inr rfl
    | some low => exact absurd ⟨rfl, rfl⟩ missing

end Opening

/-- An iterator is opened with two bounds, or refused by both databases. -/
def Browse.Enclosed : Browse → Prop
  | .iterator _ _ start stop => checkBounds start stop = .ok () → start.isSome ∧ stop.isSome
  | _ => True

private def Unwrapped : Browser (prefixDB plain []) → Browser plain → Prop := Beside id id Follows

private theorem step_enclosed (wrapped : Browser (prefixDB plain [])) (direct : Browser plain) (call : Browse)
    (same : Unwrapped wrapped direct) (enclosed : Browse.Enclosed call) :
    ((browsing _).step wrapped call).1 = ((browsing _).step direct call).1 ∧
      Unwrapped ((browsing _).step wrapped call).2 ((browsing _).step direct call).2 := by
  apply Beside.step empty_matches same
  intro name reverse start stop opens
  subst opens
  cases bounds : checkBounds start stop with
  | error err =>
    have refused := (opener_empty wrapped.session.state reverse start stop).trans (iteratorWith_refused plain [] _ bounds)
    exact .of_refused refused (plain_refused _ reverse bounds)
  | ok _ =>
    obtain ⟨low, high⟩ := enclosed bounds
    obtain ⟨low, rfl⟩ := Option.isSome_iff_exists.mp low
    obtain ⟨high, rfl⟩ := Option.isSome_iff_exists.mp high
    obtain ⟨it, opened, follows⟩ := open_between wrapped.session.state reverse bounds
    exact .of_made opened (plain_opened _ reverse bounds) follows

private theorem opened_reply {db : DB} (browser : Browser db) (name : Nat) {reverse : Bool} {start stop : Slice}
    {result : Option (Except Err db.Iter)} (made : opener db reverse browser.session.state start stop = result) :
    ((browsing db).step browser (.iterator name reverse start stop)).1 = .opened (result.map (Except.map fun _ => ())) := by
  subst made
  rfl

private theorem step_unenclosed (wrapped : Browser (prefixDB plain [])) (direct : Browser plain) (call : Browse)
    (_ : Unwrapped wrapped direct) (missing : ¬ Browse.Enclosed call) :
    ((browsing _).step wrapped call).1 ≠ ((browsing _).step direct call).1 := by
  cases call with
  | iterator name reverse start stop =>
    obtain ⟨bounds, missing⟩ := Classical.not_imp.mp missing
    have answer := opened_reply direct name (plain_opened direct.session.state reverse bounds)
    rw [answer]
    rcases open_unbounded wrapped.session.state reverse bounds missing with panics | refuses
    · rw [opened_reply wrapped name panics]
      simp
    · rw [opened_reply wrapped name refuses]
      simp [Except.map]
  | call call => exact absurd trivial missing
  | use name call => exact absurd trivial missing
  | error name => exact absurd trivial missing

/-- The empty prefix, over any run of calls on any database that meets the contract:
the parent's contents are always those that direct calls leave, and the answers are
the parent's exactly when every iterator that is not refused has both bounds. -/
theorem emptyPrefix_identity_iff {db : DB} (contract : Contract db) (state : db.State) (calls : List Browse) :
    let wrapped := (browsing (prefixDB db [])).run (Browser.start state) calls
    let direct := (browsing db).run (Browser.start state) calls
    contract.contents wrapped.2.session.state = contract.contents direct.2.session.state ∧
      (wrapped.1 = direct.1 ↔ ∀ call ∈ calls, Browse.Enclosed call) := by
  intro wrapped direct
  -- both databases are read as the plain map, where refused calls leave no trace either
  obtain ⟨wrappedReplies, wrappedState⟩ := browsing_run (Refines.prefixDB contract []) state calls
  obtain ⟨directReplies, directState⟩ := browsing_run contract state calls
  have initial : Unwrapped (Browser.start (contract.contents state)) (Browser.start (contract.contents state)) :=
    ⟨rfl, fun _ => .none⟩
  constructor
  · have sessions := Machine.run_kept (sessions_kept empty_translates) initial.session calls
    exact wrappedState.trans ((congrArg Session.state sessions).symm.trans directState.symm)
  · have replies := Machine.run_eq_iff step_enclosed step_unenclosed initial calls
    rw [← replies]
    exact Eq.congr wrappedReplies directReplies

/-- Over an empty MemDB the whole range panics, and a range without a start is refused;
the MemDB itself opens both. -/
theorem emptyPrefix_missing_bounds :
    let calls : List Browse := [.iterator 0 false none none, .iterator 1 false none (some [5])]
    ((browsing (prefixDB memDB [])).run (Browser.start SortedMap.empty) calls).1 =
        [.opened none, .opened (some (.error .keyEmpty))] ∧
      ((browsing memDB).run (Browser.start SortedMap.empty) calls).1 = [.opened (some (.ok ())), .opened (some (.ok ()))] := by
  intro calls
  exact ⟨rfl, rfl⟩

end TmDb.Proofs
