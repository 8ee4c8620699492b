import TmDb.Proofs.Browsers
import TmDb.Proofs.PrefixScans

/-! A PrefixDB over a PrefixDB is a PrefixDB with the joined prefix. Writes reach the
parent as the same calls. Scans reach it as different ranges, which both layers
reduce to the same namespace. -/

namespace TmDb.Proofs
open Lib

variable {db : DB} {p q : Bytes}

private theorem prefixed_nested (key : Slice) : prefixed p (some (prefixed q key)) = prefixed (p ++ q) key := by
  simp [prefixed, cp]

private theorem prefixed_ne_nil {key : Slice} (nonempty : key.bytes ≠ []) : prefixed q key ≠ [] := by
  simp [prefixed, nonempty]

/-- What has passed the outer check passes the inner one. -/
private theorem pair_nested {σ : Type} (method : σ → Slice → Slice → Except Err Unit × σ) (state : σ) (key value : Slice) :
    (match checkPair key value with
      | .error err => (Except.error err, state)
      | .ok (_, value) => match checkPair (some (prefixed q key)) (some value) with
        | .error err => (Except.error err, state)
        | .ok (_, value) => method state (some (prefixed p (some (prefixed q key)))) (some value)) =
    match checkPair key value with
      | .error err => (Except.error err, state)
      | .ok (_, value) => method state (some (prefixed (p ++ q) key)) (some value) := by
  rcases checkPair_cases key value with ⟨err, failed⟩ | ⟨nonempty, content, rfl, passed⟩
  · rw [failed]
  · simp only [passed, checkPair_some (prefixed_ne_nil nonempty), prefixed_nested]

private theorem key_nested {α : Type} (refused : Err → α) (method : Slice → α) (key : Slice) :
    (match checkKey key with
      | .error err => refused err
      | .ok _ => match checkKey (some (prefixed q key)) with
        | .error err => refused err
        | .ok _ => method (some (prefixed p (some (prefixed q key))))) =
    match checkKey key with
      | .error err => refused err
      | .ok _ => method (some (prefixed (p ++ q) key)) := by
  rcases checkKey_cases key with failed | ⟨nonempty, passed⟩
  · rw [failed]
  · simp only [passed, checkKey_some (prefixed_ne_nil nonempty), prefixed_nested]

private theorem nested_translates : @Translates (prefixDB (prefixDB db p) q) (prefixDB db (p ++ q)) id id where
  get state key := @key_nested p q _ Except.error (db.get state) key
  has state key := @key_nested p q _ Except.error (db.has state) key
  set state key value := pair_nested db.set state key value
  setSync state key value := pair_nested db.setSync state key value
  delete state key := @key_nested p q _ (fun err => (Except.error err, state)) (db.delete state) key
  deleteSync state key := @key_nested p q _ (fun err => (Except.error err, state)) (db.deleteSync state) key
  newBatch := rfl
  batchSet batch key value := pair_nested db.batch.set batch key value
  batchDelete batch key := @key_nested p q _ (fun err => (Except.error err, batch)) (db.batch.delete batch) key
  batchWrite _ _ := rfl
  batchWriteSync _ _ := rfl
  batchClose _ := rfl

theorem under_under (p q : Bytes) (store : Store) : under q (under p store) = under (p ++ q) store := by
  apply SortedMap.ext_get?
  intro key
  simp only [get?_under]
  by_cases empty : key = []
  · simp [empty]
  · simp [empty]

variable (contract : Contract db)

/-- Iterators of the two constructions with the same pairs ahead of them. -/
def Level (first : PrefixIter (PrefixIter db.Iter)) (second : PrefixIter db.Iter) : Prop :=
  ∃ scan, Stands (Stands fun it scan => scan = contract.cursor it) first scan ∧
    Stands (fun it scan => scan = contract.cursor it) second scan

private theorem open_level (left : p ≠ []) (right : q ≠ []) (state : db.State) (start stop : Slice) :
    @Opened (prefixDB (prefixDB db p) q) (prefixDB db (p ++ q)) (Level contract)
      ((prefixDB (prefixDB db p) q).iterator state start stop) ((prefixDB db (p ++ q)).iterator state start stop) := by
  cases bounds : checkBounds start stop with
  | error err =>
    exact .of_refused (iteratorWith_refused (prefixDB db p) q state bounds) (iteratorWith_refused db (p ++ q) state bounds)
  | ok _ =>
    have scannable := Contract.scannable contract
    have whole : p ++ q ≠ [] := by simp [left]
    obtain ⟨first, opened, nested⟩ := ((scannable.prefixDB left).prefixDB right).opens state bounds
    obtain ⟨second, opened', direct⟩ := (scannable.prefixDB whole).opens state bounds
    have same := congrArg (fun store => Scan.mk start stop (Store.scan store start stop false))
      (under_under p q (contract.contents state))
    exact .of_made opened opened' ⟨_, nested, same ▸ direct⟩

private theorem nested_matches : @Matches (prefixDB (prefixDB db p) q) (prefixDB db (p ++ q)) id id (Level contract) where
  translates := nested_translates
  uses := by
    intro first second call level
    obtain ⟨scan, left, right⟩ := level
    have scanning := Contract.scanning contract
    obtain ⟨same, kept⟩ := (prefix_scanning (prefix_scanning scanning)).simulates first scan call left
    obtain ⟨same', kept'⟩ := (prefix_scanning scanning).simulates second scan call right
    exact ⟨same.trans same'.symm, _, kept, kept'⟩
  errors := by
    intro first second level
    obtain ⟨scan, nests, stands⟩ := level
    have scanning := prefix_scanning (Contract.scanning contract)
    exact ((prefix_scanning scanning).error nests).trans (scanning.error stands).symm

private abbrev Alongside : Browser (prefixDB (prefixDB db p) q) → Browser (prefixDB db (p ++ q)) → Prop :=
  @Beside (prefixDB (prefixDB db p) q) (prefixDB db (p ++ q)) id id (Level contract)

def Browse.Forward : Browse → Prop
  | .iterator _ reverse _ _ => reverse = false
  | _ => True

private theorem step_nested (left : p ≠ []) (right : q ≠ []) (nested : Browser (prefixDB (prefixDB db p) q))
    (direct : Browser (prefixDB db (p ++ q))) (call : Browse) (forward : Browse.Forward call)
    (alongside : Alongside contract nested direct) :
    ((browsing _).step nested call).1 = ((browsing _).step direct call).1 ∧
      Alongside contract ((browsing _).step nested call).2 ((browsing _).step direct call).2 := by
  apply alongside.step (nested_matches contract)
  intro name reverse start stop opens
  subst opens
  obtain rfl : reverse = false := forward
  exact open_level contract left right nested.session.state start stop

include contract in
/-- Nesting PrefixDBs joins their prefixes: over any run of calls, with batches and
forward iterators open at any time, both constructions answer alike and leave the
parent in the same state. -/
theorem prefixDB_nesting (state : db.State) (left : p ≠ []) (right : q ≠ []) (calls : List Browse)
    (forward : ∀ call ∈ calls, Browse.Forward call) :
    let nested := (browsing (prefixDB (prefixDB db p) q)).run (Browser.start state) calls
    let direct := (browsing (prefixDB db (p ++ q))).run (Browser.start state) calls
    nested.1 = direct.1 ∧ nested.2.session.state = direct.2.session.state := by
  intro nested direct
  have initial : Alongside contract (Browser.start state : Browser (prefixDB (prefixDB db p) q))
      (Browser.start state : Browser (prefixDB db (p ++ q))) := ⟨rfl, fun _ => .none⟩
  obtain ⟨replies, alongside⟩ := Machine.run_related (step_nested contract left right) initial forward
  exact ⟨replies, (congrArg Session.state alongside.session).symm⟩

/-- Prefixes 01 and FF: one construction asks for the range up to 02, the other for the
range up to 0200, in which the parent has a key of its own. -/
theorem prefixDB_nesting_overflow :
    let store : Store := SortedMap.empty.insert [2] [9]
    let calls : List Browse := [.call (.set (some [5]) (some [6])), .iterator 0 false none none, .use 0 .key, .use 0 .next,
      .use 0 .valid, .error 0]
    ((browsing (prefixDB memDB [1, 255])).run (Browser.start store) calls).1 =
        [.call (.done (.ok ())), .opened (some (.ok ())), .use (.key (some [5])), .use (.next (some ())),
          .use (.valid (some false)), .error none] ∧
      ((browsing (prefixDB (prefixDB memDB [1]) [255])).run (Browser.start store) calls).1 =
        ((browsing (prefixDB memDB [1, 255])).run (Browser.start store) calls).1 := by
  intro store calls
  refine ⟨by rfl, ?_⟩
  exact (prefixDB_nesting memContract store (List.cons_ne_nil 1 []) (List.cons_ne_nil 255 []) calls
    (by simp [calls, Browse.Forward])).1

end TmDb.Proofs
