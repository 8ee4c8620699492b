import TmDb.Proofs.RemoteIteration
import TmDb.Remote.Failing

/-! What a remote iterator's Error says at its end. The server's loop ends in the
same way whether the backend's iterator came to the end of the range or stopped with
an error, and the client keeps the end of the stream as an error of its own. -/

namespace TmDb.Proofs
open Lib

section View
variable {ι κ : Type} {ops : IterOps ι} {spec : IterOps κ} {view : ι → κ} {relay next : Relay ι}

def viewLoop (view : ι → κ) : Loop ι → Loop κ
  | .running it => .running (view it)
  | .returned status => .returned status

def viewed (view : ι → κ) (relay : Relay ι) : Relay κ where
  loop := viewLoop view relay.loop
  inflight := relay.inflight
  broken := relay.broken
  last := relay.last
  client := relay.client
  primed := relay.primed
  seen := relay.seen

private theorem running_view {it : ι} (running : relay.loop = .running it) :
    (viewed view relay).loop = .running (view it) := by
  simp [viewed, viewLoop, running]

private theorem current_view (commutes : Commutes ops spec view) {it after : ι} {answer : Option (Option Proto.Iterator)}
    (found : Handler.current ops it = (answer, after)) : Handler.current spec (view it) = (answer, view after) := by
  rw [← commutes.current it, found]
  rfl

private theorem next_view (commutes : Commutes ops spec view) {it after : ι} {answer : Option Unit}
    (moved : ops.next it = (answer, after)) : spec.next (view it) = (answer, view after) := by
  rw [← commutes.next it, moved]
  rfl

private theorem serverStep_view (commutes : Commutes ops spec view) (step : Relay.ServerStep ops relay next) :
    Relay.ServerStep spec (viewed view relay) (viewed view next) := by
  cases step with
  | send running valid whole moved =>
    exact .send (running_view running) (current_view commutes valid) whole (next_view commutes moved)
  | lose running valid broken moved =>
    exact .lose (running_view running) (current_view commutes valid) broken (next_view commutes moved)
  | fail err running valid broken => exact .fail err (running_view running) (current_view commutes valid) broken
  | finish running invalid => exact .finish (running_view running) (current_view commutes invalid)
  | @crash it running panics =>
    apply Relay.ServerStep.crash (running_view running)
    obtain stuck | ⟨out, after, valid, stuck⟩ := panics
    · left
      rw [← commutes.current it]
      exact stuck
    · right
      refine ⟨out, view after, current_view commutes valid, ?_⟩
      rw [← commutes.next after]
      exact stuck

theorem step_view (commutes : Commutes ops spec view) (step : Relay.Step ops relay next) :
    Relay.Step spec (viewed view relay) (viewed view next) := by
  cases step with
  | server step => exact .server (serverStep_view commutes step)
  | client step =>
    cases step with
    | receive arrived => exact .client (.receive arrived)
    | receiveLast empty ended => exact .client (.receiveLast empty ended)
  | sever arriving err part => exact .sever arriving err part

theorem steps_view (commutes : Commutes ops spec view) (run : Relay.Steps ops relay next) :
    Relay.Steps spec (viewed view relay) (viewed view next) :=
  Relation.ReflTransGen.lift (viewed view) (fun _ _ step => step_view commutes step) _ _ run

end View

/-- The entries that an iterator gives before it stops with an error, if it does. -/
def given (fault : Option (Nat × Err)) (items : List Entry) : List Entry :=
  match fault with
  | none => items
  | some (left, _) => items.take left

section Failing
variable {db : DB} (contract : Contract db)

def failingCursor (it : FailingIter db.Iter) : Scan :=
  { contract.cursor it.source with items := given it.fault (contract.cursor it.source).items }

private theorem stopped_given {fault : Option (Nat × Err)} {source : db.Iter}
    (stopped : (FailingIter.mk source fault).stopped.isSome = true) (items : List Entry) : given fault items = [] := by
  rcases fault with _ | ⟨_ | left, err⟩
  · cases stopped
  · rfl
  · cases stopped

private theorem running_given {fault : Option (Nat × Err)} {source : db.Iter}
    (running : ¬ (FailingIter.mk source fault).stopped.isSome = true) (entry : Entry) (rest : List Entry) :
    given fault (entry :: rest) = entry :: given (fault.map fun fault => (fault.1 - 1, fault.2)) rest := by
  rcases fault with _ | ⟨_ | left, err⟩
  · rfl
  · exact absurd rfl running
  · rfl

private theorem given_nil (fault : Option (Nat × Err)) : given fault [] = [] := by
  rcases fault with _ | ⟨left, err⟩
  · rfl
  · exact List.take_nil

private theorem asked_read {α : Type} (read : Scan → Option α) {refusal : Option α} {it : FailingIter db.Iter}
    {result : Option α × db.Iter}
    (same : result.map id contract.cursor = (read (contract.cursor it.source), contract.cursor it.source))
    (empty : ∀ start stop, read ⟨start, stop, []⟩ = refusal)
    (head : ∀ start stop entry rest other, read ⟨start, stop, entry :: rest⟩ = read ⟨start, stop, entry :: other⟩) :
    (it.asked refusal result).map id (failingCursor contract) =
      (read (failingCursor contract it), failingCursor contract it) := by
  obtain ⟨source, fault⟩ := it
  obtain ⟨answer, after⟩ := result
  obtain ⟨rfl, kept⟩ := Prod.mk.inj same
  unfold FailingIter.asked failingCursor
  dsimp only [id_eq] at kept ⊢
  split
  next stopped => simp only [Prod.map, id_eq, stopped_given stopped, empty]
  next running =>
    simp only [Prod.map, id_eq, kept]
    rcases contract.cursor source with ⟨start, stop, _ | ⟨entry, rest⟩⟩
    · simp only [given_nil]
    · rw [running_given running]
      exact congrArg (fun answer => (answer, _)) (head start stop entry rest _)

private theorem next_read_failing (it : FailingIter db.Iter) :
    ((FailingIter.iter db.iter).next it).map id (failingCursor contract) = Scan.ops.next (failingCursor contract it) := by
  obtain ⟨source, fault⟩ := it
  have moved := contract.next source
  unfold failingCursor
  dsimp only [FailingIter.iter, FailingIter.asked]
  split
  next stopped =>
    rw [stopped_given stopped]
    simp only [andThen, Prod.map, id_eq, stopped_given stopped]
    rfl
  next running =>
    rcases ahead : contract.cursor source with ⟨start, stop, _ | ⟨entry, rest⟩⟩
    · rw [ahead] at moved
      obtain ⟨none_, kept⟩ := Prod.mk.inj moved
      simp only [id_eq] at none_
      simp only [none_, andThen, Prod.map, id_eq, kept, given_nil]
      rfl
    · rw [ahead] at moved
      obtain ⟨some_, kept⟩ := Prod.mk.inj moved
      simp only [id_eq] at some_
      simp only [some_, andThen, Prod.map, id_eq, kept, running_given running]
      rfl

theorem failing_commutes : Commutes (FailingIter.iter db.iter) Scan.ops (failingCursor contract) where
  domain it := contract.domain it.source
  valid it := asked_read contract (fun scan => some scan.valid) (contract.valid it.source) (fun _ _ => rfl)
    fun _ _ _ _ _ => rfl
  next := next_read_failing contract
  key it := asked_read contract (fun scan => scan.items.head?.map Prod.fst) (contract.key it.source) (fun _ _ => rfl)
    fun _ _ _ _ _ => rfl
  value it := asked_read contract (fun scan => scan.items.head?.map Prod.snd) (contract.value it.source) (fun _ _ => rfl)
    fun _ _ _ _ _ => rfl

end Failing

/-- As long as the stream has not broken, it can end in nothing but the end of the loop. -/
def Orderly {ι : Type} (relay : Relay ι) : Prop :=
  relay.broken = false →
    ((∃ it, relay.loop = .running it) ∨ relay.loop = .returned (some (.ok ()))) ∧
      (relay.last = none ∨ relay.last = some .eof) ∧ (relay.client.err = none ∨ relay.client.err = some .eof)

theorem Orderly.step {ι : Type} {ops : IterOps ι} {relay next : Relay ι} (orderly : Orderly relay)
    (step : Relay.Step ops relay next) : Orderly next := by
  cases step with
  | server step =>
    cases step with
    | send running valid whole moved =>
      intro unbroken
      exact ⟨.inl ⟨_, rfl⟩, (orderly unbroken).2⟩
    | lose running valid broken moved =>
      intro unbroken
      exact ⟨.inl ⟨_, rfl⟩, (orderly unbroken).2⟩
    | fail err running valid broken =>
      intro unbroken
      rw [show relay.broken = false from unbroken] at broken
      cases broken
    | finish running invalid =>
      intro unbroken
      have whole : relay.broken = false := unbroken
      refine ⟨.inr rfl, ?_, (orderly whole).2.2⟩
      simp [whole]
    | crash running panics => exact fun unbroken => by cases unbroken
  | client step =>
    cases step with
    | receive arrived => exact orderly
    | receiveLast empty ended =>
      intro unbroken
      obtain ⟨loop, last, _⟩ := orderly unbroken
      refine ⟨loop, last, .inr ?_⟩
      rw [ended] at last
      obtain absent | eof := last
      · cases absent
      · exact eof
  | sever arriving err part => exact fun unbroken => by cases unbroken

theorem Orderly.steps {ι : Type} {ops : IterOps ι} {it : ι} {relay : Relay ι}
    (run : Relay.Steps ops (.opened it) relay) : Orderly relay :=
  steps_kept (fun step orderly => orderly.step step) run fun _ => ⟨.inl ⟨it, rfl⟩, .inl rfl, .inl rfl⟩

section Ends
variable {db : DB} {contract : Contract db} {it : db.Iter} {fault : Option (Nat × Err)} {items : List Entry}
  {relay : Relay (FailingIter db.Iter)}

private theorem relays_failing (ahead : (contract.cursor it).items = items)
    (run : Relay.Steps (FailingIter.iter db.iter) (.opened ⟨it, fault⟩) relay) :
    Relays plainContract (given fault items) (viewed (failingCursor contract) relay) := by
  subst ahead
  exact (@Relays.opened plain plainContract _ (failingCursor contract ⟨it, fault⟩) rfl).steps
    (steps_view (failing_commutes contract) run)

/-- Over a stream that does not break, every iteration ends alike: the client has all
that the backend gave, and its Error is the end of the stream. -/
theorem unbroken_end (ahead : (contract.cursor it).items = items)
    (run : Relay.Steps (FailingIter.iter db.iter) (.opened ⟨it, fault⟩) relay) (primed : relay.primed = true)
    (invalid : relay.client.valid = false) (unbroken : relay.broken = false) :
    relay.seen = given fault items ∧ relay.client.err = some .eof := by
  have relays := relays_failing ahead run
  obtain ⟨loop, last, err⟩ := Orderly.steps run unbroken
  have failed : relay.client.err ≠ none := relays.failed primed invalid
  have returned : (viewed (failingCursor contract) relay).loop = .returned (some (.ok ())) := by
    obtain ⟨other, running⟩ | returned := loop
    · obtain broken | ⟨status, returned⟩ := relays.settled (relays.latched failed).2
      · rw [show relay.broken = true from broken] at unbroken
        cases unbroken
      · have both : Loop.running (failingCursor contract other) = .returned status :=
          (running_view running).symm.trans returned
        cases both
    · simp [viewed, viewLoop, returned]
  exact ⟨relays.complete returned unbroken primed invalid, err.resolve_left failed⟩

/-- The backend's iterator stops with an error, within the range or right after it. -/
def Fails (fault : Option (Nat × Err)) (items : List Entry) : Prop :=
  ∃ left err, fault = some (left, err) ∧ left ≤ items.length

def Clean (fault : Option (Nat × Err)) (items : List Entry) (relay : Relay (FailingIter db.Iter)) : Prop :=
  relay.seen = items ∧ ¬ Fails fault items ∧ relay.broken = false

private theorem given_whole (whole : ¬ Fails fault items) : given fault items = items := by
  rcases fault with _ | ⟨left, err⟩
  · rfl
  · apply List.take_of_length_le
    by_contra short
    exact whole ⟨left, err, rfl, by omega⟩

private theorem clean_iff (ahead : (contract.cursor it).items = items)
    (run : Relay.Steps (FailingIter.iter db.iter) (.opened ⟨it, fault⟩) relay) (primed : relay.primed = true)
    (invalid : relay.client.valid = false) : Clean fault items relay ↔ ¬ (Fails fault items ∨ relay.broken = true) := by
  rw [not_or, Bool.not_eq_true]
  constructor
  · intro clean
    exact clean.2
  · intro undisturbed
    have whole := (unbroken_end ahead run primed invalid undisturbed.2).1
    exact ⟨whole.trans (given_whole undisturbed.1), undisturbed⟩

theorem later_error_iff (ahead : (contract.cursor it).items = items)
    (run : Relay.Steps (FailingIter.iter db.iter) (.opened ⟨it, fault⟩) relay) (primed : relay.primed = true)
    (invalid : relay.client.valid = false) {later : Relay (FailingIter db.Iter)}
    (more : Relay.Steps (FailingIter.iter db.iter) relay later) :
    (later.client.err = none ↔ Clean fault items relay) ↔ Fails fault items ∨ relay.broken = true := by
  have failed : relay.client.err ≠ none := (relays_failing ahead run).failed primed invalid
  have present := err_latched more failed
  simp only [present, false_iff, clean_iff ahead run primed invalid, not_not]

end Ends

/-- The client has asked for an item and there was none: its loop is over. -/
def Over {ι : Type} (relay : Relay ι) : Prop := relay.primed = true ∧ relay.client.valid = false

/-- Error of a remote iterator that is no longer valid, then and ever after, for every
schedule, every place where the backend's iterator may stop with an error and every
break of the stream: it is right exactly when the one or the other has happened by the
time that the iterator becomes invalid. -/
theorem remote_error_truthful_iff {db : DB} (contract : Contract db) (reverse : Bool) (state : db.State)
    {start stop : Slice} (bounded : start ≠ some []) (below : stop ≠ some []) (fault : Option (Nat × Err)) :
    let items := Store.scan (contract.contents state) start stop reverse
    ∃ it, opener db reverse state start.wire stop.wire = some (.ok it) ∧
      ∀ before relay, Relay.Steps (FailingIter.iter db.iter) (.opened ⟨it, fault⟩) before →
        Relay.Step (FailingIter.iter db.iter) before relay → ¬ Over before → Over relay →
        ∀ later, Relay.Steps (FailingIter.iter db.iter) relay later →
          ((later.client.err = none ↔ Clean fault items relay) ↔ Fails fault items ∨ relay.broken = true) := by
  intro items
  obtain ⟨it, made, (ahead : (contract.cursor it).items = items)⟩ := range_opens contract reverse state bounded below
  refine ⟨it, made, ?_⟩
  intro before relay run step _ ended later more
  exact later_error_iff ahead (run.tail step) ended.1 ended.2 more

theorem remote_error_truthful_failing :
    let store : Store := (SortedMap.empty.insert [1] [2]).insert [3] []
    let fault : Option (Nat × Err) := some (1, .engine "checksum mismatch")
    ∃ it before relay, memDB.iterator store none none = some (.ok it) ∧
      Relay.Steps (FailingIter.iter memDB.iter) (.opened ⟨it, fault⟩) before ∧
      Relay.Step (FailingIter.iter memDB.iter) before relay ∧ before.client.valid = true ∧ Over relay ∧
      relay.seen = [([1], [2])] ∧ (relay.client.err = none ↔ Clean fault [([1], [2]), ([3], [])] relay) := by
  intro store fault
  obtain ⟨it, made, truthful⟩ := remote_error_truthful_iff memContract false store
    (nofun : (none : Slice) ≠ some []) (nofun : (none : Slice) ≠ some []) fault
  have run : Relay.Steps (FailingIter.iter memDB.iter) (.opened ⟨it, fault⟩) (.opened ⟨it, fault⟩) := .refl
  cases made
  have run := run.tail (.server (.send rfl rfl rfl rfl))
  have run := run.tail (.client (.receive rfl))
  have run := run.tail (.server (.finish rfl rfl))
  refine ⟨_, _, _, rfl, run, .client (.receiveLast rfl rfl), rfl, ⟨rfl, rfl⟩, rfl, ?_⟩
  apply (truthful _ _ run (.client (.receiveLast rfl rfl)) (fun ended => nomatch ended.2) ⟨rfl, rfl⟩ _ .refl).mpr
  exact .inl ⟨1, .engine "checksum mismatch", rfl, by decide⟩

/-- Nothing fails and the client receives the whole range, yet its Error is not nil. -/
theorem remote_error_eof :
    let store : Store := SortedMap.empty.insert [1] [2]
    ∃ it relay, memDB.iterator store none none = some (.ok it) ∧
      Relay.Steps (FailingIter.iter memDB.iter) (.opened ⟨it, none⟩) relay ∧ relay.client.valid = false ∧
      relay.seen = store.entries ∧ relay.broken = false ∧ relay.client.err = some .eof := by
  intro store
  obtain ⟨it, made⟩ : ∃ it, memDB.iterator store none none = some (.ok it) := ⟨_, rfl⟩
  have run : Relay.Steps (FailingIter.iter memDB.iter) (.opened ⟨it, none⟩) (.opened ⟨it, none⟩) := .refl
  cases made
  have run := run.tail (.server (.send rfl rfl rfl rfl))
  have run := run.tail (.client (.receive rfl))
  have run := run.tail (.server (.finish rfl rfl))
  have run := run.tail (.client (.receiveLast rfl rfl))
  exact ⟨_, _, rfl, run, rfl, rfl, rfl, rfl⟩

end TmDb.Proofs
