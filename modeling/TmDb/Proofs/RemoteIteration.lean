import TmDb.Proofs.Iteration
import TmDb.Proofs.ServerLifecycle
import TmDb.Remote.Streaming

/-! A remote iteration relays the backend's range. What the client has stood on and
what is in flight are, in order, what the loop has sent; a break cuts that short
and lets nothing more in, and an error is never cleared. -/

namespace TmDb.Proofs
open Lib

variable {db : DB} (contract : Contract db)

def pair (item : Proto.Iterator) : Entry := (item.key.bytes, item.value.bytes)

private theorem pair_message (start stop : Slice) (entry : Entry) : pair (message start stop entry).wire = entry := by
  simp [pair, message, Proto.Iterator.wire]

private theorem current_sends {it after : db.Iter} {out : Proto.Iterator}
    (valid : Handler.current db.iter it = (some (some out), after)) :
    ∃ start stop entry rest, contract.cursor it = ⟨start, stop, entry :: rest⟩ ∧
      contract.cursor after = ⟨start, stop, entry :: rest⟩ ∧ out = message start stop entry := by
  have read := current_read contract it
  rw [valid] at read
  rcases ahead : contract.cursor it with ⟨start, stop, _ | ⟨entry, rest⟩⟩
  · rw [ahead] at read
    cases congrArg Prod.fst read
  · rw [ahead, current_scan] at read
    obtain ⟨first, second⟩ := Prod.mk.inj read
    exact ⟨start, stop, entry, rest, rfl, second, Option.some.inj (Option.some.inj first)⟩

private theorem current_ends {it after : db.Iter} (invalid : Handler.current db.iter it = (some none, after)) :
    (contract.cursor it).items = [] := by
  have read := current_read contract it
  rw [invalid] at read
  rcases ahead : contract.cursor it with ⟨start, stop, _ | ⟨entry, rest⟩⟩
  · rfl
  · rw [ahead, current_scan] at read
    cases congrArg Prod.fst read

private theorem pass_sends {it after next : db.Iter} {out : Proto.Iterator}
    (valid : Handler.current db.iter it = (some (some out), after)) (moved : db.iter.next after = (some (), next)) :
    ∃ start stop entry, (contract.cursor it).items = entry :: (contract.cursor next).items ∧ out = message start stop entry := by
  obtain ⟨start, stop, entry, rest, before, kept, rfl⟩ := current_sends contract valid
  have read := contract.next after
  rw [moved, kept] at read
  have reached : contract.cursor next = ⟨start, stop, rest⟩ := congrArg Prod.snd read
  exact ⟨start, stop, entry, by rw [before, reached], rfl⟩

/-- How the loop, the stream and the client share a range. -/
structure Relays (items : List Entry) (relay : Relay db.Iter) : Prop where
  split : ∃ sent ahead, items = sent ++ ahead ∧
    (∀ it, relay.loop = .running it → (contract.cursor it).items = ahead) ∧
    (relay.loop = .returned (some (.ok ())) → ahead = []) ∧
    relay.seen ++ relay.inflight.map pair <+: sent ∧
    (relay.broken = false → relay.seen ++ relay.inflight.map pair = sent)
  valid : ∀ item ∈ relay.inflight, item.valid = true
  standing : relay.primed = true → relay.client.err = none → relay.client.valid = true
  latched : relay.client.err ≠ none → relay.inflight = [] ∧ relay.last ≠ none
  settled : relay.last ≠ none → relay.broken = true ∨ ∃ status, relay.loop = .returned status

namespace Relays
variable {contract} {items : List Entry} {relay next : Relay db.Iter}

theorem opened {it : db.Iter} (ahead : (contract.cursor it).items = items) : Relays contract items (.opened it) where
  split := by
    refine ⟨[], items, rfl, ?_, fun absurd => (by cases absurd), List.prefix_rfl, fun _ => rfl⟩
    intro other same
    cases same
    exact ahead
  valid := by simp [Relay.opened]
  standing absurd := by cases absurd
  latched absurd := (absurd rfl).elim
  settled absurd := (absurd rfl).elim

private theorem unbroken_running {it : db.Iter} (relays : Relays contract items relay) (running : relay.loop = .running it)
    (whole : relay.broken = false) : relay.last = none := by
  by_contra ended
  rcases relays.settled ended with broken | ⟨status, returned⟩
  · rw [whole] at broken; cases broken
  · rw [running] at returned; cases returned

theorem serverStep (relays : Relays contract items relay) (step : Relay.ServerStep db.iter relay next) :
    Relays contract items next := by
  obtain ⟨sent, ahead, rfl, remaining, finished, part, whole⟩ := relays.split
  cases step with
  | @send it _ _ after running valid unbroken moved =>
    obtain ⟨start, stop, entry, before, rfl⟩ := pass_sends contract valid moved
    obtain rfl := (remaining it running).symm.trans before
    have unended := relays.unbroken_running running unbroken
    have joined : relay.seen ++ (relay.inflight ++ [(message start stop entry).wire]).map pair = sent ++ [entry] := by
      rw [List.map_append, ← List.append_assoc, whole unbroken, List.map_singleton, pair_message]
    refine ⟨⟨sent ++ [entry], (contract.cursor after).items, by simp, ?_, fun absurd => (by cases absurd), ?_,
      fun _ => joined⟩, ?_, relays.standing, ?_, ?_⟩
    · intro other same
      cases same
      rfl
    · exact joined ▸ List.prefix_rfl
    · exact List.forall_mem_append.mpr ⟨relays.valid, by simp [message, Proto.Iterator.wire]⟩
    · exact fun failed => ((relays.latched failed).2 unended).elim
    · exact fun ended => (ended unended).elim
  | @lose it _ _ after running valid broken moved =>
    obtain ⟨start, stop, entry, before, rfl⟩ := pass_sends contract valid moved
    obtain rfl := (remaining it running).symm.trans before
    refine ⟨⟨sent ++ [entry], (contract.cursor after).items, by simp, ?_, fun absurd => (by cases absurd), ?_, ?_⟩,
      relays.valid, relays.standing, relays.latched, fun _ => .inl broken⟩
    · intro other same
      cases same
      rfl
    · exact part.trans (List.prefix_append _ _)
    · exact fun unbroken => by rw [broken] at unbroken; cases unbroken
  | fail err running valid broken =>
    exact ⟨⟨sent, ahead, rfl, fun _ absurd => (by cases absurd), fun absurd => (by cases absurd), part, whole⟩,
      relays.valid, relays.standing, relays.latched, fun _ => .inl broken⟩
  | @finish it after running invalid =>
    obtain rfl := (remaining it running).symm.trans (current_ends contract invalid)
    refine ⟨⟨sent, [], rfl, fun _ absurd => (by cases absurd), fun _ => rfl, part, whole⟩, relays.valid, relays.standing,
      fun failed => ⟨(relays.latched failed).1, ?_⟩, fun _ => .inr ⟨_, rfl⟩⟩
    dsimp only
    split
    · exact (relays.latched failed).2
    · exact Option.some_ne_none _
  | crash running panics =>
    exact ⟨⟨sent, ahead, rfl, fun _ absurd => (by cases absurd), fun absurd => (by cases absurd), part,
        fun absurd => (by cases absurd)⟩, relays.valid, relays.standing,
      fun failed => ⟨(relays.latched failed).1, Option.some_ne_none _⟩, fun _ => .inl rfl⟩

private theorem standsOn_error (client : RemoteIter) (err : Err) : Relay.standsOn (client.next (.error err)) = none := rfl

private theorem standsOn_message {client : RemoteIter} (clear : client.err = none) {item : Proto.Iterator}
    (valid : item.valid = true) : (client.next (.ok item)).valid = true ∧
      Relay.standsOn (client.next (.ok item)) = some (pair item) := by
  have stands : (client.next (.ok item)).valid = true := by simp [RemoteIter.next, RemoteIter.valid, valid, clear]
  refine ⟨stands, ?_⟩
  simp only [Relay.standsOn, RemoteIter.key, RemoteIter.value, RemoteIter.asserted, stands]
  rfl

theorem clientStep (relays : Relays contract items relay) (step : Relay.ClientStep relay next) :
    Relays contract items next := by
  obtain ⟨sent, ahead, rfl, remaining, finished, part, whole⟩ := relays.split
  cases step with
  | @receive item rest arrived =>
    -- after an error nothing is in flight any more, so no message can revive the iterator
    have clear : relay.client.err = none := by
      by_contra failed
      rw [(relays.latched failed).1] at arrived
      cases arrived
    have valid := relays.valid
    rw [arrived, List.forall_mem_cons] at valid
    obtain ⟨stands, pairs⟩ := standsOn_message clear valid.1
    have shifted : (relay.seen ++ (Relay.standsOn (relay.client.next (.ok item))).toList) ++ rest.map pair =
        relay.seen ++ relay.inflight.map pair := by
      rw [pairs, arrived]
      simp
    refine ⟨⟨sent, ahead, rfl, remaining, finished, ?_, fun unbroken => ?_⟩, valid.2, fun _ _ => stands, ?_, relays.settled⟩
    · exact shifted.symm ▸ part
    · exact shifted.trans (whole unbroken)
    · exact fun failed => (failed clear).elim
  | @receiveLast err empty ended =>
    have same : relay.seen ++ (Relay.standsOn (relay.client.next (.error err))).toList = relay.seen := by
      simp [standsOn_error]
    refine ⟨⟨sent, ahead, rfl, remaining, finished, ?_, fun unbroken => ?_⟩, relays.valid, fun _ clear => (by cases clear),
      fun _ => ⟨empty, ?_⟩, relays.settled⟩
    · simp only [Relay.received, same]
      exact part
    · simp only [Relay.received, same]
      exact whole unbroken
    · exact ended.symm ▸ Option.some_ne_none err

theorem step (relays : Relays contract items relay) (step : Relay.Step db.iter relay next) : Relays contract items next := by
  cases step with
  | server step => exact relays.serverStep step
  | client step => exact relays.clientStep step
  | sever arriving err cut =>
    obtain ⟨sent, ahead, rfl, remaining, finished, part, whole⟩ := relays.split
    have shorter : relay.seen ++ arriving.map pair <+: relay.seen ++ relay.inflight.map pair :=
      (List.prefix_append_right_inj _).mpr (cut.map pair)
    refine ⟨⟨sent, ahead, rfl, remaining, finished, shorter.trans part, fun absurd => (by cases absurd)⟩, ?_, relays.standing,
      fun failed => ⟨?_, Option.some_ne_none err⟩, fun _ => .inl rfl⟩
    · exact fun item member => relays.valid item (cut.subset member)
    · rw [(relays.latched failed).1] at cut
      exact List.prefix_nil.mp cut

theorem steps (relays : Relays contract items relay) (run : Relay.Steps db.iter relay next) : Relays contract items next :=
  steps_kept (fun step relays => relays.step step) run relays

theorem failed (relays : Relays contract items relay) (primed : relay.primed = true) (invalid : relay.client.valid = false) :
    relay.client.err ≠ none := by
  intro clear
  have valid := relays.standing primed clear
  rw [invalid] at valid
  cases valid

/-- A client that has come to the end of a stream that never broke has seen it all. -/
theorem complete (relays : Relays contract items relay) (returned : relay.loop = .returned (some (.ok ())))
    (unbroken : relay.broken = false) (primed : relay.primed = true) (invalid : relay.client.valid = false) :
    relay.seen = items := by
  obtain ⟨sent, rest, joined, _, finished, _, whole⟩ := relays.split
  have received := whole unbroken
  rw [(relays.latched (relays.failed primed invalid)).1, List.map_nil, List.append_nil] at received
  rw [joined, finished returned, List.append_nil, received]

end Relays

private theorem invalid_of_err {client : RemoteIter} (failed : client.err ≠ none) : client.valid = false := by
  obtain ⟨err, present⟩ := Option.ne_none_iff_exists'.mp failed
  unfold RemoteIter.valid
  cases client.cur <;> simp [present]

theorem err_latched {ι : Type} {ops : IterOps ι} {relay later : Relay ι} (run : Relay.Steps ops relay later)
    (failed : relay.client.err ≠ none) : later.client.err ≠ none := by
  refine @steps_kept _ _ (fun relay => relay.client.err ≠ none) ?_ _ _ run failed
  intro before after step failed
  cases step with
  | server step => cases step <;> exact failed
  | client step =>
    cases step with
    | receive arrived => exact failed
    | receiveLast empty ended => exact Option.some_ne_none _
  | sever arriving err cut => exact failed

/-- The server's iterator for a query, as bounds that survive the wire open it. -/
theorem range_opens (reverse : Bool) (state : db.State) {start stop : Slice} (bounded : start ≠ some [])
    (below : stop ≠ some []) :
    ∃ it, opener db reverse state start.wire stop.wire = some (.ok it) ∧
      (contract.cursor it).items = Store.scan (contract.contents state) start stop reverse := by
  rw [Slice.wire_of_ne bounded, Slice.wire_of_ne below]
  have accepted : checkBounds start stop = .ok () := checkBounds_ok.mpr ⟨bounded, below⟩
  obtain ⟨it, made, at_⟩ := opener_scan contract reverse state accepted
  exact ⟨it, made, congrArg Scan.items at_.symm⟩

/-- RemoteDB iteration, for every schedule of the server, the client and a stream
that may break: the pairs the client stands on are the beginning of the backend's
range, in order; all of it if the loop ended, nothing broke and the client went on
until the end; and an iterator that is no longer valid stays so. -/
theorem remote_iteration_relays (reverse : Bool) (state : db.State) {start stop : Slice}
    (bounded : start ≠ some []) (below : stop ≠ some []) :
    let items := Store.scan (contract.contents state) start stop reverse
    ∃ it, opener db reverse state start.wire stop.wire = some (.ok it) ∧
      ∀ relay, Relay.Steps db.iter (.opened it) relay →
        relay.seen <+: items ∧
        (relay.loop = .returned (some (.ok ())) → relay.broken = false → relay.primed = true →
          relay.client.valid = false → relay.seen = items) ∧
        (relay.primed = true → relay.client.valid = false →
          ∀ later, Relay.Steps db.iter relay later → later.client.valid = false) := by
  intro items
  obtain ⟨it, made, (ahead : (contract.cursor it).items = items)⟩ := range_opens contract reverse state bounded below
  refine ⟨it, made, fun relay run => ?_⟩
  have relays := (Relays.opened ahead).steps run
  refine ⟨?_, relays.complete, fun primed invalid later more => ?_⟩
  · obtain ⟨sent, rest, joined, _, _, part, _⟩ := relays.split
    rw [joined]
    exact ((List.prefix_append _ _).trans part).trans (List.prefix_append _ _)
  · exact invalid_of_err (err_latched more (relays.failed primed invalid))

/-- Two entries of three are in the range, the second sent before the first is received. -/
theorem remote_iteration_relays_two :
    let store : Store := ((SortedMap.empty.insert [1] [2]).insert [3] []).insert [4] [5]
    ∃ it relay, memDB.reverseIterator store (some [2]) none = some (.ok it) ∧
      Relay.Steps memDB.iter (.opened it) relay ∧ relay.client.valid = false ∧
      relay.seen = [([4], [5]), ([3], [])] := by
  intro store
  obtain ⟨it, made, relays⟩ := remote_iteration_relays memContract true store
    (List.cons_ne_nil _ _ ∘ Option.some.inj : (some [2] : Slice) ≠ some []) (nofun : (none : Slice) ≠ some [])
  have run : Relay.Steps memDB.iter (.opened it) (.opened it) := .refl
  cases made
  have run := run.tail (.server (.send rfl rfl rfl rfl))
  have run := run.tail (.server (.send rfl rfl rfl rfl))
  have run := run.tail (.client (.receive rfl))
  have run := run.tail (.server (.finish rfl rfl))
  have run := run.tail (.client (.receive rfl))
  have run := run.tail (.client (.receiveLast rfl rfl))
  exact ⟨_, _, rfl, run, rfl, (relays _ run).2.1 rfl rfl rfl rfl⟩

end TmDb.Proofs
