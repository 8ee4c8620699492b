import Mathlib.Order.WellFounded
import TmDb.Remote.GetStream

/-! GetStream keeps the order of its answers. What has been passed to Send, what the
handler holds and what the goroutine will still offer make up one sequence, until a
Send fails. Then nobody receives any more, and the goroutine's next message has
nowhere to go. -/

namespace TmDb.Proofs.ResponseStream
open Lib

variable {db : DB} (last : Err)

/-- The messages that requests call for, with the error that ends the stream. -/
def script : List (GetStream.Request db) → List Proto.Answer
  | [] => [{ err := last.text }]
  | request :: rest => match db.get request.state request.inp.key with
    | .ok value => { value := value } :: script rest
    | .error err => [{ key := request.inp.key, err := err.text }]

/-- The requests up to the first one whose Get fails. -/
def answered : List (GetStream.Request db) → List (GetStream.Request db)
  | [] => []
  | request :: rest => match db.get request.state request.inp.key with
    | .ok _ => request :: answered rest
    | .error _ => [request]

def ahead : GetStream.Receiver db → List Proto.Answer
  | .receiving rest => script last rest
  | .getting request rest => script last (request :: rest)
  | .offering out (some rest) => out :: script last rest
  | .offering out none => [out]
  | _ => []

def toReceive : GetStream.Receiver db → List (GetStream.Request db)
  | .receiving rest => answered rest
  | .getting request rest => (answered (request :: rest)).tail
  | .offering _ (some rest) => answered rest
  | _ => []

def held : GetStream.Sender → List Proto.Answer
  | .sending out => [out]
  | _ => []

def Finishing (receiver : GetStream.Receiver db) : Prop := receiver = .closing ∨ receiver = .done

variable {last}

theorem script_ne_nil (requests : List (GetStream.Request db)) : script last requests ≠ [] := by
  cases requests with
  | nil => simp [script]
  | cons request rest => cases found : db.get request.state request.inp.key <;> simp [script, found]

theorem answered_cons (request : GetStream.Request db) (rest : List (GetStream.Request db)) :
    answered (request :: rest) = request :: (answered (request :: rest)).tail := by
  cases found : db.get request.state request.inp.key <;> simp [answered, found]

theorem ahead_eq_nil {receiver : GetStream.Receiver db} : ahead last receiver = [] ↔ Finishing receiver := by
  cases receiver with
  | receiving rest => simp [ahead, Finishing, script_ne_nil]
  | getting request rest => simp [ahead, Finishing, script_ne_nil]
  | offering out onward => cases onward <;> simp [ahead, Finishing]
  | closing => simp [ahead, Finishing]
  | done => simp [ahead, Finishing]

theorem get_ok {request : GetStream.Request db} {out : Proto.Entity}
    (found : (Handler.get db request.state request.inp).1 = some (.ok out)) :
    ∃ value, db.get request.state request.inp.key = .ok value ∧ out = { value := value } := by
  cases got : db.get request.state request.inp.key with
  | error err => simp [Handler.get, got, Except.map] at found
  | ok value =>
    simp only [Handler.get, got, Except.map, Option.some.injEq, Except.ok.injEq] at found
    exact ⟨value, rfl, found.symm⟩

theorem get_error {request : GetStream.Request db} {err : Err}
    (failed : (Handler.get db request.state request.inp).1 = some (.error err)) :
    db.get request.state request.inp.key = .error err := by
  cases got : db.get request.state request.inp.key with
  | error other =>
    simp only [Handler.get, got, Except.map, Option.some.injEq, Except.error.injEq] at failed
    rw [failed]
  | ok value => simp [Handler.get, got, Except.map] at failed

variable (last)

theorem getting_steps {stream : GetStream.Stream db} {request : GetStream.Request db} {rest : List (GetStream.Request db)}
    (getting : stream.receiver = .getting request rest) :
    ∃ out onward, GetStream.Step last stream { stream with receiver := .offering out onward } := by
  cases got : db.get request.state request.inp.key with
  | ok value =>
    have found : (Handler.get db request.state request.inp).1 = some (.ok { value := value }) := by
      simp only [Handler.get, got, Except.map]
    exact ⟨_, _, .receiver (.get getting found)⟩
  | error err =>
    have failed : (Handler.get db request.state request.inp).1 = some (.error err) := by
      simp only [Handler.get, got, Except.map]
    exact ⟨_, _, .receiver (.getFails getting failed)⟩

/-- Where a stream stands against the sequence that its requests call for. -/
structure InOrder (requests : List (GetStream.Request db)) (stream : GetStream.Stream db) : Prop where
  accounted : stream.cancelled = false →
    stream.passed ++ (held stream.sender ++ ahead last stream.receiver) = script last requests
  reading : stream.cancelled = false → stream.received ++ toReceive stream.receiver = answered requests
  passed : stream.passed <+: script last requests
  received : stream.received <+: answered requests
  closed : stream.closed = true ↔ stream.receiver = .done
  cancelled : stream.cancelled = true ↔ ∃ err, stream.sender = .returned (.error err)
  ended : stream.sender = .returned (.ok ()) → stream.receiver = .done
  whole : stream.cancelled = true → (stream.passed = script last requests ↔ Finishing stream.receiver)

variable {last} {requests : List (GetStream.Request db)} {before after : GetStream.Stream db}

theorem initial_inOrder (requests : List (GetStream.Request db)) :
    InOrder last requests (GetStream.Stream.initial requests) where
  accounted _ := rfl
  reading _ := rfl
  passed := List.nil_prefix
  received := List.nil_prefix
  closed := by simp [GetStream.Stream.initial]
  cancelled := by simp [GetStream.Stream.initial]
  ended := by simp [GetStream.Stream.initial]
  whole := by simp [GetStream.Stream.initial]

namespace InOrder

private theorem moveReceiver (kept : InOrder last requests before) {receiver : GetStream.Receiver db}
    {received : List (GetStream.Request db)} (busy : ¬ Finishing before.receiver) (still : ¬ Finishing receiver)
    (offers : before.cancelled = false → ahead last receiver = ahead last before.receiver)
    (reads : before.cancelled = false → received ++ toReceive receiver = before.received ++ toReceive before.receiver)
    (stops : before.cancelled = true → received = before.received) :
    InOrder last requests { before with receiver := receiver, received := received } where
  accounted alive := by
    rw [offers alive]
    exact kept.accounted alive
  reading alive := (reads alive).trans (kept.reading alive)
  passed := kept.passed
  received := by
    cases alive : before.cancelled with
    | false => exact ⟨_, (reads alive).trans (kept.reading alive)⟩
    | true =>
      rw [stops alive]
      exact kept.received
  closed := by
    refine iff_of_false ?_ fun done => still (.inr done)
    intro closed
    exact busy (.inr (kept.closed.mp closed))
  cancelled := kept.cancelled
  ended returned := absurd (.inr (kept.ended returned)) busy
  whole cancelled := iff_of_false (fun all => busy ((kept.whole cancelled).mp all)) still

theorem receiverStep (kept : InOrder last requests before) (step : GetStream.ReceiverStep last before after) :
    InOrder last requests after := by
  cases step with
  | @recv request rest receiving alive =>
    apply kept.moveReceiver
    · simp [receiving, Finishing]
    · simp [Finishing]
    · simp [receiving, ahead]
    · intro _
      rw [receiving, toReceive, toReceive, answered_cons request rest]
      simp
    · simp [alive]
  | recvLast receiving alive =>
    apply kept.moveReceiver
    · simp [receiving, Finishing]
    · simp [Finishing]
    · simp [receiving, ahead, script]
    · simp [receiving, toReceive, answered]
    · simp
  | recvCancelled err receiving cancelled =>
    apply kept.moveReceiver
    · simp [receiving, Finishing]
    · simp [Finishing]
    · simp [cancelled]
    · simp [cancelled]
    · simp
  | get getting found =>
    obtain ⟨value, got, rfl⟩ := get_ok found
    apply kept.moveReceiver
    · simp [getting, Finishing]
    · simp [Finishing]
    · simp [getting, ahead, script, got]
    · simp [getting, toReceive, answered, got]
    · simp
  | getFails getting failed =>
    have got := get_error failed
    apply kept.moveReceiver
    · simp [getting, Finishing]
    · simp [Finishing]
    · simp [getting, ahead, script, got]
    · simp [getting, toReceive, answered, got]
    · simp
  | close closing =>
    exact { kept with
      accounted := fun alive => by simpa [closing, ahead] using kept.accounted alive
      reading := fun alive => by simpa [closing, toReceive] using kept.reading alive
      closed := by simp
      ended := fun _ => rfl
      whole := fun cancelled => by simpa [closing, Finishing] using kept.whole cancelled }

private theorem alive (kept : InOrder last requests before) (busy : ∀ result, before.sender ≠ .returned result) :
    before.cancelled = false := by
  rw [← Bool.not_eq_true, kept.cancelled]
  intro returned
  obtain ⟨err, found⟩ := returned
  exact busy _ found

theorem senderStep (kept : InOrder last requests before) (step : GetStream.SenderStep before after) :
    InOrder last requests after := by
  cases step with
  | @send out sending =>
    have alive := kept.alive (by simp [sending])
    have whole := kept.accounted alive
    rw [sending] at whole
    exact { kept with
      accounted := fun _ => by simpa [held] using whole
      passed := ⟨ahead last before.receiver, by simpa [held] using whole⟩
      cancelled := by simp [alive]
      ended := by simp
      whole := by simp [alive] }
  | @sendFails out err sending =>
    have alive := kept.alive (by simp [sending])
    have whole : (before.passed ++ [out]) ++ ahead last before.receiver = script last requests := by
      simpa [sending, held] using kept.accounted alive
    exact { kept with
      accounted := by simp
      reading := by simp
      passed := ⟨_, whole⟩
      cancelled := by simp
      ended := by simp
      whole := fun _ => by
        rw [← whole, ← @ahead_eq_nil db last]
        simp }
  | finish ranging closed =>
    have alive := kept.alive (by simp [ranging])
    exact { kept with
      accounted := fun alive => by simpa [ranging, held] using kept.accounted alive
      cancelled := by simp [alive]
      ended := fun _ => kept.closed.mp closed
      whole := by simp [alive] }

theorem step (kept : InOrder last requests before) (step : GetStream.Step last before after) :
    InOrder last requests after := by
  cases step with
  | receiver step => exact kept.receiverStep step
  | sender step => exact kept.senderStep step
  | @deliver out onward offering ranging moved =>
    subst moved
    have alive := kept.alive (by simp [ranging])
    have whole := kept.accounted alive
    have reads := kept.reading alive
    rw [offering] at whole reads
    exact { kept with
      accounted := fun _ => by
        cases onward <;> simpa [ranging, held, ahead, GetStream.Receiver.after] using whole
      reading := fun _ => by
        cases onward <;> simpa [toReceive, GetStream.Receiver.after] using reads
      closed := by
        have open_ := kept.closed
        cases onward <;> simpa [offering, GetStream.Receiver.after] using open_
      cancelled := by simp [alive]
      ended := by simp
      whole := by simp [alive] }

theorem steps (kept : InOrder last requests before) (run : GetStream.Steps last before after) :
    InOrder last requests after :=
  steps_kept (fun step kept => kept.step step) run kept

theorem returned_whole (kept : InOrder last requests before) (returned : before.sender = .returned (.ok ())) :
    before.passed = script last requests := by
  have alive : before.cancelled = false := by
    rw [← Bool.not_eq_true, kept.cancelled]
    simp [returned]
  simpa [returned, kept.ended returned, held, ahead] using kept.accounted alive

theorem progress (kept : InOrder last requests before) (alive : before.cancelled = false) :
    (∃ after, GetStream.Step last before after) ∨ before.sender = .returned (.ok ()) := by
  have sends : ∀ {out}, before.sender = .sending out → ∃ after, GetStream.Step last before after :=
    fun sending => ⟨_, .sender (.send sending)⟩
  have unfailed : ∀ {err}, before.sender ≠ .returned (.error err) := by
    intro err found
    have failed := kept.cancelled.mpr ⟨err, found⟩
    rw [alive] at failed
    cases failed
  cases receiver : before.receiver with
  | receiving rest =>
    left
    cases rest with
    | nil => exact ⟨_, .receiver (.recvLast receiver alive)⟩
    | cons request rest => exact ⟨_, .receiver (.recv receiver alive)⟩
  | getting request rest =>
    obtain ⟨_, _, step⟩ := getting_steps last receiver
    exact .inl ⟨_, step⟩
  | closing => exact .inl ⟨_, .receiver (.close receiver)⟩
  | offering out onward =>
    left
    cases sender : before.sender with
    | ranging => exact ⟨_, .deliver receiver sender rfl⟩
    | sending out => exact sends sender
    | returned result =>
      cases result with
      | error err => exact absurd sender unfailed
      | ok value =>
        have ended := kept.ended sender
        rw [receiver] at ended
        cases ended
  | done =>
    cases sender : before.sender with
    | ranging => exact .inl ⟨_, .sender (.finish sender (kept.closed.mpr receiver))⟩
    | sending out => exact .inl (sends sender)
    | returned result =>
      cases result with
      | error err => exact absurd sender unfailed
      | ok value => exact .inr rfl

end InOrder

def receiverRank : GetStream.Receiver db → Nat
  | .receiving rest => 4 * rest.length + 4
  | .getting _ rest => 4 * rest.length + 7
  | .offering _ (some rest) => 4 * rest.length + 6
  | .offering _ none => 3
  | .closing => 1
  | .done => 0

def senderRank : GetStream.Sender → Nat
  | .sending _ => 2
  | .ranging => 1
  | .returned _ => 0

def rank (stream : GetStream.Stream db) : Nat := receiverRank stream.receiver + senderRank stream.sender

theorem step_rank (step : GetStream.Step last before after) : rank after < rank before := by
  cases step with
  | receiver step =>
    cases step with
    | recv found | recvLast found | recvCancelled _ found | get found | getFails found | close found =>
      simp only [rank, found, receiverRank, List.length_cons, List.length_nil]
      omega
  | sender step =>
    cases step with
    | send found | sendFails _ found | finish found =>
      simp only [rank, found, senderRank]
      omega
  | @deliver out onward offering ranging moved =>
    subst moved
    cases onward <;> simp only [rank, offering, ranging, GetStream.Receiver.after, receiverRank, senderRank] <;> omega

theorem runs_end (run : Nat → GetStream.Stream db) : ∃ moment, ¬ GetStream.Step last (run moment) (run (moment + 1)) := by
  obtain ⟨moment, stays⟩ := @WellFounded.not_rel_apply_succ Nat (· < ·) _ fun moment => rank (run moment)
  exact ⟨moment, fun step => stays (step_rank step)⟩

/-- GetStream, for every sequence of requests, every outcome of every Get and every
interleaving: the messages passed to Send are always the beginning of the sequence
that the requests call for, and nothing after a failing request is received. The
handler returns nil only after the whole sequence, and it does return when no Send
fails, since until then there is a next step and no run is infinite. -/
theorem getStream_answers_in_order (last : Err) (requests : List (GetStream.Request db)) {stream : GetStream.Stream db}
    (reached : GetStream.Steps last (GetStream.Stream.initial requests) stream) :
    stream.passed <+: script last requests ∧ stream.received <+: answered requests ∧
      (stream.sender = .returned (.ok ()) → stream.passed = script last requests) ∧
      (stream.cancelled = false → (∃ after, GetStream.Step last stream after) ∨ stream.sender = .returned (.ok ())) ∧
      ∀ run : Nat → GetStream.Stream db, run 0 = stream → ∃ moment, ¬ GetStream.Step last (run moment) (run (moment + 1)) := by
  have kept := (initial_inOrder requests).steps reached
  exact ⟨kept.passed, kept.received, kept.returned_whole, kept.progress, fun run _ => runs_end run⟩

theorem getStream_answers_in_order_failing :
    let requests : List (GetStream.Request plain) :=
      [⟨{}, SortedMap.empty⟩, ⟨{ key := some [1] }, SortedMap.empty⟩]
    ∃ stream, GetStream.Steps .eof (GetStream.Stream.initial requests) stream ∧ stream.sender = .returned (.ok ()) ∧
      stream.passed = [{ err := "key cannot be empty" }] ∧ stream.passed = script .eof requests ∧
      stream.received <+: answered requests := by
  intro requests
  have run : GetStream.Steps .eof (GetStream.Stream.initial requests) _ := .refl
  have run := run.tail (.receiver (.recv rfl rfl))
  have run := run.tail (.receiver (.getFails rfl rfl))
  have run := run.tail (.deliver rfl rfl rfl)
  have run := run.tail (.sender (.send rfl))
  have run := run.tail (.receiver (.close rfl))
  have run := run.tail (.sender (.finish rfl rfl))
  have ordered := getStream_answers_in_order .eof requests run
  exact ⟨_, run, rfl, rfl, ordered.2.2.1 rfl, ordered.2.1⟩

variable (last) in
/-- The handler has returned and the goroutine waits at the channel for good. -/
structure Stranded (stream : GetStream.Stream db) : Prop where
  returned : ∃ result, stream.sender = .returned result
  waiting : ∃ out onward, stream.receiver = .offering out onward
  forever : ∀ later, GetStream.Steps last stream later → later.receiver = stream.receiver

section Returned
variable {stream later : GetStream.Stream db} {result : Except Err Unit} (returned : stream.sender = .returned result)
include returned

theorem returned_stuck {out : Proto.Answer} {onward : Option (List (GetStream.Request db))}
    (offering : stream.receiver = .offering out onward) : ¬ GetStream.Step last stream later := by
  intro step
  cases step with
  | receiver step =>
    cases step with
    | recv found | recvLast found | recvCancelled _ found | get found | getFails found | close found =>
      simp [offering] at found
  | sender step =>
    cases step with
    | send found | sendFails _ found | finish found => simp [returned] at found
  | deliver _ ranging => simp [returned] at ranging

theorem offering_stranded {out : Proto.Answer} {onward : Option (List (GetStream.Request db))}
    (offering : stream.receiver = .offering out onward) : Stranded last stream where
  returned := ⟨result, returned⟩
  waiting := ⟨out, onward, offering⟩
  forever later run := by
    rcases run.cases_head with same | ⟨next, step, _⟩
    · rw [same]
    · exact absurd step (returned_stuck returned offering)

theorem returned_stays (run : GetStream.Steps last stream later) :
    later.sender = .returned result ∧ later.passed = stream.passed := by
  refine @steps_kept _ _ (fun now => now.sender = .returned result ∧ now.passed = stream.passed) ?_ _ _ run ⟨returned, rfl⟩
  intro before after step kept
  obtain ⟨still, same⟩ := kept
  cases step with
  | receiver step => cases step <;> exact ⟨still, same⟩
  | sender step =>
    cases step with
    | send found | sendFails _ found | finish found => simp [still] at found
  | deliver _ ranging => simp [still] at ranging

/-- A goroutine that is not on its way out comes to its next message. -/
theorem comes_to_offer (cancelled : stream.cancelled = true) (busy : ¬ Finishing stream.receiver) :
    ∃ later, GetStream.Steps last stream later ∧ Stranded last later := by
  cases receiver : stream.receiver with
  | receiving rest =>
    refine ⟨_, .single (.receiver (.recvCancelled .eof receiver cancelled)), ?_⟩
    exact offering_stranded returned rfl
  | getting request rest =>
    obtain ⟨_, _, step⟩ := getting_steps last receiver
    exact ⟨_, .single step, offering_stranded returned rfl⟩
  | offering out onward => exact ⟨stream, .refl, offering_stranded returned receiver⟩
  | closing => exact absurd (.inl receiver) busy
  | done => exact absurd (.inr receiver) busy

end Returned

/-- Once the handler has returned, the goroutine gets away exactly when the whole
sequence has been passed to Send: no Send has failed, or only that of the last message. -/
theorem getStream_never_strands_iff (last : Err) (requests : List (GetStream.Request db)) {stream : GetStream.Stream db}
    (reached : GetStream.Steps last (GetStream.Stream.initial requests) stream) {result : Except Err Unit}
    (returned : stream.sender = .returned result) :
    (∀ later, GetStream.Steps last stream later → ¬ Stranded last later) ↔ stream.passed = script last requests := by
  have kept := (initial_inOrder requests).steps reached
  constructor
  · intro free
    by_contra part
    have cancelled : stream.cancelled = true := by
      rw [kept.cancelled]
      cases result with
      | error err => exact ⟨err, returned⟩
      | ok value => exact absurd (kept.returned_whole returned) part
    have busy : ¬ Finishing stream.receiver := fun finishing => part ((kept.whole cancelled).mpr finishing)
    obtain ⟨later, run, stranded⟩ := @comes_to_offer _ last _ _ returned cancelled busy
    exact free later run stranded
  · intro all later run stranded
    have keeps := kept.steps run
    obtain ⟨still, same⟩ := returned_stays returned run
    obtain ⟨out, onward, waiting⟩ := stranded.waiting
    have finishing : Finishing later.receiver := by
      cases result with
      | error err => exact (keeps.whole (keeps.cancelled.mpr ⟨err, still⟩)).mp (same.trans all)
      | ok value => exact .inr (keeps.ended still)
    rcases finishing with found | found <;> simp [waiting] at found

/-- The response is sent, and only the Send of the last message fails: the goroutine has
nothing left to report. -/
theorem getStream_never_strands_last :
    let requests : List (GetStream.Request plain) := [⟨{ key := some [1] }, SortedMap.empty⟩]
    ∃ stream, GetStream.Steps .eof (GetStream.Stream.initial requests) stream ∧
      stream.sender = .returned (.error .unavailable) ∧
      ∀ later, GetStream.Steps .eof stream later → ¬ Stranded .eof later := by
  intro requests
  have run : GetStream.Steps .eof (GetStream.Stream.initial requests) _ := .refl
  have run := run.tail (.receiver (.recv rfl rfl))
  have run := run.tail (.receiver (.get rfl rfl))
  have run := run.tail (.deliver rfl rfl rfl)
  have run := run.tail (.sender (.send rfl))
  have run := run.tail (.receiver (.recvLast rfl rfl))
  have run := run.tail (.deliver rfl rfl rfl)
  have run := run.tail (.sender (.sendFails .unavailable rfl))
  exact ⟨_, run, rfl, (getStream_never_strands_iff .eof requests run rfl).mpr rfl⟩

/-- One request whose response cannot be sent: the goroutine reports the cancelled
stream to a channel that nobody receives from. -/
theorem getStream_strands :
    let requests : List (GetStream.Request plain) := [⟨{ key := some [1] }, SortedMap.empty⟩]
    ∃ stream, GetStream.Steps .eof (GetStream.Stream.initial requests) stream ∧ Stranded .eof stream := by
  intro requests
  have run : GetStream.Steps .eof (GetStream.Stream.initial requests) _ := .refl
  have run := run.tail (.receiver (.recv rfl rfl))
  have run := run.tail (.receiver (.get rfl rfl))
  have run := run.tail (.deliver rfl rfl rfl)
  have run := run.tail (.sender (.sendFails .unavailable rfl))
  have run := run.tail (.receiver (.recvCancelled .eof rfl rfl))
  exact ⟨_, run, offering_stranded rfl rfl⟩

end TmDb.Proofs.ResponseStream
