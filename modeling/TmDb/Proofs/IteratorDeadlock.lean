import Mathlib.Data.Fintype.EquivFin
import Mathlib.Data.List.TakeWhile
import TmDb.Proofs.IteratorSnapshot

/-! When reading a MemDB while iterating it can deadlock. The goroutine keeps the
read lock while it waits for room in the channel; a writer that asks for the lock
then makes the client's next Get wait for the writer, and with it the only one
who could make room. The channel and the primed item hold 65 entries, so smaller
domains are safe, and so are programs without writes. -/

namespace TmDb.Proofs
open Lib

variable {ι : Type} {opening : Opening}

structure Finished (world : World ι) : Prop where
  client : world.client = .closed
  walker : world.walker = none ∨ world.walker = some .done
  writers : ∀ i, world.writers i = .idle []

def Deadlocked [DecidableEq ι] (opening : Opening) (world : World ι) : Prop :=
  ¬ Finished world ∧ ¬ ∃ after, Step opening world after

def OutsideDomain (opening : Opening) (ops : List Operation) : Prop :=
  ∀ op ∈ ops, isKeyInDomain op.key opening.start opening.stop = false

def WriterCall.Outside (opening : Opening) (call : WriterCall) : Prop :=
  ∀ ops, call.operations = some ops → OutsideDomain opening ops

def Writer.Outside (opening : Opening) : Writer → Prop
  | .idle calls => ∀ call ∈ calls, WriterCall.Outside opening call
  | .locking ops calls | .writing ops calls =>
    OutsideDomain opening ops ∧ ∀ call ∈ calls, WriterCall.Outside opening call

theorem scan_applyOp (opening : Opening) (tree : Store) {op : Operation}
    (outside : isKeyInDomain op.key opening.start opening.stop = false) :
    opening.scan (MemBatch.applyOp tree op) = opening.scan tree := by
  have keyed : (Operation.update op).key = op.key := by
    cases op with
    | mk opType key value => cases opType <;> rfl
  have applied : MemBatch.applyOp tree op = tree.apply (Operation.update op) := by
    cases op with
    | mk opType key value => cases opType <;> rfl
  have kept := tree.filter_apply (fun key => isKeyInDomain key opening.start opening.stop) (keyed.symm ▸ outside)
  have entries := congrArg SortedMap.entries kept
  simp only [SortedMap.filter] at entries
  simp only [Opening.scan, Store.scan, applied, entries]

structure Steady (opening : Opening) (scan : List Entry) (world : World ι) : Prop where
  writers : ∀ i, Writer.Outside opening (world.writers i)
  scan : opening.scan world.tree = scan

variable {world : World ι}

/-- The goroutine only ever waits for room in the channel. -/
theorem walker_moves {walker : Walker} (found : world.walker = some walker) (live : walker ≠ .done) :
    (∃ entry visitor, walker = .offering entry visitor ∧ chBufferSize ≤ world.buffer.length ∧ world.cancelled = false) ∨
      ∃ after, WalkerStep opening world after := by
  cases walker with
  | walking last visitor =>
    right
    cases next : opening.traversal.rest world.tree last with
    | nil => exact ⟨_, .finish found next⟩
    | cons entry more =>
      cases judged : visitor.judge entry.1 with
      | mk verdict after =>
        cases verdict with
        | skip => exact ⟨_, .skip found next judged⟩
        | abort => exact ⟨_, .abort found next judged⟩
        | offer => exact ⟨_, .offer found next judged⟩
  | offering entry visitor =>
    by_cases room : world.buffer.length < chBufferSize
    · exact .inr ⟨_, .send found room⟩
    · cases cancelled : world.cancelled with
      | true => exact .inr ⟨_, .cancel found cancelled⟩
      | false => exact .inl ⟨entry, visitor, rfl, not_lt.mp room, rfl⟩
  | closing => exact .inr ⟨_, .close found⟩
  | unlocking => exact .inr ⟨_, .runlock found⟩
  | done => exact absurd rfl live

theorem Snapshot.sender_moves {snapshot : Store} (kept : Snapshot opening snapshot world) (empty : world.buffer = [])
    (still : world.closed = false) : ∃ after, WalkerStep opening world after := by
  obtain ⟨walker, found⟩ := Option.ne_none_iff_exists'.mp kept.started
  have live : walker ≠ .done := by
    rintro rfl
    have gone := kept.shut.mpr (.inr found)
    rw [still] at gone
    cases gone
  refine (walker_moves found live).resolve_left ?_
  rintro ⟨_, _, _, full, _⟩
  rw [empty] at full
  cases full

/-- Inside a read the client has had its first item, so a full channel and a
blocked goroutine account for 66 entries. -/
theorem Snapshot.blocked_length {snapshot : Store} (kept : Snapshot opening snapshot world)
    (reading : world.client = .reading) {entry : Entry} {visitor : Visitor}
    (found : world.walker = some (.offering entry visitor)) (full : chBufferSize ≤ world.buffer.length)
    (running : world.cancelled = false) : chBufferSize + 1 < (opening.scan snapshot).length := by
  have nonempty : world.obtained ≠ [] := by
    cases item : world.item with
    | none =>
      have empty := (kept.invalid item (by simp [reading]) running).1
      rw [empty] at full
      cases full
    | some last =>
      intro empty
      have current := kept.current last item
      simp [empty] at current
  have some_obtained := List.length_pos_iff.mpr nonempty
  have whole := congrArg List.length (kept.accounted running)
  simp only [found, upcoming, List.length_append, List.length_cons] at whole
  omega

/-- Writers whose calls are all refused never touch the lock. -/
def Quiet (world : World ι) : Prop :=
  ∀ i, ∃ calls, world.writers i = .idle calls ∧ ∀ call ∈ calls, call.operations = none

theorem Quiet.unlocked (quiet : Quiet world) (locked : Locked world) : world.lock = none := by
  cases lock : world.lock with
  | none => rfl
  | some i =>
    have engaged := (locked.owner i).mpr lock
    obtain ⟨calls, found, _⟩ := quiet i
    simp [found, Writer.engaged] at engaged

section Runs
variable [DecidableEq ι] {before after : World ι} {scan : List Entry}

theorem Steady.moveWriter (steady : Steady opening scan before) (i : ι) {writer : Writer} {tree : Store}
    {lock : Option ι} (outside : Writer.Outside opening writer) (same : opening.scan tree = opening.scan before.tree) :
    Steady opening scan { before.setWriter i writer with tree := tree, lock := lock } where
  writers j := by
    by_cases equal : j = i
    · subst equal
      simpa [World.setWriter] using outside
    · simpa [World.setWriter, equal] using steady.writers j
  scan := same.trans steady.scan

theorem Steady.step (steady : Steady opening scan before) (step : Step opening before after) :
    Steady opening scan after := by
  cases step with
  | walker step => cases step <;> exact ⟨steady.writers, steady.scan⟩
  | client step => cases step <;> exact ⟨steady.writers, steady.scan⟩
  | writer i step =>
    have outside := steady.writers i
    cases step with
    | refuse idle =>
      rw [idle] at outside
      exact steady.moveWriter i (List.forall_mem_cons.mp outside).2 rfl
    | lock idle accepted =>
      rw [idle] at outside
      obtain ⟨first, rest⟩ := List.forall_mem_cons.mp outside
      exact steady.moveWriter i ⟨first _ accepted, rest⟩ rfl
    | grant locking =>
      rw [locking] at outside
      exact steady.moveWriter i outside rfl
    | apply writing =>
      rw [writing] at outside
      obtain ⟨first, rest⟩ := List.forall_mem_cons.mp outside.1
      exact steady.moveWriter i ⟨rest, outside.2⟩ (scan_applyOp opening before.tree first)
    | unlock writing =>
      rw [writing] at outside
      exact steady.moveWriter i outside.2 rfl

theorem Locked.owner_moves (locked : Locked world) {i : ι} (held : world.lock = some i) (unread : world.readers = 0) :
    ∃ after, WriterStep i world after := by
  have engaged := (locked.owner i).mpr held
  cases found : world.writers i with
  | idle calls => simp [found, Writer.engaged] at engaged
  | locking ops calls => exact ⟨_, .grant found unread⟩
  | writing ops calls =>
    cases ops with
    | nil => exact ⟨_, .unlock found⟩
    | cons op ops => exact ⟨_, .apply found⟩

theorem Locked.writers_move (locked : Locked world) (unread : world.readers = 0) :
    (∀ i, world.writers i = .idle []) ∨ ∃ i after, WriterStep i world after := by
  cases lock : world.lock with
  | some i => exact .inr ⟨i, locked.owner_moves lock unread⟩
  | none =>
    by_cases finished : ∀ i, world.writers i = .idle []
    · exact .inl finished
    obtain ⟨i, unfinished⟩ := not_forall.mp finished
    right
    refine ⟨i, ?_⟩
    cases found : world.writers i with
    | locking ops calls | writing ops calls =>
      have held := (locked.owner i).mp (by simp [found, Writer.engaged])
      exact absurd (lock.symm.trans held) (by simp)
    | idle calls =>
      cases calls with
      | nil => exact absurd found unfinished
      | cons call calls =>
        cases accepted : call.operations with
        | none => exact ⟨_, .refuse found accepted⟩
        | some ops => exact ⟨_, .lock found accepted lock⟩

theorem Snapshot.progress {snapshot : Store} (kept : Snapshot opening snapshot world) (locked : Locked world)
    (safe : (opening.scan snapshot).length ≤ chBufferSize + 1 ∨ world.lock = none) :
    Finished world ∨ ∃ after, Step opening world after := by
  have walks : (∃ after, WalkerStep opening world after) → ∃ after, Step opening world after :=
    fun ⟨after, step⟩ => ⟨after, .walker step⟩
  have writes : ∀ {i}, (∃ after, WriterStep i world after) → ∃ after, Step opening world after :=
    fun ⟨after, step⟩ => ⟨after, .writer _ step⟩
  obtain ⟨walker, found⟩ := Option.ne_none_iff_exists'.mp kept.started
  have held := locked.readers
  cases client : world.client with
  | fresh => exact absurd client kept.opened
  | idle => exact .inr ⟨_, .client (.close client)⟩
  | holding => exact .inr ⟨_, .client (.runlock client)⟩
  | priming | receiving =>
    right
    cases buffer : world.buffer with
    | cons entry rest => exact ⟨_, .client (.receive (by simp [client]) buffer)⟩
    | nil =>
      cases closed : world.closed with
      | true => exact ⟨_, .client (.receiveClosed (by simp [client]) buffer closed)⟩
      | false => exact walks (kept.sender_moves buffer closed)
  | draining =>
    right
    cases buffer : world.buffer with
    | cons entry rest => exact ⟨_, .client (.drain client buffer)⟩
    | nil =>
      cases closed : world.closed with
      | true => exact ⟨_, .client (.drained client buffer closed)⟩
      | false => exact walks (kept.sender_moves buffer closed)
  | reading =>
    right
    cases lock : world.lock with
    | none => exact ⟨_, .client (.rlock client lock)⟩
    | some i =>
      by_cases gone : walker = .done
      · exact writes (locked.owner_moves lock (by simpa [found, gone, client, walkerLocks, clientLocks] using held))
      · rcases walker_moves found gone with ⟨entry, visitor, rfl, full, running⟩ | moves
        · have long := kept.blocked_length client found full running
          rcases safe with short | free
          · omega
          · rw [lock] at free
            cases free
        · exact walks moves
  | closed =>
    have stopped := kept.closing.mpr (.inr client)
    by_cases gone : walker = .done
    · subst gone
      rcases locked.writers_move (by simpa [found, client, walkerLocks, clientLocks] using held) with finished | ⟨i, moves⟩
      · exact .inl ⟨client, .inr found, finished⟩
      · exact .inr (writes moves)
    · rcases walker_moves found gone with ⟨_, _, _, _, running⟩ | moves
      · rw [stopped] at running
        cases running
      · exact .inr (walks moves)

theorem Unopened.progress (unopened : Unopened world) (locked : Locked world) :
    Finished world ∨ ∃ after, Step opening world after := by
  have unread : world.readers = 0 := by
    have held := locked.readers
    rcases unopened.client with client | client <;>
      simpa [unopened.walker, client, walkerLocks, clientLocks] using held
  rcases unopened.client with client | client
  · right
    cases bounds : checkBounds opening.start opening.stop with
    | error err => exact ⟨_, .client (.refuse client bounds)⟩
    | ok value =>
      cases lock : world.lock with
      | none => exact ⟨_, .client (.construct client bounds lock)⟩
      | some i =>
        obtain ⟨after, step⟩ := locked.owner_moves lock unread
        exact ⟨after, .writer i step⟩
  · rcases locked.writers_move unread with finished | ⟨i, after, step⟩
    · exact .inl ⟨client, .inl unopened.walker, finished⟩
    · exact .inr ⟨after, .writer i step⟩

theorem reachable_watched {tree : Store} {programs : ι → List WriterCall}
    (outside : ∀ i, ∀ call ∈ programs i, WriterCall.Outside opening call)
    (reached : Steps opening (World.initial tree programs) world) :
    Locked world ∧ Steady opening (opening.scan tree) world ∧
      (Unopened world ∨ checkBounds opening.start opening.stop = .ok () ∧
        ∃ snapshot, opening.scan snapshot = opening.scan tree ∧ Snapshot opening snapshot world) := by
  induction reached with
  | refl => exact ⟨initial_locked tree programs, ⟨outside, rfl⟩, .inl (initial_unopened tree programs)⟩
  | tail _ step ih =>
    obtain ⟨locked, steady, stage⟩ := ih
    refine ⟨locked.step step, steady.step step, ?_⟩
    rcases stage with unopened | ⟨bounds, snapshot, same, kept⟩
    · rcases unopened.step step with still | ⟨bounds, _, opened⟩
      · exact .inl still
      · exact .inr ⟨bounds, _, steady.scan, opened⟩
    · exact .inr ⟨bounds, snapshot, same, kept.step locked step⟩

theorem Quiet.step (quiet : Quiet before) (step : Step opening before after) : Quiet after := by
  cases step with
  | walker step => cases step <;> exact quiet
  | client step => cases step <;> exact quiet
  | writer i step =>
    obtain ⟨calls, same, refused⟩ := quiet i
    cases step with
    | refuse idle =>
      cases same.symm.trans idle
      intro j
      by_cases equal : j = i
      · subst equal
        exact ⟨_, by simp [World.setWriter], (List.forall_mem_cons.mp refused).2⟩
      · simpa [World.setWriter, equal] using quiet j
    | lock idle accepted =>
      cases same.symm.trans idle
      have none := (List.forall_mem_cons.mp refused).1
      rw [none] at accepted
      cases accepted
    | grant found | apply found | unlock found => cases same.symm.trans found

theorem Quiet.steps (quiet : Quiet before) (steps : Steps opening before after) : Quiet after :=
  steps_kept (fun step quiet => quiet.step step) steps quiet

theorem no_deadlock {tree : Store} {programs : ι → List WriterCall}
    (outside : ∀ i, ∀ call ∈ programs i, WriterCall.Outside opening call)
    (safe : checkBounds opening.start opening.stop = .ok () →
      (opening.scan tree).length ≤ chBufferSize + 1 ∨ ∀ i, ∀ call ∈ programs i, call.operations = none)
    (reached : Steps opening (World.initial tree programs) world) : ¬ Deadlocked opening world := by
  obtain ⟨locked, _, stage⟩ := reachable_watched outside reached
  have progress : Finished world ∨ ∃ after, Step opening world after := by
    rcases stage with unopened | ⟨bounds, snapshot, same, kept⟩
    · exact unopened.progress locked
    · refine kept.progress locked ((safe bounds).imp (fun short => same ▸ short) fun refused => ?_)
      have initially : Quiet (World.initial tree programs) := fun i => ⟨programs i, rfl, refused i⟩
      exact (initially.steps reached).unlocked locked
  rintro ⟨unfinished, stuck⟩
  exact progress.elim unfinished stuck

end Runs

private theorem reach_offer [DecidableEq ι] (world : World ι) {last : Option Bytes} {visitor : Visitor} {entry : Entry}
    {more : List Entry} (next : visitor.offered (opening.traversal.rest world.tree last) = entry :: more)
    (walking : world.walker = some (.walking last visitor)) :
    ∃ after, Steps opening world { world with walker := some (.offering entry after) } ∧
      after.offered (opening.traversal.rest world.tree (some entry.1)) = more := by
  generalize ahead : opening.traversal.rest world.tree last = items at next
  induction items generalizing world last visitor with
  | nil => cases next
  | cons head rest ih =>
    cases judged : visitor.judge head.1 with
    | mk verdict after =>
      cases verdict with
      | abort => simp [Visitor.offered, judged] at next
      | skip =>
        simp only [Visitor.offered, judged] at next
        obtain ⟨final, steps, remaining⟩ := ih { world with walker := some (.walking (some head.1) after) }
          rfl (rest_cons ahead) next
        exact ⟨final, .head (.walker (.skip walking ahead judged)) steps, remaining⟩
      | offer =>
        simp only [Visitor.offered, judged, List.cons.injEq] at next
        obtain ⟨rfl, remaining⟩ := next
        refine ⟨after, .single (.walker (.offer walking ahead judged)), ?_⟩
        rw [rest_cons ahead, remaining]

private theorem fill [DecidableEq ι] (world : World ι) {last : Option Bytes} {visitor : Visitor} (first : List Entry)
    {more : List Entry}
    (next : visitor.offered (opening.traversal.rest world.tree last) = first ++ more)
    (walking : world.walker = some (.walking last visitor))
    (room : world.buffer.length + first.length ≤ chBufferSize) :
    ∃ final after, Steps opening world
        { world with walker := some (.walking final after), buffer := world.buffer ++ first } ∧
      after.offered (opening.traversal.rest world.tree final) = more := by
  induction first generalizing world last visitor with
  | nil =>
    refine ⟨last, visitor, ?_, next⟩
    rw [List.append_nil, ← walking]
  | cons entry first ih =>
    obtain ⟨after, offered, remaining⟩ := reach_offer world next walking
    rw [List.length_cons] at room
    have sent := offered.tail (.walker (.send rfl (by simp only; omega)))
    have fits : (world.buffer ++ [entry]).length + first.length ≤ chBufferSize := by
      simp only [List.length_append, List.length_singleton]
      omega
    obtain ⟨final, visitor, steps, left⟩ := ih { world with
      walker := some (.walking (some entry.1) after), buffer := world.buffer ++ [entry] } remaining rfl fits
    refine ⟨final, visitor, ?_, left⟩
    simpa using sent.trans steps

/-- The calls a writer has left once it has been refused what will be refused. -/
private def settled (calls : List WriterCall) : List WriterCall := calls.dropWhile fun call => call.operations.isNone

private theorem refuse_all [DecidableEq ι] (i : ι) (calls : List WriterCall) (idle : world.writers i = .idle calls) :
    Steps opening world (world.setWriter i (.idle (settled calls))) := by
  induction calls generalizing world with
  | nil =>
    have same : world.setWriter i (.idle (settled [])) = world := by
      simp only [World.setWriter, settled, List.dropWhile_nil, ← idle, Function.update_eq_self]
    rw [same]
  | cons call calls ih =>
    cases accepted : call.operations with
    | none =>
      have rest := @ih (world.setWriter i (.idle calls)) (by simp [World.setWriter])
      have skipped : settled (call :: calls) = settled calls := by simp [settled, accepted]
      rw [skipped]
      refine .head (.writer i (.refuse idle accepted)) ?_
      simpa [World.setWriter] using rest
    | some ops =>
      have same : world.setWriter i (.idle (settled (call :: calls))) = world := by
        simp only [World.setWriter, settled, List.dropWhile_cons, accepted, Option.isNone_some, Bool.false_eq_true,
          if_false, ← idle, Function.update_eq_self]
      rw [same]

private theorem settled_head {calls rest : List WriterCall} {call : WriterCall} (first : settled calls = call :: rest) :
    call.operations ≠ none := by
  have kept := List.head?_dropWhile_not (fun call : WriterCall => call.operations.isNone) calls
  unfold settled at first
  intro refused
  simp [first, refused] at kept

private theorem settled_accepted {calls : List WriterCall} {call : WriterCall} (member : call ∈ calls)
    (accepted : call.operations ≠ none) : ∃ first rest, settled calls = first :: rest := by
  cases found : settled calls with
  | nil =>
    have refused := List.dropWhile_eq_nil_iff.mp found call member
    exact absurd (Option.isNone_iff_eq_none.mp refused) accepted
  | cons first rest => exact ⟨first, rest, rfl⟩

private theorem settle_all [DecidableEq ι] [Finite ι] (tree : Store) (programs : ι → List WriterCall) :
    Steps opening (World.initial tree programs) (World.initial tree fun i => settled (programs i)) := by
  obtain ⟨_⟩ := nonempty_fintype ι
  have some_settled : ∀ done : Finset ι, Steps opening (World.initial tree programs)
      (World.initial tree fun i => if i ∈ done then settled (programs i) else programs i) := by
    intro done
    induction done using Finset.induction_on with
    | empty => simpa using .refl
    | insert i done fresh ih =>
      have idle : (World.initial tree fun i => if i ∈ done then settled (programs i) else programs i).writers i =
          .idle (programs i) := by simp [World.initial, fresh]
      have moved := ih.trans (refuse_all i (programs i) idle)
      convert moved using 1
      simp only [World.initial, World.setWriter, World.mk.injEq, true_and, and_true]
      funext j
      by_cases same : j = i
      · subst same
        simp
      · simp [same]
  simpa using some_settled Finset.univ

private theorem stuck_deadlocked [DecidableEq ι] {i : ι} {entry : Entry} {visitor : Visitor} {ops : List Operation}
    {calls : List WriterCall} (client : world.client = .reading) (walker : world.walker = some (.offering entry visitor))
    (full : world.buffer.length = chBufferSize) (running : world.cancelled = false) (lock : world.lock = some i)
    (owner : world.writers i = .locking ops calls) (read : world.readers ≠ 0)
    (others : ∀ j, j ≠ i → ∃ calls, world.writers j = .idle (settled calls)) : Deadlocked opening world := by
  refine ⟨fun finished => by simp [finished.client] at client, ?_⟩
  rintro ⟨after, step⟩
  cases step with
  | walker step =>
    cases step with
    | send offering room => exact absurd room (by simp [full])
    | cancel offering done => simp [running] at done
    | skip found | abort found | offer found | finish found | close found | runlock found => simp [walker] at found
  | client step =>
    cases step with
    | rlock reading free => simp [lock] at free
    | receive found | receiveClosed found => simp [client] at found
    | refuse found | construct found | next found | read found | runlock found | close found | drain found
    | drained found => simp [client] at found
  | writer j step =>
    by_cases same : j = i
    · subst same
      cases step with
      | grant locking unread => exact read unread
      | refuse found | lock found | apply found | unlock found => simp [owner] at found
    · obtain ⟨calls, idle⟩ := others j same
      cases step with
      | lock found accepted free => simp [lock] at free
      | grant found | apply found | unlock found => simp [idle] at found
      | refuse found refused =>
        exact settled_head (Writer.idle.inj (idle.symm.trans found)) refused

/-- The client has the first of 66 entries, and the goroutine waits at a full channel with
the last. -/
theorem blocked_reachable [DecidableEq ι] {tree : Store} (programs : ι → List WriterCall)
    (bounds : checkBounds opening.start opening.stop = .ok ()) (long : chBufferSize + 1 < (opening.scan tree).length) :
    ∃ primed buffer entry visitor, buffer.length = chBufferSize ∧ Steps opening (World.initial tree programs)
      ⟨tree, 1, none, fun i => .idle (programs i), some (.offering entry visitor), buffer, false, false, .idle,
        some primed, [primed]⟩ := by
  obtain ⟨primed, others, scan⟩ : ∃ primed others, opening.scan tree = primed :: others := by
    cases found : opening.scan tree with
    | nil => simp [found] at long
    | cons primed others => exact ⟨primed, others, rfl⟩
  rw [scan, List.length_cons] at long
  obtain ⟨blocked, more, split⟩ : ∃ blocked more, others.drop chBufferSize = blocked :: more := by
    cases found : others.drop chBufferSize with
    | nil =>
      have short := List.drop_eq_nil_iff.mp found
      omega
    | cons blocked more => exact ⟨blocked, more, rfl⟩
  -- the client opens the iterator and is given the first entry
  let writers : ι → Writer := fun i => .idle (programs i)
  let opened : World ι :=
    ⟨tree, 1, none, writers, some (.walking none opening.visitor), [], false, false, .priming, none, []⟩
  have run : Steps opening (World.initial tree programs) opened := .single (.client (.construct rfl bounds rfl))
  have upcoming : opening.visitor.offered (opening.traversal.rest tree none) = [primed] ++ others :=
    (scan_offered opening tree).trans scan
  obtain ⟨last, visitor, sent, remaining⟩ := fill opened [primed] upcoming rfl (by simp [opened, chBufferSize])
  have run := (run.trans sent).tail (.client (.receive (.inl rfl) rfl))
  -- the goroutine fills the channel and blocks on one entry more
  let idle : World ι :=
    ⟨tree, 1, none, writers, some (.walking last visitor), [], false, false, .idle, some primed, [primed]⟩
  have filling : visitor.offered (opening.traversal.rest tree last) = others.take chBufferSize ++ blocked :: more := by
    rw [← split, List.take_append_drop]
    exact remaining
  have room : (others.take chBufferSize).length = chBufferSize := by simp; omega
  obtain ⟨last, visitor, filled, remaining⟩ := fill idle (others.take chBufferSize) filling rfl (by simp [idle])
  obtain ⟨visitor, offering, _⟩ := reach_offer
    { idle with walker := some (.walking last visitor), buffer := others.take chBufferSize } remaining rfl
  exact ⟨primed, _, blocked, visitor, room, (run.trans filled).trans offering⟩

theorem deadlock_reachable [DecidableEq ι] [Finite ι] {tree : Store} {programs : ι → List WriterCall}
    (bounds : checkBounds opening.start opening.stop = .ok ()) (long : chBufferSize + 1 < (opening.scan tree).length)
    {i : ι} {call : WriterCall} (member : call ∈ programs i) (accepted : call.operations ≠ none) :
    ∃ world, Steps opening (World.initial tree programs) world ∧ Deadlocked opening world := by
  obtain ⟨first, calls, head⟩ := settled_accepted member accepted
  obtain ⟨ops, operations⟩ := Option.ne_none_iff_exists'.mp (settled_head head)
  obtain ⟨primed, buffer, blocked, visitor, full, run⟩ := blocked_reachable (fun j => settled (programs j)) bounds long
  -- a writer asks for the lock, and the client reads
  let stuck : World ι := ⟨tree, 1, some i, Function.update (fun j => .idle (settled (programs j))) i (.locking ops calls),
    some (.offering blocked visitor), buffer, false, false, .reading, some primed, [primed]⟩
  have run : Steps opening (World.initial tree programs) stuck :=
    (((settle_all tree programs).trans run).tail (.writer i (.lock (congrArg Writer.idle head) operations rfl))).tail
      (.client (.read rfl))
  have owner : stuck.writers i = .locking ops calls := by simp only [stuck, Function.update_self]
  refine ⟨stuck, run, stuck_deadlocked rfl rfl full rfl rfl owner Nat.one_ne_zero ?_⟩
  intro j different
  exact ⟨programs j, by simp only [stuck, Function.update_of_ne different]⟩

/-- Reading while iterating is free of deadlocks exactly when the domain fits the
channel and the primed item, or no writer gets as far as the lock. -/
theorem reading_while_iterating_live_iff [DecidableEq ι] [Finite ι] (opening : Opening) (tree : Store)
    (programs : ι → List WriterCall) (outside : ∀ i, ∀ call ∈ programs i, WriterCall.Outside opening call) :
    (∀ world, Steps opening (World.initial tree programs) world → ¬ Deadlocked opening world) ↔
      (checkBounds opening.start opening.stop = .ok () →
        (opening.scan tree).length ≤ chBufferSize + 1 ∨ ∀ i, ∀ call ∈ programs i, call.operations = none) := by
  constructor
  · intro live bounds
    by_contra neither
    obtain ⟨long, accepted⟩ := not_or.mp neither
    obtain ⟨i, found⟩ := not_forall.mp accepted
    obtain ⟨call, found⟩ := not_forall.mp found
    obtain ⟨member, writes⟩ := Classical.not_imp.mp found
    obtain ⟨world, reached, deadlocked⟩ := deadlock_reachable bounds (not_le.mp long) member writes
    exact live world reached deadlocked
  · exact fun safe world reached => no_deadlock outside safe reached

private theorem set_beyond :
    ∀ _ : Unit, ∀ call ∈ [WriterCall.set (some [200]) (some [])], WriterCall.Outside ⟨none, some [100], false⟩ call := by
  intro _ call member ops accepted op written
  cases List.mem_singleton.mp member
  cases accepted
  cases List.mem_singleton.mp written
  decide

theorem short_iteration_live :
    let opening : Opening := ⟨none, some [100], false⟩
    ∀ world : World Unit,
      Steps opening (World.initial (SortedMap.empty.insert [1] [2]) fun _ => [.set (some [200]) (some [])]) world →
        ¬ Deadlocked opening world :=
  (reading_while_iterating_live_iff _ _ _ set_beyond).mpr fun _ => .inl (by decide)

/-- 66 one-byte keys. -/
def crowded : Store where
  entries := (List.range 66).map fun n => ([UInt8.ofNat n], [])
  sorted := by decide +kernel

/-- An iterator over the 66 keys and one Set beyond them. -/
theorem reading_while_iterating_deadlocks :
    let opening : Opening := ⟨none, some [100], false⟩
    let programs : Unit → List WriterCall := fun _ => [.set (some [200]) (some [])]
    (∀ i, ∀ call ∈ programs i, WriterCall.Outside opening call) ∧
      ∃ world, Steps opening (World.initial crowded programs) world ∧ Deadlocked opening world :=
  ⟨set_beyond, deadlock_reachable (i := ()) rfl (by decide +kernel) List.mem_cons_self (by decide)⟩

end TmDb.Proofs
