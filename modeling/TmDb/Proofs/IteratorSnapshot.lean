import TmDb.MemConcurrent
import TmDb.Proofs.MemContract

/-! A MemDB iterator is a snapshot. The read lock accounts for who may change the
tree; while the goroutine holds it, what the client has, what the channel holds
and what the goroutine will still send make up the domain of the opened tree. -/

namespace TmDb.Proofs
open Lib

variable {ι : Type} {opening : Opening}

private theorem items_ordered (traversal : Traversal) (tree : Store) :
    (traversal.items tree).Pairwise fun first second => traversal.beyond (some first.1) second.1 = true := by
  unfold Traversal.items Traversal.beyond
  split
  · exact List.pairwise_reverse.mpr ((tree.sorted.filter _).imp fun less => by simpa using less)
  · exact (tree.sorted.filter _).imp fun less => by simpa using less

private theorem beyond_trans {traversal : Traversal} {last : Option Bytes} {middle key : Bytes}
    (first : traversal.beyond last middle = true) (second : traversal.beyond (some middle) key = true) :
    traversal.beyond last key = true := by
  cases last with
  | none => rfl
  | some last =>
    cases way : traversal.reverse with
    | true =>
      simp only [Traversal.beyond, way, if_true, decide_eq_true_eq] at first second ⊢
      exact second.trans first
    | false =>
      simp only [Traversal.beyond, way, Bool.false_eq_true, if_false, decide_eq_true_eq] at first second ⊢
      exact first.trans second

theorem rest_cons {traversal : Traversal} {tree : Store} {last : Option Bytes} {entry : Entry} {more : List Entry}
    (next : traversal.rest tree last = entry :: more) : traversal.rest tree (some entry.1) = more := by
  have ordered := (items_ordered traversal tree).filter fun entry => traversal.beyond last entry.1
  have visited : entry ∈ traversal.rest tree last := next ▸ List.mem_cons_self
  have reached : traversal.beyond last entry.1 = true := (List.mem_filter.mp visited).2
  have narrower : traversal.rest tree (some entry.1) =
      (traversal.rest tree last).filter fun other => traversal.beyond (some entry.1) other.1 := by
    simp only [Traversal.rest, List.filter_filter]
    congr 1
    funext other
    rw [Bool.eq_iff_iff, Bool.and_eq_true]
    exact ⟨fun later => ⟨later, beyond_trans reached later⟩, And.left⟩
  change (traversal.rest tree last).Pairwise _ at ordered
  rw [next] at ordered
  obtain ⟨later, _⟩ := List.pairwise_cons.mp ordered
  have itself : traversal.beyond (some entry.1) entry.1 = false := by simp [Traversal.beyond]
  rw [narrower, next, List.filter_cons]
  simpa [itself, List.filter_eq_self] using later

theorem rest_none (traversal : Traversal) (tree : Store) : traversal.rest tree none = traversal.items tree := by
  simp [Traversal.rest, Traversal.beyond]

/-- What the goroutine will send if it is not cancelled. -/
def upcoming (opening : Opening) (tree : Store) : Option Walker → List Entry
  | some (.walking last visitor) => visitor.offered (opening.traversal.rest tree last)
  | some (.offering entry visitor) => entry :: visitor.offered (opening.traversal.rest tree (some entry.1))
  | _ => []

/-- The read locks held by the goroutine and by the client. -/
def walkerLocks : Option Walker → Nat
  | none | some .done => 0
  | _ => 1

def clientLocks : Client → Nat
  | .holding => 1
  | _ => 0

def Writer.engaged : Writer → Bool
  | .idle _ => false
  | _ => true

def Writer.granted : Writer → Bool
  | .writing _ _ => true
  | _ => false

structure Locked (world : World ι) : Prop where
  readers : world.readers = walkerLocks world.walker + clientLocks world.client
  owner : ∀ i, Writer.engaged (world.writers i) = true ↔ world.lock = some i
  exclusive : ∀ i, Writer.granted (world.writers i) = true → world.readers = 0
  fresh : world.client = .fresh → world.walker = none

theorem initial_locked (tree : Store) (programs : ι → List WriterCall) : Locked (World.initial tree programs) where
  readers := rfl
  owner i := by simp [World.initial, Writer.engaged]
  exclusive i granted := by simp [World.initial, Writer.granted] at granted
  fresh _ := rfl

theorem Locked.ungranted {world : World ι} (locked : Locked world) (free : world.lock = none) (i : ι) :
    ¬ Writer.granted (world.writers i) = true := by
  intro granted
  have engaged : Writer.engaged (world.writers i) = true := by
    cases found : world.writers i <;> simp_all [Writer.granted, Writer.engaged]
  have held := (locked.owner i).mp engaged
  rw [free] at held
  cases held

theorem Locked.frame {before after : World ι} (locked : Locked before) (readers : after.readers = before.readers)
    (lock : after.lock = before.lock) (writers : after.writers = before.writers)
    (walker : walkerLocks after.walker = walkerLocks before.walker)
    (client : clientLocks after.client = clientLocks before.client)
    (fresh : after.client = .fresh → after.walker = none) : Locked after where
  readers := by rw [readers, walker, client, locked.readers]
  owner i := by rw [writers, lock, locked.owner]
  exclusive i := by rw [writers, readers]; exact locked.exclusive i
  fresh := fresh

theorem Locked.walkerStep {before after : World ι} (locked : Locked before) (step : WalkerStep opening before after) :
    Locked after := by
  have started : ∀ {walker}, before.walker = some walker → before.client ≠ .fresh := by
    intro walker found fresh
    rw [locked.fresh fresh] at found
    cases found
  cases step with
  | skip walking | abort walking | offer walking | finish walking | send walking | cancel walking | close walking =>
    exact locked.frame rfl rfl rfl (by simp [walking, walkerLocks]) rfl fun fresh => absurd fresh (started walking)
  | runlock unlocking =>
    have held := locked.readers
    simp only [unlocking, walkerLocks] at held
    refine ⟨?_, locked.owner, ?_, fun fresh => absurd fresh (started unlocking)⟩
    · simp only [walkerLocks]
      omega
    · intro i granted
      have none := locked.exclusive i granted
      omega

theorem Locked.clientStep {before after : World ι} (locked : Locked before) (step : ClientStep opening before after) :
    Locked after := by
  have held := locked.readers
  cases step with
  | refuse found | next found | read found | close found | drained found =>
    exact locked.frame rfl rfl rfl rfl (by simp [found, clientLocks]) (fun fresh => by cases fresh)
  | drain found =>
    exact locked.frame rfl rfl rfl rfl rfl (fun fresh => by simp [found] at fresh)
  | receive found | receiveClosed found =>
    refine locked.frame rfl rfl rfl rfl ?_ (fun fresh => by cases fresh)
    rcases found with found | found <;> simp [found, clientLocks]
  | construct fresh bounds free =>
    have absent := locked.fresh fresh
    simp only [fresh, absent, walkerLocks, clientLocks] at held
    refine ⟨?_, locked.owner, fun i granted => absurd granted (locked.ungranted free i), fun fresh => by cases fresh⟩
    simp only [walkerLocks, clientLocks]
    omega
  | rlock reading free =>
    simp only [reading, clientLocks] at held
    refine ⟨?_, locked.owner, fun i granted => absurd granted (locked.ungranted free i), fun fresh => by cases fresh⟩
    simp only [clientLocks]
    omega
  | runlock holding =>
    simp only [holding, clientLocks] at held
    refine ⟨?_, locked.owner, ?_, fun fresh => by cases fresh⟩
    · simp only [clientLocks]
      omega
    · intro i granted
      have none := locked.exclusive i granted
      omega

section Writers
variable [DecidableEq ι]

theorem Locked.moveWriter {world : World ι} (locked : Locked world) (i : ι) (writer : Writer) (tree : Store)
    (lock : Option ι) (own : Writer.engaged writer = true ↔ lock = some i)
    (others : ∀ j, j ≠ i → (world.lock = some j ↔ lock = some j))
    (exclusive : Writer.granted writer = true → world.readers = 0) :
    Locked { world.setWriter i writer with tree := tree, lock := lock } where
  readers := locked.readers
  owner j := by
    by_cases same : j = i
    · subst same
      simpa [World.setWriter] using own
    · simpa [World.setWriter, same] using (locked.owner j).trans (others j same)
  exclusive j := by
    by_cases same : j = i
    · subst same
      simpa [World.setWriter] using exclusive
    · simpa [World.setWriter, same] using locked.exclusive j
  fresh := locked.fresh

theorem Locked.writerStep {before after : World ι} {i : ι} (locked : Locked before) (step : WriterStep i before after) :
    Locked after := by
  have owner := locked.owner i
  have granted := locked.exclusive i
  cases step with
  | refuse idle =>
    rw [idle] at owner
    exact locked.moveWriter i _ _ _ owner (fun _ _ => Iff.rfl) (fun impossible => by cases impossible)
  | lock idle accepted free =>
    refine locked.moveWriter i _ _ _ (by simp [Writer.engaged]) ?_ (fun impossible => by cases impossible)
    intro j different
    simp [free, Ne.symm different]
  | grant locking unread =>
    rw [locking] at owner
    exact locked.moveWriter i _ _ _ owner (fun _ _ => Iff.rfl) (fun _ => unread)
  | apply writing =>
    rw [writing] at owner granted
    exact locked.moveWriter i _ _ _ owner (fun _ _ => Iff.rfl) granted
  | unlock writing =>
    rw [writing] at owner
    have held := owner.mp rfl
    refine locked.moveWriter i _ _ _ (by simp [Writer.engaged]) ?_ (fun impossible => by cases impossible)
    intro j different
    simp [held, Ne.symm different]

theorem Locked.step {before after : World ι} (locked : Locked before) (step : Step opening before after) :
    Locked after := by
  cases step with
  | walker step => exact locked.walkerStep step
  | client step => exact locked.clientStep step
  | writer i step => exact locked.writerStep step

theorem Locked.steps {before after : World ι} (locked : Locked before) (steps : Steps opening before after) :
    Locked after :=
  steps_kept (fun step locked => locked.step step) steps locked

end Writers

/-- After the constructor has taken the read lock on `snapshot`. -/
structure Snapshot (opening : Opening) (snapshot : Store) (world : World ι) : Prop where
  opened : world.client ≠ .fresh
  unchanged : walkerLocks world.walker = 1 → world.tree = snapshot
  started : world.walker ≠ none
  shut : world.closed = true ↔ world.walker = some .unlocking ∨ world.walker = some .done
  closing : world.cancelled = true ↔ world.client = .draining ∨ world.client = .closed
  obtained : world.obtained <+: opening.scan snapshot
  accounted : world.cancelled = false →
    world.obtained ++ (world.buffer ++ upcoming opening snapshot world.walker) = opening.scan snapshot
  invalid : world.item = none → world.client ≠ .priming → world.cancelled = false →
    world.buffer = [] ∧ world.closed = true
  current : ∀ entry, world.item = some entry → world.obtained.getLast? = some entry

namespace Snapshot
variable {snapshot : Store} {before after : World ι}

private theorem moveWalker (kept : Snapshot opening snapshot before) {walker : Walker} {buffer : List Entry}
    (live : walkerLocks before.walker = 1) (still : before.closed = false)
    (now : walker ≠ .unlocking ∧ walker ≠ .done)
    (same : before.cancelled = false →
      buffer ++ upcoming opening snapshot (some walker) = before.buffer ++ upcoming opening snapshot before.walker) :
    Snapshot opening snapshot { before with walker := some walker, buffer := buffer } where
  opened := kept.opened
  unchanged _ := kept.unchanged live
  started := by simp
  shut := by simp [still, now]
  closing := kept.closing
  obtained := kept.obtained
  accounted running := by simpa only [same running] using kept.accounted running
  invalid none primed running := by
    have gone := (kept.invalid none primed running).2
    rw [still] at gone
    cases gone
  current := kept.current

theorem walkerStep (kept : Snapshot opening snapshot before) (step : WalkerStep opening before after) :
    Snapshot opening snapshot after := by
  have still : before.walker ≠ some .unlocking → before.walker ≠ some .done → before.closed = false := by
    intro first second
    rw [← Bool.not_eq_true, kept.shut]
    simp [first, second]
  cases step with
  | skip walking next verdict =>
    have live : walkerLocks before.walker = 1 := by simp [walking, walkerLocks]
    refine kept.moveWalker live (still (by simp [walking]) (by simp [walking])) (by simp) ?_
    rw [kept.unchanged live] at next
    simp [walking, upcoming, next, rest_cons next, Visitor.offered, verdict]
  | abort walking next verdict =>
    have live : walkerLocks before.walker = 1 := by simp [walking, walkerLocks]
    refine kept.moveWalker live (still (by simp [walking]) (by simp [walking])) (by simp) ?_
    rw [kept.unchanged live] at next
    simp [walking, upcoming, next, Visitor.offered, verdict]
  | offer walking next verdict =>
    have live : walkerLocks before.walker = 1 := by simp [walking, walkerLocks]
    refine kept.moveWalker live (still (by simp [walking]) (by simp [walking])) (by simp) ?_
    rw [kept.unchanged live] at next
    simp [walking, upcoming, next, rest_cons next, Visitor.offered, verdict]
  | finish walking next =>
    have live : walkerLocks before.walker = 1 := by simp [walking, walkerLocks]
    refine kept.moveWalker live (still (by simp [walking]) (by simp [walking])) (by simp) ?_
    rw [kept.unchanged live] at next
    simp [walking, upcoming, next, Visitor.offered]
  | send offering room =>
    have live : walkerLocks before.walker = 1 := by simp [offering, walkerLocks]
    refine kept.moveWalker live (still (by simp [offering]) (by simp [offering])) (by simp) ?_
    simp [offering, upcoming]
  | cancel offering done =>
    have live : walkerLocks before.walker = 1 := by simp [offering, walkerLocks]
    refine kept.moveWalker live (still (by simp [offering]) (by simp [offering])) (by simp) ?_
    simp [done]
  | close closing =>
    have live : walkerLocks before.walker = 1 := by simp [closing, walkerLocks]
    exact { kept with
      unchanged := fun _ => kept.unchanged live
      started := by simp
      shut := by simp
      accounted := fun running => by simpa [closing, upcoming] using kept.accounted running
      invalid := fun none primed running => ⟨(kept.invalid none primed running).1, rfl⟩ }
  | runlock unlocking =>
    exact { kept with
      unchanged := fun gone => by cases gone
      started := by simp
      shut := by simp [kept.shut, unlocking]
      accounted := fun running => by simpa [unlocking, upcoming] using kept.accounted running }

private theorem moveClient (kept : Snapshot opening snapshot before) {client : Client} {readers : Nat}
    (going : before.cancelled = false) (primed : before.client ≠ .priming)
    (now : client ≠ .fresh ∧ client ≠ .draining ∧ client ≠ .closed) :
    Snapshot opening snapshot { before with client := client, readers := readers } :=
  { kept with
    opened := now.1
    closing := by simp [going, now]
    invalid := fun none _ => kept.invalid none primed }

theorem clientStep (kept : Snapshot opening snapshot before) (step : ClientStep opening before after) :
    Snapshot opening snapshot after := by
  have running : before.client ≠ .draining → before.client ≠ .closed → before.cancelled = false := by
    intro first second
    rw [← Bool.not_eq_true, kept.closing]
    simp [first, second]
  cases step with
  | refuse fresh | construct fresh => exact absurd fresh kept.opened
  | next found | read found | rlock found | runlock found =>
    exact kept.moveClient (running (by simp [found]) (by simp [found])) (by simp [found]) (by simp)
  | receive waiting arrived =>
    have going : before.cancelled = false := by
      rcases waiting with found | found <;> exact running (by simp [found]) (by simp [found])
    have whole := kept.accounted going
    rw [arrived] at whole
    exact { kept with
      opened := by simp
      closing := by simp [going]
      obtained := ⟨_, by simpa using whole⟩
      accounted := fun _ => by simpa using whole
      invalid := fun none => by cases none
      current := fun entry same => by simpa using same }
  | receiveClosed waiting empty closed =>
    have going : before.cancelled = false := by
      rcases waiting with found | found <;> exact running (by simp [found]) (by simp [found])
    exact { kept with
      opened := by simp
      closing := by simp [going]
      invalid := fun _ _ _ => ⟨empty, closed⟩
      current := fun entry none => by cases none }
  | close idle =>
    exact { kept with
      opened := by simp
      closing := by simp
      accounted := fun impossible => by cases impossible
      invalid := fun _ _ impossible => by cases impossible }
  | drain draining =>
    have stopped := kept.closing.mpr (.inl draining)
    exact { kept with
      accounted := fun going => by simp [stopped] at going
      invalid := fun _ _ going => by simp [stopped] at going }
  | drained draining =>
    have stopped := kept.closing.mpr (.inl draining)
    exact { kept with
      opened := by simp
      closing := by simp [stopped]
      accounted := fun going => by simp [stopped] at going
      invalid := fun _ _ going => by simp [stopped] at going
      current := fun entry none => by cases none }

/-- Only the holder of the write lock changes the tree, and then the goroutine is
past its last look at it. -/
theorem writerStep [DecidableEq ι] (kept : Snapshot opening snapshot before) (locked : Locked before) {i : ι}
    (step : WriterStep i before after) : Snapshot opening snapshot after := by
  cases step with
  | refuse idle | lock idle | grant idle | unlock idle => exact { kept with }
  | apply writing =>
    have unread := locked.exclusive i (by simp [writing, Writer.granted])
    have held := locked.readers
    exact { kept with unchanged := fun (live : walkerLocks before.walker = 1) => by omega }

theorem step [DecidableEq ι] (kept : Snapshot opening snapshot before) (locked : Locked before)
    (step : Step opening before after) : Snapshot opening snapshot after := by
  cases step with
  | walker step => exact kept.walkerStep step
  | client step => exact kept.clientStep step
  | writer i step => exact kept.writerStep locked step

theorem steps [DecidableEq ι] (kept : Snapshot opening snapshot before) (locked : Locked before)
    (steps : Steps opening before after) : Snapshot opening snapshot after := by
  induction steps with
  | refl => exact kept
  | tail earlier step ih => exact ih.step (locked.steps earlier) step

end Snapshot

structure Unopened (world : World ι) : Prop where
  walker : world.walker = none
  buffer : world.buffer = []
  closed : world.closed = false
  cancelled : world.cancelled = false
  obtained : world.obtained = []
  item : world.item = none
  client : world.client = .fresh ∨ world.client = .closed

theorem initial_unopened (tree : Store) (programs : ι → List WriterCall) : Unopened (World.initial tree programs) :=
  ⟨rfl, rfl, rfl, rfl, rfl, rfl, .inl rfl⟩

theorem scan_offered (opening : Opening) (tree : Store) :
    upcoming opening tree (some (.walking none opening.visitor)) = opening.scan tree := by
  simp only [upcoming, rest_none]
  exact offered_traversalOf tree opening.start opening.stop opening.reverse

section Runs
variable [DecidableEq ι] {before after : World ι}

theorem Unopened.step (unopened : Unopened before) (step : Step opening before after) :
    Unopened after ∨ checkBounds opening.start opening.stop = .ok () ∧ before.lock = none ∧
      Snapshot opening before.tree after := by
  obtain ⟨walker, buffer, closed, cancelled, obtained, item, client⟩ := unopened
  cases step with
  | walker step => cases step <;> simp_all
  | writer i step => cases step <;> exact .inl ⟨walker, buffer, closed, cancelled, obtained, item, client⟩
  | client step =>
    cases step with
    | refuse => exact .inl ⟨walker, buffer, closed, cancelled, obtained, item, .inr rfl⟩
    | construct fresh bounds free =>
      refine .inr ⟨bounds, free, ⟨by simp, fun _ => rfl, by simp, by simp [closed], by simp [cancelled], ?_, ?_, ?_,
        by simp [item]⟩⟩
      · simp [obtained]
      · intro _
        simpa only [obtained, buffer, List.nil_append] using scan_offered opening before.tree
      · intro _ primed
        exact absurd rfl primed
    | next found | read found | rlock found | runlock found | close found | drain found | drained found => simp [found] at client
    | receive found | receiveClosed found => rcases found with found | found <;> simp [found] at client

/-- Every state a run reaches is before the iterator's constructor has the lock, or
carries the snapshot taken there. -/
theorem reachable_stage {tree : Store} {programs : ι → List WriterCall}
    (reached : Steps opening (World.initial tree programs) after) :
    Unopened after ∨ ∃ snapshot, Snapshot opening snapshot after := by
  induction reached with
  | refl => exact .inl (initial_unopened tree programs)
  | tail earlier step ih =>
    rcases ih with unopened | ⟨snapshot, kept⟩
    · rcases unopened.step step with still | ⟨_, _, opened⟩
      · exact .inl still
      · exact .inr ⟨_, opened⟩
    · exact .inr ⟨snapshot, kept.step ((initial_locked tree programs).steps earlier) step⟩

/-- Whatever the goroutines do and in whatever order, the client obtains the
entries of the domain as they were when the constructor took the read lock, in
order, the current item being the last of them; all of them once the iterator is
invalid and was not closed. No write was half done at that moment. -/
theorem memDB_iterator_snapshot (opening : Opening) (tree : Store) (programs : ι → List WriterCall)
    {before opened now : World ι} (reached : Steps opening (World.initial tree programs) before)
    (constructs : Step opening before opened) (fresh : before.client = .fresh) (primed : opened.client = .priming)
    (later : Steps opening opened now) :
    (∀ i ops calls, before.writers i ≠ .writing ops calls) ∧
      now.obtained <+: opening.scan before.tree ∧
      (∀ entry, now.item = some entry → now.obtained.getLast? = some entry) ∧
      (now.item = none → now.client ≠ .priming → now.cancelled = false → now.obtained = opening.scan before.tree) := by
  have locked := (initial_locked tree programs).steps reached
  have unopened : Unopened before := (reachable_stage reached).resolve_right fun ⟨_, kept⟩ => kept.opened fresh
  rcases unopened.step constructs with still | ⟨_, free, start⟩
  · rcases still.client with found | found <;> simp [primed] at found
  have kept := start.steps (locked.step constructs) later
  refine ⟨?_, kept.obtained, kept.current, ?_⟩
  · intro i ops calls writing
    exact locked.ungranted free i (by simp [writing, Writer.granted])
  · intro none beyond running
    obtain ⟨empty, closed⟩ := kept.invalid none beyond running
    have whole := kept.accounted running
    rcases kept.shut.mp closed with found | found <;> simpa [empty, found, upcoming] using whole

end Runs

/-- The channel still holds the only entry when another goroutine deletes it. -/
theorem memDB_iterator_snapshot_deleted :
    let opening : Opening := ⟨none, none, false⟩
    let tree : Store := SortedMap.empty.insert [1] [2]
    let before := World.initial tree fun _ : Unit => [.delete (some [1])]
    ∃ opened now : World Unit, Step opening before opened ∧ opened.client = .priming ∧ Steps opening opened now ∧
      now.tree = SortedMap.empty ∧ now.item = none ∧ now.obtained = opening.scan before.tree := by
  intro opening tree before
  have first : opening.traversal.rest tree none = [([1], [2])] := by decide
  have last : opening.traversal.rest tree (some [1]) = [] := by decide
  let opened : World Unit := ⟨tree, 1, none, fun _ => .idle [.delete (some [1])], some (.walking none ⟨none, none⟩),
    [], false, false, .priming, none, []⟩
  have constructs : Step opening before opened := .client (.construct rfl rfl rfl)
  have run : Steps opening opened opened := .refl
  have run := run.tail (.walker (.offer rfl first rfl))
  have run := run.tail (.walker (.send rfl (by decide)))
  have run := run.tail (.walker (.finish rfl last))
  have run := run.tail (.walker (.close rfl))
  have run := run.tail (.walker (.runlock rfl))
  have run := run.tail (.writer () (.lock rfl rfl rfl))
  have run := run.tail (.writer () (.grant rfl rfl))
  have run := run.tail (.writer () (.apply rfl))
  have run := run.tail (.client (.receive (.inl rfl) rfl))
  have run := run.tail (.client (.next rfl rfl))
  have run := run.tail (.client (.receiveClosed (.inr rfl) rfl rfl))
  refine ⟨opened, _, constructs, rfl, run, ?_, rfl, ?_⟩
  · decide
  · exact (memDB_iterator_snapshot opening tree _ .refl constructs rfl rfl run).2.2.2 rfl (by simp) rfl

end TmDb.Proofs
