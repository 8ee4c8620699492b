import Mathlib.Algebra.Order.BigOperators.Group.Finset
import Mathlib.Order.WellFounded
import TmDb.Lib.Linear

/-! A state guarded by a readers-writer lock. A call looks at the state under the read
lock, or makes its updates one by one under the write lock; a pending writer keeps
new readers out. Whatever the interleaving, such an object is linearizable and its
calls come to an end. -/

namespace TmDb.Lib

/-- What a call does with the guarded state. -/
inductive Critical (σ ρ : Type*) where
  | refuse (answer : ρ)
  | read (answer : σ → ρ)
  | write (updates : List (σ → σ)) (answer : ρ)

namespace Critical
variable {σ ρ : Type*}

def alone (state : σ) : Critical σ ρ → ρ × σ
  | .refuse answer => (answer, state)
  | .read answer => (answer state, state)
  | .write updates answer => (answer, updates.foldl (fun state update => update state) state)

end Critical

inductive Thread (σ κ ρ : Type*) where
  | idle
  /-- In the method, before any lock. -/
  | entered (call : κ)
  /-- The read lock is held. -/
  | reading (call : κ)
  /-- The state has been read; RUnlock is still to run. -/
  | releasing (answer : ρ)
  /-- Lock has been called and is pending. -/
  | locking (call : κ)
  /-- Lock has been granted; `updates` are not made yet. -/
  | writing (updates : List (σ → σ)) (answer : ρ)
  | returning (answer : ρ)

namespace Thread
variable {σ κ ρ : Type*}

def reads : Thread σ κ ρ → Bool
  | .reading _ | .releasing _ => true
  | _ => false

def locks : Thread σ κ ρ → Bool
  | .locking _ | .writing _ _ => true
  | _ => false

def remaining : Thread σ κ ρ → List (σ → σ)
  | .writing updates _ => updates
  | _ => []

end Thread

/-- `lock` is the thread whose Lock is pending or granted: from its call to its Unlock no
RLock succeeds, and no other Lock. -/
structure Guarded (σ ι κ ρ : Type*) where
  state : σ
  readers : Nat
  lock : Option ι
  threads : ι → Thread σ κ ρ

namespace Guarded
variable {σ ι κ ρ : Type*}

def start (state : σ) : Guarded σ ι κ ρ := ⟨state, 0, none, fun _ => .idle⟩

variable [DecidableEq ι]

def move (world : Guarded σ ι κ ρ) (who : ι) (thread : Thread σ κ ρ) : Guarded σ ι κ ρ :=
  { world with threads := Function.update world.threads who thread }

inductive Step (critical : κ → Critical σ ρ) : System (Guarded σ ι κ ρ) (Observation ι κ ρ) where
  | call {world} (who : ι) (call : κ) (idle : world.threads who = .idle) :
      Step critical world (some (.call who call)) (world.move who (.entered call))
  | refuse {world} (who : ι) {call answer} (entered : world.threads who = .entered call)
      (refused : critical call = .refuse answer) :
      Step critical world none (world.move who (.returning answer))
  | rlock {world} (who : ι) {call answer} (entered : world.threads who = .entered call) (reads : critical call = .read answer)
      (free : world.lock = none) :
      Step critical world none ({ world with readers := world.readers + 1 }.move who (.reading call))
  | read {world} (who : ι) {call answer} (reading : world.threads who = .reading call) (reads : critical call = .read answer) :
      Step critical world none (world.move who (.releasing (answer world.state)))
  | runlock {world} (who : ι) {answer} (releasing : world.threads who = .releasing answer) :
      Step critical world none ({ world with readers := world.readers - 1 }.move who (.returning answer))
  | lock {world} (who : ι) {call updates answer} (entered : world.threads who = .entered call)
      (writes : critical call = .write updates answer) (free : world.lock = none) :
      Step critical world none ({ world with lock := some who }.move who (.locking call))
  | grant {world} (who : ι) {call updates answer} (locking : world.threads who = .locking call)
      (writes : critical call = .write updates answer) (unread : world.readers = 0) :
      Step critical world none (world.move who (.writing updates answer))
  | update {world} (who : ι) {update updates answer} (writing : world.threads who = .writing (update :: updates) answer) :
      Step critical world none ({ world with state := update world.state }.move who (.writing updates answer))
  | unlock {world} (who : ι) {answer} (writing : world.threads who = .writing [] answer) :
      Step critical world none ({ world with lock := none }.move who (.returning answer))
  | reply {world} (who : ι) {answer} (returning : world.threads who = .returning answer) :
      Step critical world (some (.reply who answer)) (world.move who .idle)

def Fits (critical : κ → Critical σ ρ) : Thread σ κ ρ → Prop
  | .reading call => ∃ answer, critical call = .read answer
  | .locking call => ∃ updates answer, critical call = .write updates answer
  | _ => True

/-- What the lock keeps apart. -/
structure Sound (critical : κ → Critical σ ρ) (world : Guarded σ ι κ ρ) : Prop where
  holders : ∃ holders : Finset ι, (∀ who, who ∈ holders ↔ (world.threads who).reads = true) ∧ holders.card = world.readers
  owner : ∀ who, (world.threads who).locks = true ↔ world.lock = some who
  alone : ∀ {who updates answer}, world.threads who = .writing updates answer → world.readers = 0
  fits : ∀ who, Fits critical (world.threads who)

namespace Sound
variable {critical : κ → Critical σ ρ} {world : Guarded σ ι κ ρ} {who : ι}

private theorem change (sound : Sound critical world) (state : σ) {readers : Nat} {lock : Option ι} {thread : Thread σ κ ρ}
    (holders : ∃ holders : Finset ι, (∀ other, other ≠ who → (other ∈ holders ↔ (world.threads other).reads = true)) ∧
      (who ∈ holders ↔ thread.reads = true) ∧ holders.card = readers)
    (owner : thread.locks = true ↔ lock = some who)
    (owners : ∀ other, other ≠ who → ((world.threads other).locks = true ↔ lock = some other))
    (alone : ∀ {updates answer}, thread = .writing updates answer → readers = 0)
    (others : ∀ {other updates answer}, world.threads other = .writing updates answer → readers = 0)
    (fits : Fits critical thread) :
    Sound critical ⟨state, readers, lock, Function.update world.threads who thread⟩ := by
  obtain ⟨holders, outside, inside, count⟩ := holders
  refine ⟨⟨holders, fun other => ?_, count⟩, fun other => ?_, @fun other updates answer writing => ?_, fun other => ?_⟩
  all_goals by_cases same : other = who
  · subst same
    simpa using inside
  · simpa [same] using outside other same
  · subst same
    simpa using owner
  · simpa [same] using owners other same
  · subst same
    exact alone (by simpa using writing)
  · exact others (by simpa [same] using writing)
  · subst same
    simpa using fits
  · simpa [same] using sound.fits other

private theorem moved (sound : Sound critical world) (state : σ) {thread : Thread σ κ ρ}
    (reads : thread.reads = (world.threads who).reads) (locks : thread.locks = (world.threads who).locks)
    (alone : ∀ {updates answer}, thread = .writing updates answer → world.readers = 0) (fits : Fits critical thread) :
    Sound critical ⟨state, world.readers, world.lock, Function.update world.threads who thread⟩ := by
  obtain ⟨holders, members, count⟩ := sound.holders
  refine sound.change state ⟨holders, fun other _ => members other, ?_, count⟩ ?_ (fun other _ => sound.owner other)
    alone sound.alone fits
  · rw [members, reads]
  · rw [locks, sound.owner]

omit [DecidableEq ι] in
private theorem unlocked (sound : Sound critical world) (free : world.lock = none) (other : ι) :
    (world.threads other).locks = false := by
  rw [← Bool.not_eq_true, sound.owner, free]
  exact nofun

theorem step (sound : Sound critical world) {label : Option (Observation ι κ ρ)} {after : Guarded σ ι κ ρ}
    (step : Step critical world label after) : Sound critical after := by
  obtain ⟨holders, members, count⟩ := sound.holders
  cases step with
  | call _ _ found => exact sound.moved world.state (by rw [found]; rfl) (by rw [found]; rfl) nofun trivial
  | refuse _ found => exact sound.moved world.state (by rw [found]; rfl) (by rw [found]; rfl) nofun trivial
  | read _ found => exact sound.moved world.state (by rw [found]; rfl) (by rw [found]; rfl) nofun trivial
  | reply _ found => exact sound.moved world.state (by rw [found]; rfl) (by rw [found]; rfl) nofun trivial
  | grant _ found _ unread =>
    exact sound.moved world.state (by rw [found]; rfl) (by rw [found]; rfl) (fun _ => unread) trivial
  | update _ found =>
    exact sound.moved _ (by rw [found]; rfl) (by rw [found]; rfl) (fun _ => sound.alone found) trivial
  | @rlock _ who call answer entered reads free =>
    have absent : who ∉ holders := by simp [members, entered, Thread.reads]
    refine sound.change world.state ⟨insert who holders, fun other different => ?_, ?_, ?_⟩ ?_
      (fun other _ => sound.owner other) nofun (@fun other _ _ writing => ?_) ⟨answer, reads⟩
    · simp [different, members]
    · simp [Thread.reads]
    · rw [Finset.card_insert_of_notMem absent, count]
    · simp [Thread.locks, free]
    · have locks := sound.unlocked free other
      rw [writing] at locks
      cases locks
  | @runlock _ who answer releasing =>
    have present : who ∈ holders := by simp [members, releasing, Thread.reads]
    refine sound.change world.state ⟨holders.erase who, fun other different => ?_, ?_, ?_⟩ ?_
      (fun other _ => sound.owner other) nofun (fun writing => ?_) trivial
    · simp [different, members]
    · simp [Thread.reads]
    · rw [Finset.card_erase_of_mem present, count]
    · rw [← sound.owner, releasing]
      rfl
    · rw [sound.alone writing]
  | @lock _ who call updates answer entered writes free =>
    refine sound.change world.state ⟨holders, fun other _ => members other, ?_, count⟩ ?_ (fun other different => ?_) nofun
      sound.alone ⟨updates, answer, writes⟩
    · rw [members, entered]
      rfl
    · simp [Thread.locks]
    · simp [sound.unlocked free other, Ne.symm different]
  | @unlock _ who answer writing =>
    have mine : world.lock = some who := (sound.owner who).mp (by simp [writing, Thread.locks])
    refine sound.change world.state ⟨holders, fun other _ => members other, ?_, count⟩ ?_ (fun other different => ?_) nofun
      sound.alone trivial
    · rw [members, writing]
      rfl
    · simp [Thread.locks]
    · simp [sound.owner other, mine, Ne.symm different]

end Sound

omit [DecidableEq ι] in
theorem start_sound (critical : κ → Critical σ ρ) (state : σ) : Sound critical (start state : Guarded σ ι κ ρ) where
  holders := ⟨∅, by simp [start, Thread.reads], rfl⟩
  owner := by simp [start, Thread.locks]
  alone := nofun
  fits _ := trivial

/-- The state once the granted writer, if there is one, has made its updates. -/
def settled (world : Guarded σ ι κ ρ) : σ :=
  match world.lock with
  | none => world.state
  | some who => (world.threads who).remaining.foldl (fun state update => update state) world.state

omit [DecidableEq ι] in
theorem settled_free (world : Guarded σ ι κ ρ) (free : world.lock = none) : world.settled = world.state := by
  simp only [settled, free]

omit [DecidableEq ι] in
theorem settled_owned (world : Guarded σ ι κ ρ) {who : ι} (owned : world.lock = some who) :
    world.settled = (world.threads who).remaining.foldl (fun state update => update state) world.state := by
  simp only [settled, owned]

theorem settled_move (world : Guarded σ ι κ ρ) {who : ι} {thread : Thread σ κ ρ}
    (same : thread.remaining = (world.threads who).remaining) : (world.move who thread).settled = world.settled := by
  cases owner : world.lock with
  | none =>
    rw [settled_free world owner, settled_free (world.move who thread) owner]
    rfl
  | some other =>
    rw [settled_owned world owner, settled_owned (world.move who thread) owner]
    by_cases own : other = who
    · subst own
      simp [move, same]
    · simp [move, own]

omit [DecidableEq ι] in
theorem Sound.settled_read {critical : κ → Critical σ ρ} {world : Guarded σ ι κ ρ} (sound : Sound critical world) {who : ι}
    (reads : (world.threads who).reads = true) : world.settled = world.state := by
  cases owner : world.lock with
  | none => exact settled_free world owner
  | some other =>
    rw [settled_owned world owner]
    cases there : world.threads other with
    | writing updates answer =>
      obtain ⟨holders, members, count⟩ := sound.holders
      rw [sound.alone there, Finset.card_eq_zero] at count
      have member := (members who).mpr reads
      rw [count] at member
      cases member
    | idle | entered call | reading call | releasing answer | locking call | returning answer => rfl

def shown : Thread σ κ ρ → Caller κ ρ
  | .idle => .idle
  | .entered call | .reading call | .locking call => .waiting call
  | .releasing answer | .writing _ answer | .returning answer => .served answer

def sequential (critical : κ → Critical σ ρ) : Machine σ κ ρ := ⟨fun state call => (critical call).alone state⟩

/-- The atomic object that a guarded one stands for: a writer's call takes effect when
its lock is granted, a reader's when it reads. -/
structure Shows (critical : κ → Critical σ ρ) (world : Guarded σ ι κ ρ) (object : Atomic σ ι κ ρ) : Prop where
  sound : Sound critical world
  state : object.state = world.settled
  callers : ∀ who, object.callers who = shown (world.threads who)

namespace Shows
variable {critical : κ → Critical σ ρ} {world after : Guarded σ ι κ ρ} {object : Atomic σ ι κ ρ} {who : ι}
  {thread : Thread σ κ ρ}

private theorem callers_update (shows : Shows critical world object) {caller : Caller κ ρ} (same : caller = shown thread)
    (who other : ι) :
    Function.update object.callers who caller other = shown (Function.update world.threads who thread other) := by
  by_cases own : other = who
  · subst own
    simp [same]
  · simp [own, shows.callers]

private theorem quiet (shows : Shows critical world object) (sound : Sound critical after)
    (moves : after.threads = Function.update world.threads who thread) (state : after.settled = world.settled)
    (same : shown (world.threads who) = shown thread) : Shows critical after object where
  sound := sound
  state := shows.state.trans state.symm
  callers other := by
    have updated := shows.callers_update ((shows.callers who).trans same) who other
    rw [Function.update_eq_self, ← moves] at updated
    exact updated

private theorem effect (shows : Shows critical world object) (sound : Sound critical after) {call : κ}
    (waiting : shown (world.threads who) = .waiting call) (moves : after.threads = Function.update world.threads who thread)
    (served : shown thread = .served ((critical call).alone world.settled).1)
    (state : after.settled = ((critical call).alone world.settled).2) :
    ∃ next, System.Run (Atomic.Step (sequential critical)) object [] next ∧ Shows critical after next := by
  refine ⟨_, .silent .start (.effect ((shows.callers who).trans waiting)), sound, ?_, ?_⟩
  · rw [shows.state]
    exact state.symm
  · intro other
    rw [moves]
    refine shows.callers_update ?_ who other
    rw [served, shows.state]
    rfl

private theorem seen (shows : Shows critical world object) (sound : Sound critical after)
    (moves : after.threads = Function.update world.threads who thread) (state : after.settled = world.settled) :
    Shows critical after { object with callers := Function.update object.callers who (shown thread) } where
  sound := sound
  state := shows.state.trans state.symm
  callers other := by
    rw [moves]
    exact shows.callers_update rfl who other

theorem follow {label : Option (Observation ι κ ρ)} (step : Step critical world label after)
    (shows : Shows critical world object) :
    ∃ next, System.Run (Atomic.Step (sequential critical)) object label.toList next ∧ Shows critical after next := by
  have sound := shows.sound.step step
  cases step with
  | @call _ who call idle =>
    have free : object.callers who = .idle := (shows.callers who).trans (by rw [idle]; rfl)
    exact ⟨_, .seen .start (.call call free), shows.seen sound rfl (settled_move world (by rw [idle]; rfl))⟩
  | @reply _ who answer returning =>
    have served : object.callers who = .served answer := (shows.callers who).trans (by rw [returning]; rfl)
    exact ⟨_, .seen .start (.reply served), shows.seen sound rfl (settled_move world (by rw [returning]; rfl))⟩
  | @refuse _ who call answer entered refused =>
    have same : (world.move who (.returning answer)).settled = world.settled := settled_move world (by rw [entered]; rfl)
    refine shows.effect sound (by rw [entered]; rfl) rfl ?_ ?_
    · rw [refused]
      rfl
    · rw [same, refused]
      rfl
  | @read _ who call answer reading reads =>
    have same : (world.move who (.releasing (answer world.state))).settled = world.settled :=
      settled_move world (by rw [reading]; rfl)
    have now : world.settled = world.state := shows.sound.settled_read (by rw [reading]; rfl)
    refine shows.effect sound (by rw [reading]; rfl) rfl ?_ ?_
    · rw [reads, now]
      rfl
    · rw [same, reads]
      rfl
  | @grant _ who call updates answer locking writes unread =>
    have mine : world.lock = some who := (shows.sound.owner who).mp (by simp [locking, Thread.locks])
    have now : world.settled = world.state := by
      rw [settled_owned world mine, locking]
      rfl
    refine shows.effect sound (by rw [locking]; rfl) rfl ?_ ?_
    · rw [writes]
      rfl
    · rw [settled_owned (world.move who (.writing updates answer)) mine, now, writes]
      simp [move, Thread.remaining, Critical.alone]
  | @rlock _ who call answer entered reads free =>
    refine ⟨object, .start, shows.quiet sound rfl ?_ (by rw [entered]; rfl)⟩
    exact settled_move { world with readers := world.readers + 1 } (by rw [entered]; rfl)
  | @runlock _ who answer releasing =>
    refine ⟨object, .start, shows.quiet sound rfl ?_ (by rw [releasing]; rfl)⟩
    exact settled_move { world with readers := world.readers - 1 } (by rw [releasing]; rfl)
  | @lock _ who call updates answer entered writes free =>
    refine ⟨object, .start, shows.quiet sound rfl ?_ (by rw [entered]; rfl)⟩
    have owned := settled_owned (Guarded.move { world with lock := some who } who (.locking call)) rfl
    rw [settled_free world free, owned]
    simp [move, Thread.remaining]
  | @update _ who update updates answer writing =>
    have mine : world.lock = some who := (shows.sound.owner who).mp (by simp [writing, Thread.locks])
    refine ⟨object, .start, shows.quiet sound rfl ?_ (by rw [writing]; rfl)⟩
    have owned := settled_owned (Guarded.move { world with state := update world.state } who (.writing updates answer)) mine
    rw [settled_owned world mine, writing, owned]
    simp [move, Thread.remaining]
  | @unlock _ who answer writing =>
    have mine : world.lock = some who := (shows.sound.owner who).mp (by simp [writing, Thread.locks])
    refine ⟨object, .start, shows.quiet sound rfl ?_ (by rw [writing]; rfl)⟩
    have free := settled_free (Guarded.move { world with lock := none } who (.returning answer)) rfl
    rw [settled_owned world mine, writing, free]
    rfl

end Shows

section Runs
variable {critical : κ → Critical σ ρ} {state : σ} {history : List (Observation ι κ ρ)} {world : Guarded σ ι κ ρ}
  (run : System.Run (Step critical) (start state) history world)
include run

theorem atomic_run : ∃ object, Atomic.Recorded (sequential critical) state history object ∧ Shows critical world object := by
  have initial : Shows critical (start state : Guarded σ ι κ ρ) (Atomic.start state) :=
    ⟨start_sound critical state, rfl, fun _ => rfl⟩
  obtain ⟨object, atomic, shows⟩ := run.follow (fun _ _ _ _ step shows => Shows.follow step shows) initial
  exact ⟨object, .run atomic, shows⟩

theorem run_sound : Sound critical world := by
  obtain ⟨object, _, shows⟩ := atomic_run run
  exact shows.sound

/-- A guarded object is linearizable. -/
theorem linearizable : Linearizable (sequential critical) state history := by
  obtain ⟨object, recorded, _⟩ := atomic_run run
  exact ⟨object.order, recorded.toLinearization⟩

theorem answered {who : ι} (idle : world.threads who = .idle) :
    (Observation.replied who history).length = (Observation.called who history).length := by
  obtain ⟨object, recorded, shows⟩ := atomic_run run
  have caller : object.callers who = .idle := by
    rw [shows.callers, idle]
    rfl
  have calls := congrArg List.length (recorded.calls who)
  have replies := congrArg List.length (recorded.replies who)
  simp only [caller, Atomic.unserved, Atomic.undelivered, List.append_nil, List.length_map] at calls replies
  omega

end Runs

/-- A step of a call that has been made already. -/
inductive Working (critical : κ → Critical σ ρ) (before after : Guarded σ ι κ ρ) : Prop where
  | silent (step : Step critical before none after)
  | reply {who answer} (step : Step critical before (some (.reply who answer)) after)

section Progress
variable {critical : κ → Critical σ ρ} {world after : Guarded σ ι κ ρ}

private theorem Sound.reader_works (sound : Sound critical world) {who : ι} (reads : (world.threads who).reads = true) :
    ∃ after, Working critical world after := by
  have fits := sound.fits who
  cases there : world.threads who with
  | reading call =>
    rw [there] at fits
    obtain ⟨answer, found⟩ := fits
    exact ⟨_, .silent (.read who there found)⟩
  | releasing answer => exact ⟨_, .silent (.runlock who there)⟩
  | idle | entered call | locking call | writing updates answer | returning answer =>
    rw [there] at reads
    cases reads

/-- Whoever has the write lock, or waits for it, is not in the way for ever. -/
private theorem Sound.owner_works (sound : Sound critical world) {who : ι} (owned : world.lock = some who) :
    ∃ after, Working critical world after := by
  have fits := sound.fits who
  have locks := (sound.owner who).mpr owned
  cases there : world.threads who with
  | locking call =>
    rw [there] at fits
    obtain ⟨updates, answer, found⟩ := fits
    by_cases unread : world.readers = 0
    · exact ⟨_, .silent (.grant who there found unread)⟩
    · obtain ⟨holders, members, count⟩ := sound.holders
      rw [← count, Finset.card_eq_zero] at unread
      obtain ⟨other, member⟩ := Finset.nonempty_iff_ne_empty.mpr unread
      exact sound.reader_works ((members other).mp member)
  | writing updates answer =>
    cases updates with
    | nil => exact ⟨_, .silent (.unlock who there)⟩
    | cons update updates => exact ⟨_, .silent (.update who there)⟩
  | idle | entered call | reading call | releasing answer | returning answer =>
    rw [there] at locks
    cases locks

/-- As long as a call is not answered, a call can go on. -/
theorem Sound.progress (sound : Sound critical world) {who : ι} (busy : world.threads who ≠ .idle) :
    ∃ after, Working critical world after := by
  cases there : world.threads who with
  | idle => exact absurd there busy
  | reading call => exact sound.reader_works (by rw [there]; rfl)
  | releasing answer => exact sound.reader_works (by rw [there]; rfl)
  | locking call => exact sound.owner_works ((sound.owner who).mp (by rw [there]; rfl))
  | writing updates answer => exact sound.owner_works ((sound.owner who).mp (by rw [there]; rfl))
  | returning answer => exact ⟨_, .reply (.reply who there)⟩
  | entered call =>
    cases owner : world.lock with
    | some other => exact sound.owner_works owner
    | none =>
      cases kind : critical call with
      | refuse answer => exact ⟨_, .silent (.refuse who there kind)⟩
      | read answer => exact ⟨_, .silent (.rlock who there kind owner)⟩
      | write updates answer => exact ⟨_, .silent (.lock who there kind owner)⟩

def rank (critical : κ → Critical σ ρ) : Thread σ κ ρ → Nat
  | .idle => 0
  | .returning _ => 1
  | .releasing _ => 2
  | .reading _ => 3
  | .writing updates _ => updates.length + 2
  | .locking call => match critical call with
    | .write updates _ => updates.length + 3
    | _ => 3
  | .entered call => match critical call with
    | .refuse _ => 2
    | .read _ => 4
    | .write updates _ => updates.length + 4

theorem Working.falls (step : Working critical world after) :
    ∃ who thread, after.threads = Function.update world.threads who thread ∧
      rank critical thread < rank critical (world.threads who) := by
  cases step with
  | reply step =>
    cases step with
    | reply _ found => exact ⟨_, .idle, rfl, by simp [found, rank]⟩
  | silent step =>
    cases step with
    | refuse who found kind | rlock who found kind | read who found kind | lock who found kind | grant who found kind =>
      exact ⟨who, _, rfl, by simp [found, kind, rank]⟩
    | runlock who found | update who found | unlock who found => exact ⟨who, _, rfl, by simp [found, rank]⟩

theorem few_busy {state : σ} {history : List (Observation ι κ ρ)}
    (run : System.Run (Step critical) (start state) history world) :
    ∃ active : Finset ι, ∀ who, who ∉ active → world.threads who = .idle := by
  have nobody : ∃ active : Finset ι, ∀ who, who ∉ active → (start state : Guarded σ ι κ ρ).threads who = .idle :=
    ⟨∅, fun _ _ => rfl⟩
  refine @System.Run.kept _ _ _ (fun world => ∃ active : Finset ι, ∀ who, who ∉ active → world.threads who = .idle)
    (fun before label after step held => ?_) _ _ _ run nobody
  obtain ⟨active, idle⟩ := held
  have moved : ∃ who thread, after.threads = Function.update before.threads who thread := by
    cases step <;> exact ⟨_, _, rfl⟩
  obtain ⟨who, thread, moves⟩ := moved
  refine ⟨insert who active, fun other outside => ?_⟩
  rw [Finset.mem_insert, not_or] at outside
  rw [moves, Function.update_of_ne outside.1]
  exact idle other outside.2

/-- The calls of finitely many threads come to an end, unless new ones are made. -/
theorem calls_end {active : Finset ι} (worlds : Nat → Guarded σ ι κ ρ)
    (idle : ∀ who, who ∉ active → (worlds 0).threads who = .idle) :
    ∃ moment, ¬ Working critical (worlds moment) (worlds (moment + 1)) := by
  by_contra forever
  rw [not_exists] at forever
  have falls : ∀ moment, ∃ who thread,
      (worlds (moment + 1)).threads = Function.update (worlds moment).threads who thread ∧
        rank critical thread < rank critical ((worlds moment).threads who) :=
    fun moment => (not_not.mp (forever moment)).falls
  have outside : ∀ moment who, who ∉ active → (worlds moment).threads who = .idle := by
    intro moment
    induction moment with
    | zero => exact idle
    | succ moment ih =>
      intro who out
      obtain ⟨mover, thread, moves, less⟩ := falls moment
      have other : who ≠ mover := by
        rintro rfl
        rw [ih who out] at less
        exact Nat.not_lt_zero _ less
      rw [moves, Function.update_of_ne other]
      exact ih who out
  obtain ⟨moment, stays⟩ := @WellFounded.not_rel_apply_succ Nat (· < ·) _ fun moment =>
    ∑ who ∈ active, rank critical ((worlds moment).threads who)
  obtain ⟨mover, thread, moves, less⟩ := falls moment
  have member : mover ∈ active := by
    by_contra out
    rw [outside moment mover out] at less
    exact Nat.not_lt_zero _ less
  refine stays (Finset.sum_lt_sum (fun who _ => ?_) ⟨mover, member, ?_⟩)
  · by_cases same : who = mover
    · subst same
      rw [moves, Function.update_self]
      exact less.le
    · rw [moves, Function.update_of_ne same]
  · rw [moves, Function.update_self]
    exact less

end Progress

end Guarded
end TmDb.Lib
