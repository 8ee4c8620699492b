import Mathlib.Logic.Relation
import TmDb.MemDB

/-! memdb_iterator.go with everything that runs beside it: the traversal goroutine
with its channel, the client that reads the iterator and the database, and any
number of writers, all sharing the tree and its RWMutex. Each step is one action
of one goroutine, between two points where another one may run. -/

namespace TmDb
open Lib

namespace Traversal

/-- Whether a key comes after the last one visited. -/
def beyond (traversal : Traversal) (last : Option Bytes) (key : Bytes) : Bool :=
  match last with
  | none => true
  | some last => if traversal.reverse then key < last else last < key

/-- What a traversal that has reached `last` still has to visit, in the tree as it
is now. -/
def rest (traversal : Traversal) (tree : Store) (last : Option Bytes) : List Entry :=
  (traversal.items tree).filter fun entry => traversal.beyond last entry.1

end Traversal

/-- The size of the channel between the goroutine and the iterator. -/
def chBufferSize : Nat := 64

/-- The arguments of the iterator's constructor. -/
structure Opening where
  start : Slice
  stop : Slice
  reverse : Bool
deriving DecidableEq

namespace Opening

def traversal (opening : Opening) : Traversal := (traversalOf opening.start opening.stop opening.reverse).1

def visitor (opening : Opening) : Visitor := (traversalOf opening.start opening.stop opening.reverse).2

/-- The entries the iterator is to give, in order. -/
def scan (opening : Opening) (tree : Store) : List Entry :=
  Store.scan tree opening.start opening.stop opening.reverse

end Opening

/-- The traversal goroutine. -/
inductive Walker where
  /-- In the B-tree, about to be given the next item after `last`. -/
  | walking (last : Option Bytes) (visitor : Visitor)
  /-- In the visitor's select, between cancellation and the send. -/
  | offering (entry : Entry) (visitor : Visitor)
  /-- The traversal has returned; the channel is still open. -/
  | closing
  /-- The channel is closed; the deferred RUnlock is still to run. -/
  | unlocking
  | done

/-- The goroutine that uses the iterator. -/
inductive Client where
  /-- About to call Iterator or ReverseIterator. -/
  | fresh
  /-- In the constructor, receiving the first item. -/
  | priming
  /-- Between calls. -/
  | idle
  /-- In Next, receiving. -/
  | receiving
  /-- In Get or Has, before RLock. -/
  | reading
  /-- In Get or Has, holding the read lock. -/
  | holding
  /-- In Close, emptying the channel. -/
  | draining
  | closed
deriving DecidableEq

/-- A call of another goroutine that may write. -/
inductive WriterCall where
  | set (key value : Slice)
  | delete (key : Slice)
  | write (batch : MemBatch)

/-- The operations a call makes under the write lock; `none` when it is refused
before it reaches the lock. -/
def WriterCall.operations : WriterCall → Option (List Operation)
  | .set key value => match checkPair key value with
    | .error _ => none
    | .ok (key, value) => some [⟨.set, key, some value⟩]
  | .delete key => match checkKey key with
    | .error _ => none
    | .ok key => some [⟨.delete, key, none⟩]
  | .write batch => batch

/-- A writing goroutine, with the calls it has still to make. -/
inductive Writer where
  | idle (calls : List WriterCall)
  /-- Lock has been called and is pending. -/
  | locking (ops : List Operation) (calls : List WriterCall)
  /-- Lock has been granted; `ops` are not applied yet. -/
  | writing (ops : List Operation) (calls : List WriterCall)

/-- What the goroutines share, and where each of them is. `lock` is the goroutine
whose Lock is pending or granted: from its call to its Unlock no RLock succeeds.
`obtained` records every item the client has been given. -/
structure World (ι : Type) where
  tree : Store
  readers : Nat
  lock : Option ι
  writers : ι → Writer
  walker : Option Walker
  buffer : List Entry
  closed : Bool
  cancelled : Bool
  client : Client
  item : Option Entry
  obtained : List Entry

variable {ι : Type}

def World.initial (tree : Store) (programs : ι → List WriterCall) : World ι where
  tree := tree
  readers := 0
  lock := none
  writers i := .idle (programs i)
  walker := none
  buffer := []
  closed := false
  cancelled := false
  client := .fresh
  item := none
  obtained := []

variable (opening : Opening)

inductive WalkerStep : World ι → World ι → Prop where
  | skip {world last visitor entry more after} (walking : world.walker = some (.walking last visitor))
      (next : opening.traversal.rest world.tree last = entry :: more) (verdict : visitor.judge entry.1 = (.skip, after)) :
      WalkerStep world { world with walker := some (.walking (some entry.1) after) }
  | abort {world last visitor entry more after} (walking : world.walker = some (.walking last visitor))
      (next : opening.traversal.rest world.tree last = entry :: more) (verdict : visitor.judge entry.1 = (.abort, after)) :
      WalkerStep world { world with walker := some .closing }
  | offer {world last visitor entry more after} (walking : world.walker = some (.walking last visitor))
      (next : opening.traversal.rest world.tree last = entry :: more) (verdict : visitor.judge entry.1 = (.offer, after)) :
      WalkerStep world { world with walker := some (.offering entry after) }
  | finish {world last visitor} (walking : world.walker = some (.walking last visitor))
      (next : opening.traversal.rest world.tree last = []) :
      WalkerStep world { world with walker := some .closing }
  | send {world entry visitor} (offering : world.walker = some (.offering entry visitor))
      (room : world.buffer.length < chBufferSize) :
      WalkerStep world
        { world with walker := some (.walking (some entry.1) visitor), buffer := world.buffer ++ [entry] }
  | cancel {world entry visitor} (offering : world.walker = some (.offering entry visitor))
      (done : world.cancelled = true) :
      WalkerStep world { world with walker := some .closing }
  | close {world} (closing : world.walker = some .closing) :
      WalkerStep world { world with walker := some .unlocking, closed := true }
  | runlock {world} (unlocking : world.walker = some .unlocking) :
      WalkerStep world { world with walker := some .done, readers := world.readers - 1 }

inductive ClientStep : World ι → World ι → Prop where
  /-- Iterator and ReverseIterator refuse an empty bound; there is nothing to close. -/
  | refuse {world err} (fresh : world.client = .fresh) (bounds : checkBounds opening.start opening.stop = .error err) :
      ClientStep world { world with client := .closed }
  /-- The constructor takes the read lock that the goroutine it starts will release. -/
  | construct {world} (fresh : world.client = .fresh) (bounds : checkBounds opening.start opening.stop = .ok ())
      (free : world.lock = none) :
      ClientStep world { world with
        readers := world.readers + 1, walker := some (.walking none opening.visitor), client := .priming }
  | next {world entry} (idle : world.client = .idle) (valid : world.item = some entry) :
      ClientStep world { world with client := .receiving }
  | receive {world entry rest} (waiting : world.client = .priming ∨ world.client = .receiving)
      (arrived : world.buffer = entry :: rest) :
      ClientStep world { world with
        buffer := rest, item := some entry, obtained := world.obtained ++ [entry], client := .idle }
  | receiveClosed {world} (waiting : world.client = .priming ∨ world.client = .receiving)
      (empty : world.buffer = []) (closed : world.closed = true) :
      ClientStep world { world with item := none, client := .idle }
  | read {world} (idle : world.client = .idle) : ClientStep world { world with client := .reading }
  | rlock {world} (reading : world.client = .reading) (free : world.lock = none) :
      ClientStep world { world with readers := world.readers + 1, client := .holding }
  | runlock {world} (holding : world.client = .holding) :
      ClientStep world { world with readers := world.readers - 1, client := .idle }
  | close {world} (idle : world.client = .idle) :
      ClientStep world { world with cancelled := true, client := .draining }
  | drain {world entry rest} (draining : world.client = .draining) (arrived : world.buffer = entry :: rest) :
      ClientStep world { world with buffer := rest }
  | drained {world} (draining : world.client = .draining) (empty : world.buffer = [])
      (closed : world.closed = true) :
      ClientStep world { world with item := none, client := .closed }

variable [DecidableEq ι]

def World.setWriter (world : World ι) (i : ι) (writer : Writer) : World ι :=
  { world with writers := Function.update world.writers i writer }

inductive WriterStep (i : ι) : World ι → World ι → Prop where
  | refuse {world call calls} (idle : world.writers i = .idle (call :: calls)) (refused : call.operations = none) :
      WriterStep i world (world.setWriter i (.idle calls))
  | lock {world call calls ops} (idle : world.writers i = .idle (call :: calls)) (accepted : call.operations = some ops)
      (free : world.lock = none) :
      WriterStep i world { world.setWriter i (.locking ops calls) with lock := some i }
  | grant {world ops calls} (locking : world.writers i = .locking ops calls) (unread : world.readers = 0) :
      WriterStep i world (world.setWriter i (.writing ops calls))
  | apply {world op ops calls} (writing : world.writers i = .writing (op :: ops) calls) :
      WriterStep i world { world.setWriter i (.writing ops calls) with tree := MemBatch.applyOp world.tree op }
  | unlock {world calls} (writing : world.writers i = .writing [] calls) :
      WriterStep i world { world.setWriter i (.idle calls) with lock := none }

inductive Step (before after : World ι) : Prop where
  | walker (step : WalkerStep opening before after)
  | client (step : ClientStep opening before after)
  | writer (i : ι) (step : WriterStep i before after)

abbrev Steps : World ι → World ι → Prop := Relation.ReflTransGen (Step opening)

/-- Steps with a client that may call Close again after it has returned. -/
inductive LateStep (before after : World ι) : Prop where
  | step (step : Step opening before after)
  | close (opened : before.walker ≠ none) (closed : before.client = .closed)
      (again : after = { before with cancelled := true, client := .draining })

end TmDb
