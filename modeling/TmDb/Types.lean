import TmDb.Lib.Bytes
import TmDb.Lib.Update

/-! The vocabulary of types.go: byte slices, errors, and the DB, Batch and
Iterator interfaces as records of functions over explicit states. A method that
panics returns `none`; it still returns a state, since a check made before the
panic may have changed a flag. -/

namespace TmDb
open Lib

/-- A Go byte slice. `none` is nil, which is not the empty slice. -/
abbrev Slice := Option Bytes

namespace Slice

def bytes (slice : Slice) : Bytes := slice.getD []

@[simp] theorem bytes_none : bytes none = [] := rfl

@[simp] theorem bytes_some (bz : Bytes) : bytes (some bz) = bz := rfl

def len (slice : Slice) : Nat := slice.bytes.length

end Slice

/-- The bytes of a Go string. -/
def goString (text : String) : Bytes := text.toUTF8.data.toList

/-- Formatting with %x. -/
def hex (bz : Bytes) : String :=
  String.ofList (bz.flatMap fun byte => [Nat.digitChar (byte.toNat / 16), Nat.digitChar (byte.toNat % 16)])

inductive Err where
  | keyEmpty
  | valueNil
  | batchClosed
  /-- BadgerDB has an error of its own for a batch that is over. -/
  | batchFlushed
  /-- An error of the storage engine under a backend. -/
  | engine (detail : String)
  | invalidKey (key pfx : Bytes)
  | unknownBackend (backend : String) (expected : List String)
  | wrapped (context : String) (cause : Err)
  /-- A handler's error as the gRPC client reports it. -/
  | rpc (description : String)
  | unavailable
  | eof
deriving DecidableEq

def Err.text : Err → String
  | .keyEmpty => "key cannot be empty"
  | .valueNil => "value cannot be nil"
  | .batchClosed => "batch has been written or closed"
  | .batchFlushed => "batch already flushed"
  | .engine detail => detail
  | .invalidKey key pfx => "received invalid key from backend: " ++ hex key ++ " (expected prefix " ++ hex pfx ++ ")"
  | .unknownBackend backend expected =>
    "unknown db_backend " ++ backend ++ ", expected one of " ++ ",".intercalate expected
  | .wrapped context cause => context ++ ": " ++ cause.text
  | .rpc description => "rpc error: code = Unknown desc = " ++ description
  | .unavailable => "rpc error: code = Unavailable desc = transport is closing"
  | .eof => "EOF"

/-- The contents of a database: every backend holds a finite, ordered map. -/
abbrev Store := SortedMap Bytes Bytes

abbrev Entry := Bytes × Bytes

/-- Every method with a key begins with this check. -/
def checkKey (key : Slice) : Except Err Bytes :=
  if key.len = 0 then .error .keyEmpty else .ok key.bytes

/-- Every Set begins with these checks, in this order. -/
def checkPair (key value : Slice) : Except Err (Bytes × Bytes) :=
  if key.len = 0 then .error .keyEmpty
  else match value with
    | none => .error .valueNil
    | some value => .ok (key.bytes, value)

theorem checkKey_cases (key : Slice) :
    checkKey key = .error .keyEmpty ∨ key.bytes ≠ [] ∧ checkKey key = .ok key.bytes := by
  unfold checkKey Slice.len
  cases key.bytes with
  | nil => exact .inl rfl
  | cons byte rest => exact .inr ⟨by simp, by simp⟩

theorem checkPair_cases (key value : Slice) :
    (∃ err, checkPair key value = .error err) ∨
      key.bytes ≠ [] ∧ ∃ content, value = some content ∧ checkPair key value = .ok (key.bytes, content) := by
  unfold checkPair Slice.len
  cases key.bytes with
  | nil => exact .inl ⟨.keyEmpty, rfl⟩
  | cons byte rest =>
    cases value with
    | none => exact .inl ⟨.valueNil, by simp⟩
    | some content => exact .inr ⟨by simp, content, rfl, by simp⟩

theorem checkKey_some {key : Bytes} (nonempty : key ≠ []) : checkKey (some key) = .ok key := by
  simp [checkKey, Slice.len, Slice.bytes, nonempty]

theorem checkPair_some {key : Bytes} (nonempty : key ≠ []) (value : Bytes) :
    checkPair (some key) (some value) = .ok (key, value) := by
  simp [checkPair, Slice.len, Slice.bytes, nonempty]

/-- An iterator bound may be nil but not empty. -/
def checkBounds (start stop : Slice) : Except Err Unit :=
  if (start.isSome ∧ start.len = 0) ∨ (stop.isSome ∧ stop.len = 0) then .error .keyEmpty else .ok ()

theorem checkBounds_ok {start stop : Slice} : checkBounds start stop = .ok () ↔ start ≠ some [] ∧ stop ≠ some [] := by
  rcases start with _ | _ | ⟨byte, start⟩ <;> rcases stop with _ | _ | ⟨other, stop⟩ <;> simp [checkBounds, Slice.len]

/-- A call that panics ends the method that made it. -/
def andThen {α β σ : Type} (result : Option α × σ) (next : α → σ → Option β × σ) : Option β × σ :=
  match result with
  | (none, state) => (none, state)
  | (some value, state) => next value state

/-- The Batch interface, over the state `σ` of the database the batch writes to
and the state `β` of the batch itself. -/
structure BatchOps (σ β : Type) where
  set : β → Slice → Slice → Except Err Unit × β
  delete : β → Slice → Except Err Unit × β
  write : σ → β → Except Err Unit × σ × β
  writeSync : σ → β → Except Err Unit × σ × β
  close : β → Except Err Unit × β

/-- The Iterator interface. `remaining` bounds the calls to Next that can still
succeed; it is not a method, and only bounds loops over the iterator. -/
structure IterOps (ι : Type) where
  domain : ι → Slice × Slice
  valid : ι → Option Bool × ι
  next : ι → Option Unit × ι
  key : ι → Option Bytes × ι
  value : ι → Option Bytes × ι
  error : ι → Option Err
  remaining : ι → Nat

/-- The loop of the Iterator documentation: the pairs it visits until the iterator
is no longer valid. -/
def IterOps.drive {ι : Type} (ops : IterOps ι) : Nat → ι → Option (List (Bytes × Bytes)) × ι
  | 0, it => (none, it)
  | bound + 1, it =>
    andThen (ops.valid it) fun ok it =>
      if !ok then (some [], it)
      else andThen (ops.key it) fun key it =>
        andThen (ops.value it) fun value it =>
          andThen (ops.next it) fun _ it =>
            andThen (ops.drive bound it) fun rest it => (some ((key, value) :: rest), it)

def IterOps.loop {ι : Type} (ops : IterOps ι) (it : ι) : Option (List (Bytes × Bytes)) × ι :=
  ops.drive (ops.remaining it + 1) it

structure DB where
  State : Type
  Batch : Type
  Iter : Type
  get : State → Slice → Except Err Slice
  has : State → Slice → Except Err Bool
  set : State → Slice → Slice → Except Err Unit × State
  setSync : State → Slice → Slice → Except Err Unit × State
  delete : State → Slice → Except Err Unit × State
  deleteSync : State → Slice → Except Err Unit × State
  iterator : State → Slice → Slice → Option (Except Err Iter)
  reverseIterator : State → Slice → Slice → Option (Except Err Iter)
  iter : IterOps Iter
  newBatch : Batch
  batch : BatchOps State Batch
  stats : State → List (Bytes × Bytes)

/-- Iterator, or ReverseIterator. -/
def opener (db : DB) (reverse : Bool) : db.State → Slice → Slice → Option (Except Err db.Iter) :=
  if reverse then db.reverseIterator else db.iterator

end TmDb
