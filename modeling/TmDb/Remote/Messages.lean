import TmDb.Types

/-! The messages of defs.proto and what proto3 does to them on the way. A bytes
field that is empty is not sent, and a bytes field that was not sent is nil on
arrival; a message field keeps whether it was set. -/

namespace TmDb
open Lib

/-- A bytes field as the other side decodes it. -/
def Slice.wire (slice : Slice) : Slice := if slice.len = 0 then none else slice

namespace Proto

structure Entity where
  key : Slice := none
  value : Slice := none
  existing : Bool := false
  start : Slice := none
  stop : Slice := none
  createdAt : Int := 0
deriving DecidableEq

def Entity.wire (entity : Entity) : Entity :=
  { entity with
    key := entity.key.wire
    value := entity.value.wire
    start := entity.start.wire
    stop := entity.stop.wire }

/-- Enumerations are open in proto3: a number without a name still arrives. -/
inductive OperationType where
  | set
  | delete
  | unnamed (number : Nat)
deriving DecidableEq

structure Operation where
  entity : Option Entity
  type : OperationType
deriving DecidableEq

def Operation.wire (op : Operation) : Operation := { op with entity := op.entity.map Entity.wire }

structure Batch where
  ops : List Operation
deriving DecidableEq

def Batch.wire (batch : Batch) : Batch := ⟨batch.ops.map Operation.wire⟩

structure Domain where
  start : Slice
  stop : Slice
deriving DecidableEq

def Domain.wire (domain : Domain) : Domain := ⟨domain.start.wire, domain.stop.wire⟩

structure Iterator where
  domain : Option Domain
  valid : Bool
  key : Slice
  value : Slice
deriving DecidableEq

def Iterator.wire (item : Iterator) : Iterator :=
  { item with domain := item.domain.map Domain.wire, key := item.key.wire, value := item.value.wire }

/-- The entries of the map are in the order of a range over it. `unrecognized` holds
the fields that the decoder did not know. -/
structure Stats where
  data : List (Bytes × Bytes)
  timeAt : Int
  unrecognized : Slice := none
deriving DecidableEq

/-- Indexing a Go map, where a missing key has the empty string. -/
def Stats.index (stats : Stats) (key : Bytes) : Bytes :=
  ((stats.data.find? fun entry => entry.1 == key).map Prod.snd).getD []

/-- The interface value that an Equal method is given. -/
inductive Operand (μ : Type) where
  | nil
  | pointer (message : Option μ)
  | value (message : μ)
  | other

/-- The message it stands for, if it does for one. -/
def Operand.message {μ : Type} : Operand μ → Option μ
  | .nil | .other => none
  | .pointer message => message
  | .value message => some message

/-- The generated Equal method of a pointer to Stats. -/
def Stats.equal (this : Option Stats) (that : Operand Stats) : Bool :=
  match that with
  | .nil => this.isNone
  | .other => false
  | .pointer none => this.isNone
  | .pointer (some that1) | .value that1 => match this with
    | none => false
    | some this =>
      this.data.length == that1.data.length && (this.data.all fun entry => this.index entry.1 == that1.index entry.1) &&
        this.timeAt == that1.timeAt && this.unrecognized.bytes == that1.unrecognized.bytes

structure Init where
  type : String
  name : String
  dir : String
deriving DecidableEq

end Proto

namespace Slice

@[simp] theorem wire_none : wire none = none := rfl

@[simp] theorem wire_empty : wire (some []) = none := rfl

theorem wire_some {bz : Bytes} (nonempty : bz ≠ []) : wire (some bz) = some bz := by
  simp [wire, len, nonempty]

theorem wire_eq_none {slice : Slice} : slice.wire = none ↔ slice = none ∨ slice = some [] := by
  rcases slice with _ | _ | ⟨byte, rest⟩
  · simp
  · simp
  · simp [wire, len]

theorem wire_of_ne {slice : Slice} (nonempty : slice ≠ some []) : slice.wire = slice := by
  cases slice with
  | none => rfl
  | some bz => exact wire_some fun empty => nonempty (congrArg some empty)

theorem wire_of_bytes {slice : Slice} (nonempty : slice.bytes ≠ []) : slice.wire = slice := by
  apply wire_of_ne
  rintro rfl
  exact nonempty rfl

/-- Only nil and empty are confused. -/
@[simp] theorem bytes_wire (slice : Slice) : slice.wire.bytes = slice.bytes := by
  unfold wire len
  cases content : slice.bytes with
  | nil => rfl
  | cons byte rest => simpa using content

end Slice
end TmDb
