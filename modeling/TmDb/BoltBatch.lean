import Mathlib.Logic.Relation
import TmDb.Batches

/-! boltDBBatch.Write called by several goroutines at once, each on its own batch.
bbolt's DB.Batch gathers the closures that arrive together, runs them one after
another in one transaction, and when one fails rolls back, takes that one out and
tries the others again. A transaction excludes all others, so it is one step. -/

namespace TmDb
open Lib

/-- The closure that Write hands to bbolt, in a transaction: Put and Delete in order,
up to the first that fails. Whether one fails depends on the operation alone. -/
def BoltDB.closure (fails : Operation → Option Err) : Store → List Operation → Except Err Store
  | tx, [] => .ok tx
  | tx, op :: ops => match fails op with
    | some err => .error err
    | none => closure fails (MemBatch.applyOp tx op) ops

/-- Where a call of Write is. -/
inductive WriteCall where
  | idle
  /-- In DB.Batch, in no group yet. -/
  | submitted
  | grouped
  /-- Told to run its closure again in a transaction of its own. -/
  | solo
  /-- DB.Batch has returned; Write has still to return. -/
  | answered (result : Except Err Unit)
  | returned (result : Except Err Unit)
deriving DecidableEq

/-- The bucket, the batches with their calls of Write, and the groups that bbolt has
formed and not yet committed. -/
structure Coalescer (ι : Type) where
  bucket : Store
  batches : ι → MemBatch
  calls : ι → WriteCall
  groups : List (List ι)

namespace Coalescer
variable {ι : Type} [DecidableEq ι]

def start (bucket : Store) (batches : ι → MemBatch) : Coalescer ι := ⟨bucket, batches, fun _ => .idle, []⟩

def move (state : Coalescer ι) (group : List ι) (call : WriteCall) : Coalescer ι :=
  { state with calls := fun i => if i ∈ group then call else state.calls i }

/-- The closure of one call, which reads the operations when it runs. -/
def runOne (fails : Operation → Option Err) (state : Coalescer ι) (tx : Store) (i : ι) : Except Err Store :=
  BoltDB.closure fails tx ((state.batches i).getD [])

/-- The closures of a group, one after another. -/
def runAll (fails : Operation → Option Err) (state : Coalescer ι) : Store → List ι → Except Err Store
  | tx, [] => .ok tx
  | tx, i :: group => match state.runOne fails tx i with
    | .error err => .error err
    | .ok tx => state.runAll fails tx group

inductive Step (fails : Operation → Option Err) : Coalescer ι → Coalescer ι → Prop where
  | refuse {state i} (idle : state.calls i = .idle) (closed : state.batches i = none) :
      Step fails state (state.move [i] (.returned (.error .batchClosed)))
  | submit {state i ops} (idle : state.calls i = .idle) (open_ : state.batches i = some ops) :
      Step fails state (state.move [i] .submitted)
  | gather {state} (group : List ι) (distinct : group.Nodup) (waiting : ∀ i ∈ group, state.calls i = .submitted) :
      Step fails state { state.move group .grouped with groups := group :: state.groups }
  | commit {state before group after tx} (formed : state.groups = before ++ group :: after)
      (ran : state.runAll fails state.bucket group = .ok tx) :
      Step fails state { state.move group (.answered (.ok ())) with bucket := tx, groups := before ++ after }
  /-- The rest of the group may be tried again in any order. -/
  | rollback {state before done i rest after tx err} (formed : state.groups = before ++ (done ++ i :: rest) :: after)
      (ran : state.runAll fails state.bucket done = .ok tx) (failed : state.runOne fails tx i = .error err)
      (others : List ι) (same : others.Perm (done ++ rest)) :
      Step fails state { state.move [i] .solo with groups := before ++ others :: after }
  | rerun {state i tx} (solo : state.calls i = .solo) (ran : state.runOne fails state.bucket i = .ok tx) :
      Step fails state { state.move [i] (.answered (.ok ())) with bucket := tx }
  | rerunFails {state i err} (solo : state.calls i = .solo) (ran : state.runOne fails state.bucket i = .error err) :
      Step fails state (state.move [i] (.answered (.error err)))
  /-- `return err`, with the batch left as it is. -/
  | fail {state i err} (answered : state.calls i = .answered (.error err)) :
      Step fails state (state.move [i] (.returned (.error err)))
  /-- `return b.Close()`. -/
  | close {state i} (answered : state.calls i = .answered (.ok ())) :
      Step fails state { state.move [i] (.returned (MemBatch.close (state.batches i)).1) with
        batches := Function.update state.batches i (MemBatch.close (state.batches i)).2 }

abbrev Steps (fails : Operation → Option Err) : Coalescer ι → Coalescer ι → Prop := Relation.ReflTransGen (Step fails)

end Coalescer
end TmDb
