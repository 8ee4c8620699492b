import TmDb.Types

/-! A backend's iterator that may stop with an error, as one over a storage engine
can: after some number of entries its Valid is false and its Error is not nil. -/

namespace TmDb
open Lib

/-- `fault` is how many entries it still gives, and the error it then stops with. -/
structure FailingIter (ι : Type) where
  source : ι
  fault : Option (Nat × Err)

namespace FailingIter
variable {ι : Type} (ops : IterOps ι)

/-- The error it has stopped with. -/
def stopped (it : FailingIter ι) : Option Err :=
  match it.fault with
  | some (0, err) => some err
  | _ => none

/-- A method that answers from the source until there is an error. -/
def asked {α : Type} (it : FailingIter ι) (refusal : Option α) (result : Option α × ι) : Option α × FailingIter ι :=
  if it.stopped.isSome then (refusal, it) else (result.1, { it with source := result.2 })

def iter : IterOps (FailingIter ι) where
  domain it := ops.domain it.source
  valid it := it.asked (some false) (ops.valid it.source)
  next it := andThen (it.asked none (ops.next it.source)) fun _ it =>
    (some (), { it with fault := it.fault.map fun fault => (fault.1 - 1, fault.2) })
  key it := it.asked none (ops.key it.source)
  value it := it.asked none (ops.value it.source)
  error it := match it.stopped with
    | some err => some err
    | none => ops.error it.source
  remaining it := ops.remaining it.source

end FailingIter
end TmDb
