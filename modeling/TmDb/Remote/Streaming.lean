import Mathlib.Logic.Relation
import TmDb.Remote.Client

/-! One remote iteration as it happens: the server's loop, the stream and the
client's iterator, each taking its steps when it likes. The stream keeps its order
and may break at any moment, with any part of what was in flight. -/

namespace TmDb
open Lib

/-- Where handleIterator is. -/
inductive Loop (ι : Type) where
  | running (it : ι)
  | returned (status : Status Unit)

/-- `last` is the error the stream ends in, once that is settled. `seen` records
each pair that the client stood on. -/
structure Relay (ι : Type) where
  loop : Loop ι
  inflight : List Proto.Iterator
  broken : Bool
  last : Option Err
  client : RemoteIter
  primed : Bool
  seen : List Entry

namespace Relay
variable {ι : Type}

/-- The server has its iterator, and the client's constructor has the stream. -/
def opened (it : ι) : Relay ι where
  loop := .running it
  inflight := []
  broken := false
  last := none
  client := ⟨none, none⟩
  primed := false
  seen := []

/-- The pair that Key and Value return, if they do not panic. -/
def standsOn (client : RemoteIter) : Option Entry :=
  client.key.bind fun key => client.value.map fun value => (key.bytes, value.bytes)

/-- The client after Next has received something. -/
def received (relay : Relay ι) (result : Except Err Proto.Iterator) : Relay ι :=
  { relay with
    client := relay.client.next result
    primed := true
    seen := relay.seen ++ (standsOn (relay.client.next result)).toList }

variable (ops : IterOps ι)

inductive ServerStep : Relay ι → Relay ι → Prop where
  | send {relay it out after next} (running : relay.loop = .running it)
      (valid : Handler.current ops it = (some (some out), after)) (whole : relay.broken = false)
      (moved : ops.next after = (some (), next)) :
      ServerStep relay { relay with loop := .running next, inflight := relay.inflight ++ [out.wire] }
  /-- A send on a broken stream may go unnoticed. -/
  | lose {relay it out after next} (running : relay.loop = .running it)
      (valid : Handler.current ops it = (some (some out), after)) (broken : relay.broken = true)
      (moved : ops.next after = (some (), next)) :
      ServerStep relay { relay with loop := .running next }
  | fail {relay it out after} (err : Err) (running : relay.loop = .running it)
      (valid : Handler.current ops it = (some (some out), after)) (broken : relay.broken = true) :
      ServerStep relay { relay with loop := .returned (some (.error err)) }
  | finish {relay it after} (running : relay.loop = .running it)
      (invalid : Handler.current ops it = (some none, after)) :
      ServerStep relay { relay with
        loop := .returned (some (.ok ())), last := if relay.broken then relay.last else some .eof }
  /-- A panic of the iterator takes the process down, and the stream with it. -/
  | crash {relay it} (running : relay.loop = .running it)
      (panics : (Handler.current ops it).1 = none ∨
        (∃ out after, Handler.current ops it = (some (some out), after) ∧ (ops.next after).1 = none)) :
      ServerStep relay { relay with loop := .returned none, broken := true, last := some .unavailable }

/-- Next, in the constructor and afterwards, waits in Recv. -/
inductive ClientStep : Relay ι → Relay ι → Prop where
  | receive {relay message rest} (arrived : relay.inflight = message :: rest) :
      ClientStep relay { relay.received (.ok message) with inflight := rest }
  | receiveLast {relay err} (empty : relay.inflight = []) (ended : relay.last = some err) :
      ClientStep relay (relay.received (.error err))

inductive Step : Relay ι → Relay ι → Prop where
  | server {relay next} (step : ServerStep ops relay next) : Step relay next
  | client {relay next} (step : ClientStep relay next) : Step relay next
  /-- What was in flight arrives up to some message, and nothing after it. -/
  | sever {relay} (arriving : List Proto.Iterator) (err : Err) (part : arriving <+: relay.inflight) :
      Step relay { relay with inflight := arriving, broken := true, last := some err }

abbrev Steps : Relay ι → Relay ι → Prop := Relation.ReflTransGen (Step ops)

end Relay
end TmDb
