import Mathlib.Logic.Relation
import TmDb.Remote.Server

/-! GetStream of grpcdb/server.go: a goroutine that receives requests and looks them
up, an unbuffered channel, and the handler's own loop that sends what comes out of
it. The goroutine reports its end, too, through the channel. -/

namespace TmDb
open Lib

/-- An Entity with its err field, which only GetStream sets. -/
structure Proto.Answer extends Proto.Entity where
  err : String := ""
deriving DecidableEq

namespace GetStream

/-- A request, and the database at the moment its Get reads it. -/
structure Request (db : DB) where
  inp : Proto.Entity
  state : db.State

/-- The receive routine. -/
inductive Receiver (db : DB) where
  /-- In ds.Recv, with the requests that are still to arrive. -/
  | receiving (rest : List (Request db))
  /-- In s.Get. -/
  | getting (request : Request db) (rest : List (Request db))
  /-- At a send on the channel; then it goes on receiving, or returns. -/
  | offering (out : Proto.Answer) (onward : Option (List (Request db)))
  /-- Returning; the deferred close is still to run. -/
  | closing
  | done

/-- The send routine, which is the handler itself. -/
inductive Sender where
  /-- In the range over the channel. -/
  | ranging
  /-- About to pass a message to ds.Send. -/
  | sending (out : Proto.Answer)
  | returned (result : Except Err Unit)

/-- `received` and `passed` record the requests that Recv has returned and the
messages passed to Send. The stream is cancelled once a Send has failed. -/
structure Stream (db : DB) where
  receiver : Receiver db
  sender : Sender
  closed : Bool
  cancelled : Bool
  received : List (Request db)
  passed : List Proto.Answer

variable {db : DB}

def Stream.initial (requests : List (Request db)) : Stream db where
  receiver := .receiving requests
  sender := .ranging
  closed := false
  cancelled := false
  received := []
  passed := []

/-- Where the receive routine is after a send on the channel. -/
def Receiver.after : Option (List (Request db)) → Receiver db
  | some rest => .receiving rest
  | none => .closing

/-- `last` is the error with which Recv ends the stream after the last request. -/
inductive ReceiverStep (last : Err) : Stream db → Stream db → Prop where
  | recv {stream request rest} (receiving : stream.receiver = .receiving (request :: rest))
      (alive : stream.cancelled = false) :
      ReceiverStep last stream
        { stream with receiver := .getting request rest, received := stream.received ++ [request] }
  | recvLast {stream} (receiving : stream.receiver = .receiving []) (alive : stream.cancelled = false) :
      ReceiverStep last stream { stream with receiver := .offering { err := last.text } none }
  /-- Recv on a cancelled stream. -/
  | recvCancelled {stream rest} (err : Err) (receiving : stream.receiver = .receiving rest)
      (cancelled : stream.cancelled = true) :
      ReceiverStep last stream { stream with receiver := .offering { err := err.text } none }
  | get {stream request rest out} (getting : stream.receiver = .getting request rest)
      (found : (Handler.get db request.state request.inp).1 = some (.ok out)) :
      ReceiverStep last stream { stream with receiver := .offering { out with err := "" } (some rest) }
  /-- Get returns no entity with an error, so a new one carries the key and the text. -/
  | getFails {stream request rest err} (getting : stream.receiver = .getting request rest)
      (failed : (Handler.get db request.state request.inp).1 = some (.error err)) :
      ReceiverStep last stream
        { stream with receiver := .offering { key := request.inp.key, err := err.text } none }
  | close {stream} (closing : stream.receiver = .closing) :
      ReceiverStep last stream { stream with receiver := .done, closed := true }

inductive SenderStep : Stream db → Stream db → Prop where
  | send {stream out} (sending : stream.sender = .sending out) :
      SenderStep stream { stream with sender := .ranging, passed := stream.passed ++ [out] }
  /-- Send fails, the handler returns its error, and the stream is cancelled. -/
  | sendFails {stream out} (err : Err) (sending : stream.sender = .sending out) :
      SenderStep stream { stream with
        sender := .returned (.error err), cancelled := true, passed := stream.passed ++ [out] }
  | finish {stream} (ranging : stream.sender = .ranging) (closed : stream.closed = true) :
      SenderStep stream { stream with sender := .returned (.ok ()) }

inductive Step (last : Err) (before after : Stream db) : Prop where
  | receiver (step : ReceiverStep last before after)
  | sender (step : SenderStep before after)
  /-- A message changes hands on the unbuffered channel. -/
  | deliver {out onward} (offering : before.receiver = .offering out onward) (ranging : before.sender = .ranging)
      (moved : after = { before with receiver := .after onward, sender := .sending out })

abbrev Steps (last : Err) : Stream db → Stream db → Prop := Relation.ReflTransGen (Step last)

end GetStream
end TmDb
