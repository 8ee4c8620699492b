import TmDb.Remote.Server

/-! remotedb.go, batch.go and iterator.go of remotedb: a database that is a gRPC
client. Its state is the server process. Every RPC arrives once and is answered,
unless a delivery says otherwise. -/

namespace TmDb
open Lib

def Message.wire : Message → Message
  | .nothing => .nothing
  | .entity res => .entity res.wire
  | .stats res => .stats res
  | .stream sent => .stream (sent.map Proto.Iterator.wire)

/-- A generated client reads a reply as the message its method declares. -/
def Message.asEntity : Message → Proto.Entity
  | .entity res => res
  | _ => {}

/-- What becomes of one request. A lost one is reported as an error, whether or
not the server ran it. -/
inductive Delivery where
  | reliable
  | lostRequest
  | lostReply
deriving DecidableEq

variable {registry : Registry}

/-- A unary call as the generated client makes it. A handler's error arrives as a
status with its text; a process that died answers nothing. -/
def unary (delivery : Delivery) (process : Process registry) (request : Request registry) :
    Except Err Message × Process registry :=
  match delivery with
  | .lostRequest => (.error .unavailable, process)
  | .lostReply => (.error .unavailable, (process.handle request).2)
  | .reliable =>
    let answer := process.handle request
    match answer.1 with
    | none => (.error .unavailable, answer.2)
    | some (.error err) => (.error (.rpc err.text), answer.2)
    | some (.ok message) => (.ok message.wire, answer.2)

/-- Discard the reply and wrap the error, as every method with no result does. -/
def wrapped (context : String) (result : Except Err Message × Process registry) :
    Except Err Unit × Process registry :=
  match result with
  | (.error err, process) => (.error (.wrapped context err), process)
  | (.ok _, process) => (.ok (), process)

/-- What the client of a stream still has to receive, and the error after it. -/
structure Stream where
  messages : List Proto.Iterator
  last : Err
deriving DecidableEq

def Stream.recv (stream : Stream) : Except Err Proto.Iterator × Stream :=
  match stream.messages with
  | [] => (.error stream.last, stream)
  | message :: rest => (.ok message, { stream with messages := rest })

/-- The part of an iterator that is its own; `iterator` and `reverseIterator` are
the same code over streams of different types. -/
structure RemoteIter where
  cur : Option Proto.Iterator
  err : Option Err
deriving DecidableEq

namespace RemoteIter

def valid (it : RemoteIter) : Bool :=
  match it.cur with
  | none => false
  | some cur => cur.valid && it.err.isNone

def domain (it : RemoteIter) : Slice × Slice :=
  match it.cur with
  | some ⟨some domain, _, _, _⟩ => (domain.start, domain.stop)
  | _ => (none, none)

/-- Next after Recv: the current item is replaced before the error is looked at. -/
def next (it : RemoteIter) : Except Err Proto.Iterator → RemoteIter
  | .error err => ⟨none, some err⟩
  | .ok message => { it with cur := some message }

/-- A method that asserts validity first. -/
def asserted {α : Type} (it : RemoteIter) (read : Proto.Iterator → α) : Option α :=
  if it.valid then it.cur.map read else none

def key (it : RemoteIter) : Option Slice := it.asserted Proto.Iterator.key

def value (it : RemoteIter) : Option Slice := it.asserted Proto.Iterator.value

def nextFrom (it : RemoteIter × Stream) : RemoteIter × Stream := (it.1.next it.2.recv.1, it.2.recv.2)

/-- makeIterator and makeReverseIterator: the first Next primes the iterator. -/
def make (stream : Stream) : RemoteIter × Stream := nextFrom (⟨none, none⟩, stream)

def ops : IterOps (RemoteIter × Stream) where
  domain it := it.1.domain
  valid it := (some it.1.valid, it)
  next it := (some (), nextFrom it)
  key it := (it.1.key.map Slice.bytes, it)
  value it := (it.1.value.map Slice.bytes, it)
  error it := it.1.err
  remaining it := it.2.messages.length + if it.1.valid then 1 else 0

end RemoteIter

/-- The operations of a batch; `none` is the nil of a written or closed one. -/
abbrev RemoteBatch := Option (List Proto.Operation)

namespace RemoteBatch

def append (batch : RemoteBatch) (op : Proto.Operation) : Except Err Unit × RemoteBatch :=
  match batch with
  | none => (.error .batchClosed, none)
  | some ops => (.ok (), some (ops ++ [op]))

def set (batch : RemoteBatch) (key value : Slice) : Except Err Unit × RemoteBatch :=
  batch.append ⟨some { key := key, value := value }, .set⟩

def delete (batch : RemoteBatch) (key : Slice) : Except Err Unit × RemoteBatch :=
  batch.append ⟨some { key := key }, .delete⟩

def close (_ : RemoteBatch) : Except Err Unit × RemoteBatch := (.ok (), none)

/-- Write and WriteSync: the batch is closed only if the RPC succeeded. -/
def writeWith (request : Proto.Batch → Request registry) (context : String) (delivery : Delivery)
    (process : Process registry) (batch : RemoteBatch) : Except Err Unit × Process registry × RemoteBatch :=
  match batch with
  | none => (.error .batchClosed, process, none)
  | some ops =>
    match wrapped context (unary delivery process (request (Proto.Batch.wire ⟨ops⟩))) with
    | (.error err, process) => (.error err, process, some ops)
    | (.ok _, process) => (.ok (), process, none)

def write (delivery : Delivery) (process : Process registry) (batch : RemoteBatch) :
    Except Err Unit × Process registry × RemoteBatch :=
  writeWith .batchWrite "remoteDB.BatchWrite" delivery process batch

def writeSync (delivery : Delivery) (process : Process registry) (batch : RemoteBatch) :
    Except Err Unit × Process registry × RemoteBatch :=
  writeWith .batchWriteSync "RemoteDB.BatchWriteSync" delivery process batch

def ops : BatchOps (Process registry) RemoteBatch where
  set := set
  delete := delete
  write := write .reliable
  writeSync := writeSync .reliable
  close := close

end RemoteBatch

namespace RemoteDB

def delete (process : Process registry) (key : Slice) : Except Err Unit × Process registry :=
  wrapped "remoteDB.Delete" (unary .reliable process (.delete (Proto.Entity.wire { key := key })))

def deleteSync (process : Process registry) (key : Slice) : Except Err Unit × Process registry :=
  wrapped "remoteDB.DeleteSync" (unary .reliable process (.deleteSync (Proto.Entity.wire { key := key })))

def set (process : Process registry) (key value : Slice) : Except Err Unit × Process registry :=
  wrapped "remoteDB.Set" (unary .reliable process (.set (Proto.Entity.wire { key := key, value := value })))

def setSync (process : Process registry) (key value : Slice) : Except Err Unit × Process registry :=
  wrapped "remoteDB.SetSync" (unary .reliable process (.setSync (Proto.Entity.wire { key := key, value := value })))

def get (process : Process registry) (key : Slice) : Except Err Slice :=
  match (unary .reliable process (.get (Proto.Entity.wire { key := key }))).1 with
  | .error err => .error (.wrapped "remoteDB.Get error" err)
  | .ok res => .ok res.asEntity.value

def has (process : Process registry) (key : Slice) : Except Err Bool :=
  (unary .reliable process (.has (Proto.Entity.wire { key := key }))).1.map fun res => res.asEntity.existing

/-- The stream a server process opens for a query, when nothing breaks it. -/
def stream (reverse : Bool) (process : Process registry) (query : Proto.Entity) : Stream :=
  match process with
  | .running ⟨some ⟨type, state⟩⟩ =>
    let db := registry.db type
    let (status, sent) := Handler.iteratorWith db (opener db reverse) (fun _ => none) state query
    ⟨sent.map Proto.Iterator.wire, match status with
      | none => .unavailable
      | some (.error err) => .rpc err.text
      | some (.ok _) => .eof⟩
  | _ => ⟨[], .unavailable⟩

/-- Opening a stream does not wait for the server, so its errors come later. -/
def iteratorWith (reverse : Bool) (process : Process registry) (start stop : Slice) :
    Option (Except Err (RemoteIter × Stream)) :=
  some (.ok (RemoteIter.make (stream reverse process (Proto.Entity.wire { start := start, stop := stop }))))

/-- The time in the reply is not looked at. -/
def stats (process : Process registry) : List (Bytes × Bytes) :=
  match (unary .reliable process (.stats 0)).1 with
  | .ok (.stats stats) => stats.data
  | _ => []

end RemoteDB

/-- RemoteDB. Get, Has and the iterators give back no state: they leave a process
that holds a database as it was, and one that does not is unavailable from then on
either way. -/
def remoteDB (registry : Registry) : DB where
  State := Process registry
  Batch := RemoteBatch
  Iter := RemoteIter × Stream
  get := RemoteDB.get
  has := RemoteDB.has
  set := RemoteDB.set
  setSync := RemoteDB.setSync
  delete := RemoteDB.delete
  deleteSync := RemoteDB.deleteSync
  iterator := RemoteDB.iteratorWith false
  reverseIterator := RemoteDB.iteratorWith true
  iter := RemoteIter.ops
  newBatch := some []
  batch := RemoteBatch.ops
  stats := RemoteDB.stats

end TmDb
