import TmDb.LevelIterator

/-! A caller that keeps iterators open between its other calls. Iterators, like
batches, are held in variables of the caller. -/

namespace TmDb
open Lib

inductive Browse where
  | call (call : Call)
  | iterator (name : Nat) (reverse : Bool) (start stop : Slice)
  | use (name : Nat) (call : IterCall)
  | error (name : Nat)
deriving DecidableEq

inductive BrowseReply where
  | call (reply : Reply)
  /-- `none` when the constructor panicked. -/
  | opened (result : Option (Except Err Unit))
  | use (reply : IterReply)
  | error (err : Option Err)
  /-- The caller named an iterator it never made. -/
  | noIterator
deriving DecidableEq

structure Browser (db : DB) where
  session : Session db
  iterators : Nat → Option db.Iter

namespace Browser
variable {db : DB}

/-- A caller that has not made any call yet. -/
def start (state : db.State) : Browser db := ⟨⟨state, fun _ => none⟩, fun _ => none⟩

def keep (browser : Browser db) (name : Nat) (it : db.Iter) : Browser db :=
  { browser with iterators := Function.update browser.iterators name (some it) }

def open_ (browser : Browser db) (name : Nat) (result : Option (Except Err db.Iter)) : BrowseReply × Browser db :=
  (.opened (result.map (Except.map fun _ => ())), match result with
    | some (.ok it) => browser.keep name it
    | _ => browser)

def withIterator (browser : Browser db) (name : Nat) (method : db.Iter → BrowseReply × Browser db) :
    BrowseReply × Browser db :=
  match browser.iterators name with
  | none => (.noIterator, browser)
  | some it => method it

def step (browser : Browser db) : Browse → BrowseReply × Browser db
  | .call call => (browser.session.step call).map .call fun session => { browser with session := session }
  | .iterator name reverse start stop => browser.open_ name (opener db reverse browser.session.state start stop)
  | .use name call => browser.withIterator name fun it =>
    ((iteration db.iter).step it call).map .use (browser.keep name)
  | .error name => browser.withIterator name fun it => (.error (db.iter.error it), browser)

end Browser

def browsing (db : DB) : Machine (Browser db) Browse BrowseReply := ⟨Browser.step⟩

end TmDb
