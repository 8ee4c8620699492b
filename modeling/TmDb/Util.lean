import TmDb.Types

/-! The byte-string helpers of util.go. -/

namespace TmDb
open Lib

/-- Copying changes no content; only aliasing, which the model does not have. -/
def cp (bz : Slice) : Bytes := bz.bytes

/-- The loop of cpIncr, on the bytes from the last one leftwards: a carry passes
through every 0xFF and stops at the first byte that can be incremented. -/
def cpIncrLoop : List UInt8 → Option (List UInt8)
  | [] => none
  | byte :: rest => if byte < 0xFF then some ((byte + 1) :: rest) else (cpIncrLoop rest).map (0x00 :: ·)

/-- `none` is the panic on an empty argument; `some none` is the nil that marks
an overflow. -/
def cpIncr (bz : Slice) : Option Slice :=
  if bz.len = 0 then none else some ((cpIncrLoop (cp bz).reverse).map List.reverse)

def isKeyInDomain (key : Bytes) (start stop : Slice) : Bool :=
  if key < start.bytes then false
  else match stop with
    | some stop => if stop ≤ key then false else true
    | none => true

theorem isKeyInDomain_iff {key : Bytes} {start stop : Slice} :
    isKeyInDomain key start stop = true ↔ start.bytes ≤ key ∧ ∀ bound, stop = some bound → key < bound := by
  cases stop with
  | none => simp [isKeyInDomain]
  | some bound => simp [isKeyInDomain]

/-- The entries of a domain in iteration order. -/
def Store.scan (store : Store) (start stop : Slice) (reverse : Bool) : List Entry :=
  let inside := store.entries.filter fun entry => isKeyInDomain entry.1 start stop
  if reverse then inside.reverse else inside

/-- The order in which an iterator yields its keys. -/
def Precedes (reverse : Bool) (first second : Bytes) : Prop := if reverse then second < first else first < second

theorem Store.mem_scan {store : Store} {start stop : Slice} {reverse : Bool} {entry : Entry} :
    entry ∈ Store.scan store start stop reverse ↔
      entry ∈ store.entries ∧ isKeyInDomain entry.1 start stop = true := by
  cases reverse <;> simp [Store.scan]

theorem Store.scan_ordered (store : Store) (start stop : Slice) (reverse : Bool) :
    (Store.scan store start stop reverse).Pairwise fun first second => Precedes reverse first.1 second.1 := by
  cases reverse with
  | false => exact store.sorted.filter _
  | true => exact List.pairwise_reverse.mpr (store.sorted.filter _)

end TmDb
