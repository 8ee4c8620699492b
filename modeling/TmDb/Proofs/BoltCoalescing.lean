import Mathlib.Algebra.Order.BigOperators.Group.Finset
import TmDb.BoltBatch
import TmDb.Proofs.MemContract

/-! Coalesced BoltDB batches. The calls that bbolt has answered without an error,
in the order of their transactions, are an order in which their operation lists
give the bucket; every step keeps such an order, whatever the grouping. -/

namespace TmDb.Proofs.BoltCoalescing
open Lib Coalescer

/-- What the operations of some batches stand for, one list after another. -/
def applied {ι : Type} (batches : ι → MemBatch) (order : List ι) (bucket : Store) : Store :=
  bucket.applyAll (order.flatMap fun i => ((batches i).getD []).map Operation.update)

/-- What Write returns for a batch, in whichever transaction its closure runs. -/
def outcome (fails : Operation → Option Err) : MemBatch → Except Err Unit
  | none => .error .batchClosed
  | some ops => match ops.findSome? fails with
    | some err => .error err
    | none => .ok ()

variable {ι : Type} {fails : Operation → Option Err}
  {bucket : Store} {batches : ι → MemBatch} {state : Coalescer ι} {order : List ι}

theorem closure_eq (tx : Store) (ops : List Operation) :
    BoltDB.closure fails tx ops = match ops.findSome? fails with
      | some err => .error err
      | none => .ok (tx.applyAll (ops.map Operation.update)) := by
  rw [← applyAll_operations]
  induction ops generalizing tx with
  | nil => rfl
  | cons op ops ih =>
    rw [BoltDB.closure, List.findSome?_cons, List.foldl_cons]
    cases fails op with
    | some err => rfl
    | none => exact ih _

theorem runOne_ok {i : ι} {ops : List Operation} {tx after : Store} (open_ : state.batches i = some ops)
    (ran : state.runOne fails tx i = .ok after) :
    outcome fails (some ops) = .ok () ∧ after = tx.applyAll (ops.map Operation.update) := by
  rw [runOne, open_, Option.getD_some, closure_eq] at ran
  cases found : ops.findSome? fails with
  | some err => simp [found] at ran
  | none =>
    simp only [found, Except.ok.injEq] at ran
    exact ⟨by simp only [outcome, found], ran.symm⟩

theorem runOne_error {i : ι} {ops : List Operation} {tx : Store} {err : Err} (open_ : state.batches i = some ops)
    (ran : state.runOne fails tx i = .error err) : outcome fails (some ops) = .error err := by
  rw [runOne, open_, Option.getD_some, closure_eq] at ran
  cases found : ops.findSome? fails with
  | some _ =>
    simp only [found, Except.error.injEq] at ran
    simp only [outcome, found, ran]
  | none => simp [found] at ran

theorem runAll_ok {group : List ι} {tx after : Store}
    (same : ∀ i ∈ group, state.batches i = batches i ∧ batches i ≠ none)
    (ran : state.runAll fails tx group = .ok after) :
    (∀ i ∈ group, outcome fails (batches i) = .ok ()) ∧ after = applied batches group tx := by
  induction group generalizing tx with
  | nil =>
    cases ran
    exact ⟨by simp, rfl⟩
  | cons i group ih =>
    obtain ⟨unchanged, isOpen⟩ := same i List.mem_cons_self
    obtain ⟨ops, found⟩ := Option.ne_none_iff_exists'.mp isOpen
    rw [runAll] at ran
    cases one : state.runOne fails tx i with
    | error err => simp [one] at ran
    | ok middle =>
      rw [one] at ran
      obtain ⟨success, step⟩ := runOne_ok (unchanged.trans found) one
      obtain ⟨successes, rest⟩ := ih (fun j member => same j (List.mem_cons_of_mem i member)) ran
      refine ⟨?_, ?_⟩
      · intro j member
        obtain rfl | member := List.mem_cons.mp member
        · rw [found, success]
        · exact successes j member
      · rw [rest, step, applied, applied, List.flatMap_cons, SortedMap.applyAll_append, found, Option.getD_some]

def Committed (call : WriteCall) : Prop := call = .answered (.ok ()) ∨ call = .returned (.ok ())

def Aside (call : WriteCall) : Prop := ¬ Committed call ∧ call ≠ .grouped

/-- What a call's place says of its batch. -/
def Fits (fails : Operation → Option Err) (batch : MemBatch) : WriteCall → Prop
  | .idle => True
  | .submitted | .grouped | .solo => batch ≠ none
  | .answered result | .returned result => result = outcome fails batch

structure Consistent (fails : Operation → Option Err) (bucket : Store) (batches : ι → MemBatch)
    (state : Coalescer ι) (order : List ι) : Prop where
  bucket : state.bucket = applied batches order bucket
  once : order.Nodup
  committed : ∀ i, i ∈ order ↔ Committed (state.calls i)
  apart : state.groups.flatten.Nodup
  grouped : ∀ i, i ∈ state.groups.flatten ↔ state.calls i = .grouped
  kept : ∀ i, state.calls i ≠ .returned (.ok ()) → state.batches i = batches i
  closed : ∀ i, state.calls i = .returned (.ok ()) → state.batches i = none
  fits : ∀ i, Fits fails (batches i) (state.calls i)

namespace Consistent

theorem start : Consistent fails bucket batches (Coalescer.start bucket batches) [] where
  bucket := rfl
  once := List.nodup_nil
  committed i := by simp [Committed, Coalescer.start]
  apart := List.nodup_nil
  grouped i := by simp [Coalescer.start]
  kept _ _ := rfl
  closed i returned := by cases returned
  fits _ := trivial

variable [DecidableEq ι]

theorem moved (consistent : Consistent fails bucket batches state order) {group : List ι} {call : WriteCall}
    {groups : List (List ι)} (before : ∀ i ∈ group, ¬ Committed (state.calls i)) (after : ¬ Committed call)
    (fits : ∀ i ∈ group, Fits fails (batches i) call) (apart : groups.flatten.Nodup)
    (grouped : ∀ i, i ∈ groups.flatten ↔ if i ∈ group then call = .grouped else state.calls i = .grouped) :
    Consistent fails bucket batches { state.move group call with groups := groups } order where
  bucket := consistent.bucket
  once := consistent.once
  committed i := by
    rw [consistent.committed i]
    by_cases member : i ∈ group
    · simp [move, member, before i member, after]
    · simp [move, member]
  apart := apart
  grouped i := by
    rw [grouped i]
    by_cases member : i ∈ group <;> simp [move, member]
  kept i unreturned := by
    apply consistent.kept
    intro returned
    by_cases member : i ∈ group
    · exact before i member (.inr returned)
    · simp [move, member, returned] at unreturned
  closed i returned := by
    by_cases member : i ∈ group
    · simp only [move, if_pos member] at returned
      exact absurd (.inr returned) after
    · simp only [move, if_neg member] at returned
      exact consistent.closed i returned
  fits i := by
    by_cases member : i ∈ group
    · simpa only [move, if_pos member] using fits i member
    · simpa only [move, if_neg member] using consistent.fits i

theorem movedOne (consistent : Consistent fails bucket batches state order) {i : ι} {call : WriteCall}
    (before : Aside (state.calls i)) (after : Aside call) (fits : Fits fails (batches i) call) :
    Consistent fails bucket batches (state.move [i] call) order := by
  apply consistent.moved _ after.1 _ consistent.apart
  · intro j
    rw [consistent.grouped j]
    by_cases same : j = i
    · simp [same, before.2, after.2]
    · simp [same]
  · intro j member
    rw [List.mem_singleton.mp member]
    exact before.1
  · intro j member
    rw [List.mem_singleton.mp member]
    exact fits

theorem commit (consistent : Consistent fails bucket batches state order) {group : List ι}
    {groups : List (List ι)} {tx : Store} (once : group.Nodup) (before : ∀ i ∈ group, ¬ Committed (state.calls i))
    (pending : ∀ i ∈ group, batches i ≠ none) (ran : state.runAll fails state.bucket group = .ok tx)
    (apart : groups.flatten.Nodup)
    (grouped : ∀ i, i ∈ groups.flatten ↔ i ∉ group ∧ state.calls i = .grouped) :
    Consistent fails bucket batches
      { state.move group (.answered (.ok ())) with bucket := tx, groups := groups } (order ++ group) := by
  have same (i : ι) (member : i ∈ group) : state.batches i = batches i ∧ batches i ≠ none := by
    refine ⟨consistent.kept i ?_, pending i member⟩
    intro returned
    exact before i member (.inr returned)
  obtain ⟨successes, result⟩ := runAll_ok same ran
  constructor
  · rw [result, consistent.bucket, applied, applied, applied, List.flatMap_append, SortedMap.applyAll_append]
  · apply consistent.once.append once
    intro i earlier member
    exact before i member ((consistent.committed i).mp earlier)
  · intro i
    rw [List.mem_append, consistent.committed i]
    by_cases member : i ∈ group
    · simp [move, member, Committed]
    · simp [move, member]
  · exact apart
  · intro i
    rw [grouped i]
    by_cases member : i ∈ group <;> simp [move, member]
  · intro i unreturned
    by_cases member : i ∈ group
    · exact (same i member).1
    · simp only [move, if_neg member] at unreturned
      exact consistent.kept i unreturned
  · intro i returned
    by_cases member : i ∈ group
    · simp [move, member] at returned
    · simp only [move, if_neg member] at returned
      exact consistent.closed i returned
  · intro i
    by_cases member : i ∈ group
    · simpa only [move, if_pos member, Fits] using (successes i member).symm
    · simpa only [move, if_neg member] using consistent.fits i

theorem close (consistent : Consistent fails bucket batches state order) {i : ι}
    (answered : state.calls i = .answered (.ok ())) :
    Consistent fails bucket batches
      { state.move [i] (.returned (MemBatch.close (state.batches i)).1) with
        batches := Function.update state.batches i (MemBatch.close (state.batches i)).2 } order where
  bucket := consistent.bucket
  once := consistent.once
  committed j := by
    rw [consistent.committed j]
    by_cases same : j = i
    · simp [move, same, answered, Committed, MemBatch.close]
    · simp [move, same]
  apart := consistent.apart
  grouped j := by
    refine (consistent.grouped j).trans ?_
    by_cases same : j = i
    · simp [move, same, answered]
    · simp [move, same]
  kept j unreturned := by
    by_cases same : j = i
    · simp [move, same, MemBatch.close] at unreturned
    · simp only [move, List.mem_singleton, same, if_false] at unreturned
      simpa [same] using consistent.kept j unreturned
  closed j returned := by
    by_cases same : j = i
    · simp [same, MemBatch.close]
    · simp only [move, List.mem_singleton, same, if_false] at returned
      simpa [same] using consistent.closed j returned
  fits j := by
    have before := consistent.fits j
    by_cases same : j = i
    · subst same
      rw [answered] at before
      simpa [move, MemBatch.close, Fits] using before
    · simpa [move, same] using before

omit [DecidableEq ι] in
private theorem flatten_split {before after : List (List ι)} {group : List ι} :
    (before ++ group :: after).flatten.Perm (group ++ (before ++ after).flatten) :=
  List.perm_middle.flatten

theorem gather (consistent : Consistent fails bucket batches state order) {group : List ι} (distinct : group.Nodup)
    (waiting : ∀ i ∈ group, state.calls i = .submitted) :
    Consistent fails bucket batches { state.move group .grouped with groups := group :: state.groups } order := by
  apply consistent.moved
  · intro i member
    simp [waiting i member, Committed]
  · simp [Committed]
  · intro i member
    have fits := consistent.fits i
    rwa [waiting i member] at fits
  · rw [List.flatten_cons]
    apply distinct.append consistent.apart
    intro i member formed
    have grouped := (consistent.grouped i).mp formed
    simp [waiting i member] at grouped
  · intro i
    rw [List.flatten_cons, List.mem_append, consistent.grouped i]
    by_cases member : i ∈ group <;> simp [member]

theorem commitGroup (consistent : Consistent fails bucket batches state order) {before after : List (List ι)}
    {group : List ι} {tx : Store} (formed : state.groups = before ++ group :: after)
    (ran : state.runAll fails state.bucket group = .ok tx) :
    Consistent fails bucket batches
      { state.move group (.answered (.ok ())) with bucket := tx, groups := before ++ after } (order ++ group) := by
  have split : state.groups.flatten.Perm (group ++ (before ++ after).flatten) := by
    rw [formed]
    exact flatten_split
  obtain ⟨once, apart, separate⟩ := List.nodup_append'.mp (split.nodup_iff.mp consistent.apart)
  have grouped (i : ι) (member : i ∈ group) : state.calls i = .grouped :=
    (consistent.grouped i).mp (split.mem_iff.mpr (List.mem_append_left _ member))
  apply consistent.commit once _ _ ran apart
  · intro i
    rw [← consistent.grouped i, split.mem_iff, List.mem_append]
    constructor
    · intro other
      exact ⟨fun member => separate member other, .inr other⟩
    · intro found
      exact found.2.resolve_left found.1
  · intro i member
    simp [grouped i member, Committed]
  · intro i member
    have fits := consistent.fits i
    rwa [grouped i member] at fits

theorem rollback (consistent : Consistent fails bucket batches state order) {before after : List (List ι)}
    {done rest others : List ι} {i : ι} (formed : state.groups = before ++ (done ++ i :: rest) :: after)
    (same : others.Perm (done ++ rest)) :
    Consistent fails bucket batches { state.move [i] .solo with groups := before ++ others :: after } order := by
  have split : state.groups.flatten.Perm (i :: (before ++ others :: after).flatten) := by
    rw [formed]
    calc (before ++ (done ++ i :: rest) :: after).flatten
      _ |>.Perm ((done ++ i :: rest) ++ (before ++ after).flatten) := flatten_split
      _ |>.Perm ((i :: others) ++ (before ++ after).flatten) :=
        (List.perm_middle.trans (same.symm.cons i)).append_right _
      _ |>.Perm (i :: (before ++ others :: after).flatten) := flatten_split.symm.cons i
  obtain ⟨out, apart⟩ := List.nodup_cons.mp (split.nodup_iff.mp consistent.apart)
  have grouped : state.calls i = .grouped := (consistent.grouped i).mp (split.mem_iff.mpr List.mem_cons_self)
  apply consistent.moved _ _ _ apart
  · intro j
    rw [← consistent.grouped j, split.mem_iff]
    by_cases this : j = i
    · subst this
      simp only [List.mem_singleton, if_true, reduceCtorEq, iff_false]
      exact out
    · simp [this]
  · intro j member
    rw [List.mem_singleton.mp member, grouped]
    simp [Committed]
  · simp [Committed]
  · intro j member
    have fits := consistent.fits i
    rw [grouped] at fits
    rwa [List.mem_singleton.mp member]

theorem step (consistent : Consistent fails bucket batches state order) {after : Coalescer ι}
    (step : Coalescer.Step fails state after) : ∃ order, Consistent fails bucket batches after order := by
  cases step with
  | @refuse i idle closed =>
    have same := consistent.kept i (by simp [idle])
    refine ⟨order, consistent.movedOne (by simp [idle, Aside, Committed]) (by simp [Aside, Committed]) ?_⟩
    simp [Fits, outcome, ← same, closed]
  | @submit i ops idle open_ =>
    have same := consistent.kept i (by simp [idle])
    refine ⟨order, consistent.movedOne (by simp [idle, Aside, Committed]) (by simp [Aside, Committed]) ?_⟩
    simp [Fits, ← same, open_]
  | gather group distinct waiting => exact ⟨order, consistent.gather distinct waiting⟩
  | commit formed ran => exact ⟨_, consistent.commitGroup formed ran⟩
  | rollback formed _ _ others same => exact ⟨order, consistent.rollback formed same⟩
  | @rerun i tx solo ran =>
    have fits := consistent.fits i
    rw [solo] at fits
    refine ⟨order ++ [i], consistent.commit (List.nodup_singleton i) ?_ ?_ ?_ consistent.apart ?_⟩
    · simp [solo, Committed]
    · simpa [Fits] using fits
    · simp [runAll, ran]
    · intro j
      refine (consistent.grouped j).trans ?_
      by_cases same : j = i <;> simp [same, solo]
  | @rerunFails i err solo ran =>
    have fits := consistent.fits i
    rw [solo] at fits
    have same := consistent.kept i (by simp [solo])
    obtain ⟨ops, found⟩ := Option.ne_none_iff_exists'.mp fits
    refine ⟨order, consistent.movedOne (by simp [solo, Aside, Committed]) (by simp [Aside, Committed]) ?_⟩
    rw [Fits, found]
    exact (runOne_error (same.trans found) ran).symm
  | @fail i err answered =>
    have fits := consistent.fits i
    rw [answered] at fits
    exact ⟨order, consistent.movedOne (by simp [answered, Aside, Committed]) (by simp [Aside, Committed]) fits⟩
  | close answered => exact ⟨order, consistent.close answered⟩

theorem steps (reached : Coalescer.Steps fails (Coalescer.start bucket batches) state) :
    ∃ order, Consistent fails bucket batches state order := by
  refine @steps_kept _ _ (fun state => ∃ order, Consistent fails bucket batches state order) ?_ _ _ reached ⟨[], start⟩
  intro before after step held
  obtain ⟨order, consistent⟩ := held
  exact consistent.step step

end Consistent

/-- The error of a call is its own: no other batch of its groups can cause it. -/
theorem returned_outcome [DecidableEq ι] (reached : Coalescer.Steps fails (Coalescer.start bucket batches) state) {i : ι}
    {result : Except Err Unit} (returned : state.calls i = .returned result) : result = outcome fails (batches i) := by
  obtain ⟨order, consistent⟩ := Consistent.steps reached
  have fits := consistent.fits i
  rwa [returned] at fits

def Settled (state : Coalescer ι) : Prop := ∀ i, state.calls i = .idle ∨ ∃ result, state.calls i = .returned result

/-- However bbolt groups the calls of Write, the bucket is what the batches of those that
returned nil make of it, each once and one after another. The others leave no trace there,
and keep their operations. -/
theorem coalesced_writes_atomic [DecidableEq ι] (reached : Coalescer.Steps fails (Coalescer.start bucket batches) state)
    (settled : Settled state) :
    (∃ order : List ι, order.Nodup ∧ (∀ i, i ∈ order ↔ state.calls i = .returned (.ok ())) ∧
      state.bucket = applied batches order bucket) ∧
    (∀ i err, state.calls i = .returned (.error err) → state.batches i = batches i) ∧
    (∀ i, state.calls i = .returned (.ok ()) → state.batches i = none) := by
  obtain ⟨order, consistent⟩ := Consistent.steps reached
  refine ⟨⟨order, consistent.once, ?_, consistent.bucket⟩, ?_, consistent.closed⟩
  · intro i
    rw [consistent.committed i, Committed]
    obtain idle | ⟨result, returned⟩ := settled i
    · simp [idle]
    · simp [returned]
  · intro i err returned
    apply consistent.kept
    simp [returned]

/-- Two calls in one transaction, of which the second has a key that is too long:
the first is run again and committed, the second fails alone. -/
theorem coalesced_writes_atomic_overlong :
    let fails (op : Operation) : Option Err := if op.key.length ≤ 1 then none else some (.engine "key too large")
    let batches (i : Bool) : MemBatch :=
      if i then some [⟨.set, [2], some [20]⟩, ⟨.set, [2, 2], some [22]⟩] else some [⟨.set, [1], some [10]⟩]
    ∃ final : Coalescer Bool, Coalescer.Steps fails (Coalescer.start SortedMap.empty batches) final ∧
      final.calls true = .returned (.error (.engine "key too large")) ∧ final.batches true = batches true ∧
      final.calls false = .returned (.ok ()) ∧ final.batches false = none ∧
      final.bucket = SortedMap.empty.insert [1] [10] := by
  intro fails batches
  have run : ∃ final, Coalescer.Steps fails (Coalescer.start SortedMap.empty batches) final ∧ Settled final ∧
      final.calls true = .returned (.error (.engine "key too large")) ∧ final.calls false = .returned (.ok ()) := by
    refine ⟨_, .head (.submit (i := false) rfl rfl) <| .head (.submit (i := true) rfl rfl) <|
      .head (.gather [false, true] (by decide) (by decide)) <|
      .head (@Coalescer.Step.rollback _ _ fails _ [] [false] true [] [] _ _ rfl rfl rfl [false] (.refl _)) <|
      .head (@Coalescer.Step.commit _ _ fails _ [] [false] [] _ rfl rfl) <| .head (.close (i := false) rfl) <|
      .head (.rerunFails (i := true) rfl rfl) <| .head (.fail (i := true) rfl) .refl, ?_, rfl, rfl⟩
    intro i
    cases i with
    | false => exact .inr ⟨_, rfl⟩
    | true => exact .inr ⟨_, rfl⟩
  obtain ⟨final, steps, settled, failed, succeeded⟩ := run
  obtain ⟨⟨order, once, returned, bucket⟩, unchanged, closed⟩ := coalesced_writes_atomic steps settled
  have first : order = [false] := by
    refine List.perm_singleton.mp ((List.perm_ext_iff_of_nodup once (List.nodup_singleton false)).mpr fun i => ?_)
    rw [returned i]
    cases i with
    | false => simp [succeeded]
    | true => simp [failed]
  refine ⟨final, steps, failed, unchanged true _ failed, succeeded, closed false succeeded, ?_⟩
  rw [bucket, first]
  rfl

section Completion
variable [DecidableEq ι]

omit [DecidableEq ι] in
theorem runAll_error {group : List ι} {tx : Store} {err : Err} (ran : state.runAll fails tx group = .error err) :
    ∃ done i rest after, group = done ++ i :: rest ∧ state.runAll fails tx done = .ok after ∧
      state.runOne fails after i = .error err := by
  induction group generalizing tx with
  | nil => cases ran
  | cons i group ih =>
    rw [runAll] at ran
    cases one : state.runOne fails tx i with
    | error fault =>
      simp only [one, Except.error.injEq] at ran
      exact ⟨[], i, group, tx, rfl, rfl, ran ▸ one⟩
    | ok middle =>
      rw [one] at ran
      obtain ⟨done, j, rest, after, split, before, failed⟩ := ih ran
      refine ⟨i :: done, j, rest, after, by rw [split, List.cons_append], ?_, failed⟩
      rw [runAll, one]
      exact before

def distance : WriteCall → Nat
  | .idle | .returned _ => 0
  | .answered _ => 1
  | .solo => 2
  | .grouped => 3
  | .submitted => 4

def rank [Fintype ι] (state : Coalescer ι) : Nat := ∑ i, distance (state.calls i)

theorem rank_move [Fintype ι] {group : List ι} {call : WriteCall} {i : ι} (member : i ∈ group)
    (closer : ∀ j ∈ group, distance call < distance (state.calls j)) : rank (state.move group call) < rank state := by
  apply Finset.sum_lt_sum
  · intro j _
    by_cases inside : j ∈ group
    · simpa [move, inside] using (closer j inside).le
    · simp [move, inside]
  · exact ⟨i, Finset.mem_univ i, by simpa [move, member] using closer i member⟩

theorem Consistent.closer [Fintype ι] (consistent : Consistent fails bucket batches state order)
    (unsettled : ¬ Settled state) : ∃ after, Coalescer.Step fails state after ∧ rank after < rank state := by
  simp only [Settled, not_forall, not_or, not_exists] at unsettled
  obtain ⟨i, begun, running⟩ := unsettled
  cases place : state.calls i with
  | idle => exact absurd place begun
  | returned result => exact absurd place (running result)
  | submitted =>
    refine ⟨_, .gather [i] (List.nodup_singleton i) (by simp [place]), ?_⟩
    exact rank_move List.mem_cons_self (by simp [place, distance])
  | grouped =>
    obtain ⟨group, formed, member⟩ := List.mem_flatten.mp ((consistent.grouped i).mpr place)
    have inside (j : ι) (other : j ∈ group) : state.calls j = .grouped :=
      (consistent.grouped j).mp (List.mem_flatten.mpr ⟨group, formed, other⟩)
    obtain ⟨before, rest, split⟩ := List.append_of_mem formed
    cases ran : state.runAll fails state.bucket group with
    | ok tx =>
      refine ⟨_, .commit split ran, rank_move member ?_⟩
      intro j other
      simp [inside j other, distance]
    | error err =>
      obtain ⟨done, j, others, tx, parts, ahead, failed⟩ := runAll_error ran
      subst parts
      refine ⟨_, .rollback split ahead failed (done ++ others) (List.Perm.refl _), ?_⟩
      exact rank_move List.mem_cons_self (by simp [inside j (by simp), distance])
  | solo =>
    cases ran : state.runOne fails state.bucket i with
    | ok tx => exact ⟨_, .rerun place ran, rank_move List.mem_cons_self (by simp [place, distance])⟩
    | error err => exact ⟨_, .rerunFails place ran, rank_move List.mem_cons_self (by simp [place, distance])⟩
  | answered result =>
    cases result with
    | ok _ => exact ⟨_, .close place, rank_move List.mem_cons_self (by simp [place, distance])⟩
    | error err => exact ⟨_, .fail place, rank_move List.mem_cons_self (by simp [place, distance])⟩

/-- Whatever has happened so far, the calls under way can all return. -/
theorem writes_settle [Fintype ι] (reached : Coalescer.Steps fails (Coalescer.start bucket batches) state) :
    ∃ final, Coalescer.Steps fails state final ∧ Settled final := by
  induction left : rank state using Nat.strong_induction_on generalizing state with
  | _ left ih =>
    by_cases settled : Settled state
    · exact ⟨state, .refl, settled⟩
    · obtain ⟨order, consistent⟩ := Consistent.steps reached
      obtain ⟨after, step, less⟩ := consistent.closer settled
      obtain ⟨final, rest, settled⟩ := ih (rank after) (by omega) (reached.tail step) rfl
      exact ⟨final, .head step rest, settled⟩

end Completion
end TmDb.Proofs.BoltCoalescing
