import TmDb.LevelIterator

/-! What a caller can tell about an iterator. One that agrees with plain iterators,
method by method, is a cursor over a list whatever calls are made on it, and the
documented loop visits that list. -/

namespace TmDb.Proofs
open Lib

def IterCall.refused : IterCall → IterReply
  | .valid => .valid (some false)
  | .key => .key none
  | .value => .value none
  | .next => .next none

theorem exhausted_run {scan : Scan} (empty : scan.items = []) (calls : List IterCall) :
    (iteration Scan.ops).run scan calls = (calls.map IterCall.refused, scan) := by
  induction calls with
  | nil => rfl
  | cons call calls ih =>
    have step : (iteration Scan.ops).step scan call = (IterCall.refused call, scan) := by
      cases call <;> simp [iteration, Scan.ops, Scan.valid, empty, IterCall.refused]
    rw [Machine.run_cons, step, ih]
    rfl

theorem run_refused {scan : Scan} {first : List IterCall} (invalid : ((iteration Scan.ops).run scan first).2.valid = false)
    (later : List IterCall) : ((iteration Scan.ops).run scan (first ++ later)).1 =
      ((iteration Scan.ops).run scan first).1 ++ later.map IterCall.refused := by
  have empty : ((iteration Scan.ops).run scan first).2.items = [] := by simpa [Scan.valid] using invalid
  simp only [Machine.run_append, exhausted_run empty]

variable {ι : Type}

/-- A cursor over a list, as far as any sequence of calls can tell. -/
structure CursorOver (ops : IterOps ι) (it : ι) (items : List Entry) : Prop where
  /-- Valid, Key, Value and Next answer from the entries still ahead. -/
  replies : ∀ calls, ((iteration ops).run it calls).1 = ((iteration Scan.ops).run ⟨none, none, items⟩ calls).1
  /-- Key, Value and Next panic exactly when Valid is false. -/
  panics : ∀ calls, let reached := ((iteration ops).run it calls).2
    ∃ valid, (ops.valid reached).1 = some valid ∧ ((ops.key reached).1 = none ↔ valid = false) ∧
      ((ops.value reached).1 = none ↔ valid = false) ∧ ((ops.next reached).1 = none ↔ valid = false)
  /-- Valid, once false, stays false. -/
  ends : ∀ calls later, (ops.valid ((iteration ops).run it calls).2).1 = some false →
    (ops.valid ((iteration ops).run it (calls ++ later)).2).1 = some false

private theorem scan_panics (scan : Scan) :
    ((Scan.ops.key scan).1 = none ↔ scan.valid = false) ∧ ((Scan.ops.value scan).1 = none ↔ scan.valid = false) ∧
      ((Scan.ops.next scan).1 = none ↔ scan.valid = false) := by
  rcases scan with ⟨start, stop, _ | ⟨entry, rest⟩⟩ <;> simp [Scan.ops, Scan.valid]

private theorem scan_bounds (start stop : Slice) (items : List Entry) (calls : List IterCall) :
    ((iteration Scan.ops).run ⟨start, stop, items⟩ calls).1 = ((iteration Scan.ops).run ⟨none, none, items⟩ calls).1 := by
  have same : (iteration Scan.ops).Simulates (iteration Scan.ops) fun first second => first.items = second.items := by
    rintro ⟨start, stop, items⟩ ⟨other, above, _⟩ call rfl
    cases call <;> cases items <;> simp [iteration, Scan.ops, Scan.valid]
  have initial : (⟨start, stop, items⟩ : Scan).items = (⟨none, none, items⟩ : Scan).items := rfl
  exact (same.run initial calls).1

theorem CursorOver.of_simulates {ops : IterOps ι} {related : ι → Scan → Prop}
    (simulates : (iteration ops).Simulates (iteration Scan.ops) related) {it : ι} {scan : Scan} (initial : related it scan) :
    CursorOver ops it scan.items := by
  have reach : ∀ calls, related ((iteration ops).run it calls).2 ((iteration Scan.ops).run scan calls).2 :=
    fun calls => (simulates.run initial calls).2
  have answer : ∀ {reached plain}, related reached plain → (ops.valid reached).1 = some plain.valid ∧
      (ops.key reached).1 = (Scan.ops.key plain).1 ∧ (ops.value reached).1 = (Scan.ops.value plain).1 ∧
        (ops.next reached).1 = (Scan.ops.next plain).1 := fun same =>
    ⟨IterReply.valid.inj (simulates _ _ .valid same).1, IterReply.key.inj (simulates _ _ .key same).1,
      IterReply.value.inj (simulates _ _ .value same).1, IterReply.next.inj (simulates _ _ .next same).1⟩
  refine ⟨fun calls => ?_, fun calls => ?_, fun calls later => ?_⟩
  · exact (simulates.run initial calls).1.trans (scan_bounds scan.start scan.stop scan.items calls)
  · obtain ⟨valid, key, value, next⟩ := answer (reach calls)
    refine ⟨_, valid, ?_⟩
    rw [key, value, next]
    exact scan_panics _
  · rw [(answer (reach calls)).1, (answer (reach (calls ++ later))).1, Machine.run_append]
    intro invalid
    have empty : ((iteration Scan.ops).run scan calls).2.items = [] := by simpa [Scan.valid] using invalid
    rw [exhausted_run empty]
    exact invalid

/-- Related iterators answer every method as the plain ones do, and stay related. -/
structure Scanning (ops : IterOps ι) (related : ι → Scan → Prop) : Prop where
  domain : ∀ {it scan}, related it scan → ops.domain it = Scan.ops.domain scan
  valid : ∀ {it scan}, related it scan → ∃ after, ops.valid it = (some scan.valid, after) ∧ related after scan
  key : ∀ {it scan}, related it scan → ∃ after, ops.key it = ((Scan.ops.key scan).1, after) ∧ related after scan
  value : ∀ {it scan}, related it scan → ∃ after, ops.value it = ((Scan.ops.value scan).1, after) ∧ related after scan
  next : ∀ {it scan}, related it scan →
    ∃ after, ops.next it = ((Scan.ops.next scan).1, after) ∧ related after (Scan.ops.next scan).2
  error : ∀ {it scan}, related it scan → ops.error it = none
  remaining : ∀ {it scan}, related it scan → scan.items.length ≤ ops.remaining it

namespace Scanning
variable {ops : IterOps ι} {related : ι → Scan → Prop}

theorem simulates (scanning : Scanning ops related) : (iteration ops).Simulates (iteration Scan.ops) related := by
  intro it scan call same
  cases call with
  | valid =>
    obtain ⟨after, answer, kept⟩ := scanning.valid same
    exact ⟨by simp [iteration, answer, Scan.ops], by simpa [iteration, answer, Scan.ops] using kept⟩
  | key =>
    obtain ⟨after, answer, kept⟩ := scanning.key same
    exact ⟨by simp [iteration, answer], by simpa [iteration, answer, Scan.ops] using kept⟩
  | value =>
    obtain ⟨after, answer, kept⟩ := scanning.value same
    exact ⟨by simp [iteration, answer], by simpa [iteration, answer, Scan.ops] using kept⟩
  | next =>
    obtain ⟨after, answer, kept⟩ := scanning.next same
    exact ⟨by simp [iteration, answer], by simpa [iteration, answer] using kept⟩

theorem next_cons (scanning : Scanning ops related) {it : ι} {start stop : Slice} {entry : Entry} {rest : List Entry}
    (same : related it ⟨start, stop, entry :: rest⟩) :
    ∃ after, ops.next it = (some (), after) ∧ related after ⟨start, stop, rest⟩ := scanning.next same

theorem key_cons (scanning : Scanning ops related) {it : ι} {start stop : Slice} {entry : Entry} {rest : List Entry}
    (same : related it ⟨start, stop, entry :: rest⟩) :
    ∃ after, ops.key it = (some entry.1, after) ∧ related after ⟨start, stop, entry :: rest⟩ := scanning.key same

theorem run_related (scanning : Scanning ops related) {it : ι} {scan : Scan} (initial : related it scan) (calls : List IterCall) :
    related ((iteration ops).run it calls).2 ((iteration Scan.ops).run scan calls).2 :=
  (scanning.simulates.run initial calls).2

/-- The loop visits what is ahead, and ends with nothing ahead. -/
theorem drive (scanning : Scanning ops related) {start stop : Slice} (items : List Entry) {it : ι}
    (initial : related it ⟨start, stop, items⟩) {bound : Nat} (enough : items.length < bound) :
    ∃ after, ops.drive bound it = (some items, after) ∧ related after ⟨start, stop, []⟩ := by
  induction items generalizing it bound with
  | nil =>
    obtain ⟨bound, rfl⟩ := Nat.exists_eq_add_of_lt enough
    obtain ⟨after, valid, kept⟩ := scanning.valid initial
    refine ⟨after, ?_, kept⟩
    simp [IterOps.drive, valid, andThen, Scan.valid]
  | cons entry rest ih =>
    obtain ⟨bound, rfl⟩ : ∃ less, bound = less + 1 := ⟨bound - 1, by omega⟩
    obtain ⟨first, valid, same⟩ := scanning.valid initial
    obtain ⟨second, key, same⟩ := scanning.key same
    obtain ⟨third, value, same⟩ := scanning.value same
    obtain ⟨fourth, next, same⟩ := scanning.next same
    obtain ⟨after, others, ended⟩ := ih same (by simpa using enough)
    refine ⟨after, ?_, ended⟩
    simp [IterOps.drive, valid, key, value, next, others, andThen, Scan.ops, Scan.valid]

theorem loop (scanning : Scanning ops related) {it : ι} {scan : Scan} (initial : related it scan) :
    ∃ after, ops.loop it = (some scan.items, after) ∧ ops.error after = none := by
  obtain ⟨after, visits, ended⟩ := scanning.drive scan.items initial (Nat.lt_succ_of_le (scanning.remaining initial))
  exact ⟨after, visits, scanning.error ended⟩

end Scanning

private theorem answered {α : Type} {read : ι → Scan} {result : Option α × ι} {expected : Option α × Scan}
    (same : result.map id read = expected) : ∃ after, result = (expected.1, after) ∧ expected.2 = read after := by
  subst same
  exact ⟨result.2, rfl, rfl⟩

theorem Contract.scanning {db : DB} (contract : Contract db) : Scanning db.iter fun it scan => scan = contract.cursor it where
  domain := by
    rintro it _ rfl
    exact contract.domain it
  valid := by
    rintro it _ rfl
    exact answered (contract.valid it)
  key := by
    rintro it _ rfl
    exact answered (contract.key it)
  value := by
    rintro it _ rfl
    exact answered (contract.value it)
  next := by
    rintro it _ rfl
    exact answered (contract.next it)
  error := by
    rintro it _ rfl
    exact contract.error it
  remaining := by
    rintro it _ rfl
    exact (contract.remaining it).ge

theorem opened_scan {db : DB} (contract : Contract db) {result : Option (Except Err db.Iter)} {reverse : Bool}
    {store : Store} {start stop : Slice} (read : result.map (Except.map contract.cursor) = Plain.scan reverse store start stop)
    (bounds : checkBounds start stop = .ok ()) :
    ∃ it, result = some (.ok it) ∧ (⟨start, stop, Store.scan store start stop reverse⟩ : Scan) = contract.cursor it := by
  rw [Plain.scan, bounds] at read
  rcases result with _ | _ | it
  · cases read
  · cases read
  · exact ⟨it, rfl, (Except.ok.inj (Option.some.inj read)).symm⟩

theorem opener_plain (reverse : Bool) : opener plain reverse = Plain.scan reverse := by
  cases reverse <;> rfl

theorem opener_read {db : DB} (contract : Contract db) (reverse : Bool) (state : db.State) (start stop : Slice) :
    (opener db reverse state start stop).map (Except.map contract.cursor) =
      Plain.scan reverse (contract.contents state) start stop := by
  rw [← opener_plain]
  exact Refines.opener_read contract reverse state start stop

theorem opener_scan {db : DB} (contract : Contract db) (reverse : Bool) (state : db.State) {start stop : Slice}
    (bounds : checkBounds start stop = .ok ()) :
    ∃ it, opener db reverse state start stop = some (.ok it) ∧
      (⟨start, stop, Store.scan (contract.contents state) start stop reverse⟩ : Scan) = contract.cursor it :=
  opened_scan contract (opener_read contract reverse state start stop) bounds

end TmDb.Proofs
