import TmDb.Proofs.Iteration
import TmDb.Proofs.PrefixRange

/-! A prefix iterator over any source of distinct keys is a plain iterator over what
`visited` keeps of the source. The error branch of Valid is never taken, and the
key equal to the prefix is skipped wherever it turns up. -/

namespace TmDb.Proofs
open Lib

variable {ι : Type}

/-- What a prefix iterator still yields, by where its source stands. -/
inductive Stands (related : ι → Scan → Prop) : PrefixIter ι → Scan → Prop where
  | on {pfx start stop source low high entry rest} (at_ : related source ⟨low, high, entry :: rest⟩)
      (distinct : ((entry :: rest).map Prod.fst).Nodup) (starts : pfx <+: entry.1) (proper : entry.1 ≠ pfx) :
      Stands related ⟨pfx, start, stop, source, true, none⟩ ⟨start, stop, visited pfx (entry :: rest)⟩
  | off {pfx start stop source scan} (at_ : related source scan) :
      Stands related ⟨pfx, start, stop, source, false, none⟩ ⟨start, stop, []⟩

theorem visited_cons {pfx : Bytes} {entry : Entry} (starts : pfx <+: entry.1) (proper : entry.1 ≠ pfx) (rest : List Entry) :
    visited pfx (entry :: rest) = (entry.1.drop pfx.length, entry.2) :: visited pfx rest := by
  have passes := List.isPrefixOf_iff_prefix.mpr starts
  simp [visited, strip, passes, proper]

theorem visited_exact (pfx value : Bytes) (rest : List Entry) : visited pfx ((pfx, value) :: rest) = visited pfx rest := by
  have passes : pfx.isPrefixOf pfx = true := List.isPrefixOf_iff_prefix.mpr List.prefix_rfl
  simp [visited, strip, passes]

theorem visited_foreign {pfx : Bytes} {entry : Entry} (foreign : ¬ pfx <+: entry.1) (rest : List Entry) :
    visited pfx (entry :: rest) = [] := by
  rw [← List.isPrefixOf_iff_prefix] at foreign
  simp [visited, strip, foreign]

private theorem head_differs {key : Bytes} {items : List Entry} (absent : key ∉ items.map Prod.fst) :
    ∀ entry ∈ items.head?, entry.1 ≠ key := by
  rintro entry member rfl
  exact absent (List.mem_map_of_mem (List.mem_of_mem_head? member))

section Methods
variable {ops : IterOps ι} {related : ι → Scan → Prop} (scanning : Scanning ops related)
variable {pfx : Bytes} (start stop : Slice) {low high : Slice} {source : ι} {entry : Entry} {rest : List Entry}
include scanning

private theorem isValid_on (at_ : related source ⟨low, high, entry :: rest⟩) (starts : pfx <+: entry.1) :
    ∃ after, PrefixIter.isValid ops ⟨pfx, start, stop, source, true, none⟩ =
      (some true, ⟨pfx, start, stop, after, true, none⟩) ∧ related after ⟨low, high, entry :: rest⟩ := by
  obtain ⟨first, valid, kept⟩ := scanning.valid at_
  obtain ⟨second, key, kept⟩ := scanning.key_cons kept
  have long : ¬ entry.1.length < pfx.length := not_lt.mpr starts.length_le
  have same : entry.1.take pfx.length = pfx := (List.prefix_iff_eq_take.mp starts).symm
  refine ⟨second, ?_, kept⟩
  simp [PrefixIter.isValid, PrefixIter.onSource, andThen, valid, key, Scan.valid, long, same]

theorem assertIsValid_on (at_ : related source ⟨low, high, entry :: rest⟩) (starts : pfx <+: entry.1) :
    ∃ after, PrefixIter.assertIsValid ops ⟨pfx, start, stop, source, true, none⟩ =
      (some (), ⟨pfx, start, stop, after, true, none⟩) ∧ related after ⟨low, high, entry :: rest⟩ := by
  obtain ⟨after, valid, kept⟩ := isValid_on scanning start stop at_ starts
  exact ⟨after, by simp [PrefixIter.assertIsValid, valid, andThen], kept⟩

private theorem next_asks (at_ : related source ⟨low, high, entry :: rest⟩) (starts : pfx <+: entry.1) :
    ∃ after, related after ⟨low, high, rest⟩ ∧ ∀ bound,
      PrefixIter.next ops (bound + 1) ⟨pfx, start, stop, source, true, none⟩ =
        if rest.isEmpty then (some (), ⟨pfx, start, stop, after, false, none⟩)
        else andThen (PrefixIter.onSource ⟨pfx, start, stop, after, true, none⟩ (ops.key after)) fun key it =>
          if !it.pfx.isPrefixOf key then (some (), { it with valid := false })
          else andThen (it.onSource (ops.key it.source)) fun key it =>
            if key = it.pfx then PrefixIter.next ops bound it else (some (), it) := by
  obtain ⟨asserted, valid, kept⟩ := assertIsValid_on scanning start stop at_ starts
  obtain ⟨moved, next, kept⟩ := scanning.next_cons kept
  obtain ⟨checked, again, kept⟩ := scanning.valid kept
  refine ⟨checked, kept, fun bound => ?_⟩
  cases empty : rest.isEmpty <;>
    simp [PrefixIter.next, PrefixIter.onSource, andThen, valid, next, again, Scan.valid, empty]

private theorem next_ends (at_ : related source ⟨low, high, entry :: rest⟩) (starts : pfx <+: entry.1)
    (last : ∀ following ∈ rest.head?, ¬ pfx <+: following.1) :
    ∃ after, related after ⟨low, high, rest⟩ ∧ ∀ bound,
      PrefixIter.next ops (bound + 1) ⟨pfx, start, stop, source, true, none⟩ =
        (some (), ⟨pfx, start, stop, after, false, none⟩) := by
  obtain ⟨moved, kept, asks⟩ := next_asks scanning start stop at_ starts
  cases rest with
  | nil => exact ⟨moved, kept, asks⟩
  | cons following others =>
    obtain ⟨read, key, kept⟩ := scanning.key_cons kept
    have foreign := last following rfl
    rw [← List.isPrefixOf_iff_prefix] at foreign
    refine ⟨read, kept, fun bound => (asks bound).trans ?_⟩
    simp [PrefixIter.onSource, andThen, key, foreign]

private theorem next_reaches {following : Entry} {others : List Entry}
    (at_ : related source ⟨low, high, entry :: following :: others⟩) (starts : pfx <+: entry.1)
    (again : pfx <+: following.1) :
    ∃ after, related after ⟨low, high, following :: others⟩ ∧ ∀ bound,
      PrefixIter.next ops (bound + 1) ⟨pfx, start, stop, source, true, none⟩ =
        if following.1 = pfx then PrefixIter.next ops bound ⟨pfx, start, stop, after, true, none⟩
        else (some (), ⟨pfx, start, stop, after, true, none⟩) := by
  obtain ⟨moved, kept, asks⟩ := next_asks scanning start stop at_ starts
  obtain ⟨read, key, kept⟩ := scanning.key_cons kept
  obtain ⟨reread, key', kept⟩ := scanning.key_cons kept
  have passes := List.isPrefixOf_iff_prefix.mpr again
  refine ⟨reread, kept, fun bound => (asks bound).trans ?_⟩
  simp [PrefixIter.onSource, andThen, key, key', passes]

private theorem next_once (at_ : related source ⟨low, high, entry :: rest⟩) (starts : pfx <+: entry.1)
    (distinct : (rest.map Prod.fst).Nodup) (absent : ∀ following ∈ rest.head?, following.1 ≠ pfx) :
    ∃ after, (∀ bound, PrefixIter.next ops (bound + 1) ⟨pfx, start, stop, source, true, none⟩ = (some (), after)) ∧
      Stands related after ⟨start, stop, visited pfx rest⟩ := by
  cases rest with
  | nil =>
    obtain ⟨after, kept, ends⟩ := next_ends scanning start stop at_ starts (by simp)
    exact ⟨_, ends, .off kept⟩
  | cons following others =>
    by_cases again : pfx <+: following.1
    · have proper : following.1 ≠ pfx := absent following rfl
      obtain ⟨after, kept, reaches⟩ := next_reaches scanning start stop at_ starts again
      exact ⟨_, fun bound => (reaches bound).trans (if_neg proper), .on kept distinct again proper⟩
    · obtain ⟨after, kept, ends⟩ := next_ends scanning start stop at_ starts (by simpa using again)
      exact ⟨_, ends, visited_foreign again others ▸ .off kept⟩

/-- Next calls itself at most once, since the key equal to the prefix comes once. -/
private theorem next_on (at_ : related source ⟨low, high, entry :: rest⟩) (starts : pfx <+: entry.1)
    (distinct : (rest.map Prod.fst).Nodup) :
    ∃ after, (∀ bound, PrefixIter.next ops (bound + 2) ⟨pfx, start, stop, source, true, none⟩ = (some (), after)) ∧
      Stands related after ⟨start, stop, visited pfx rest⟩ := by
  rcases rest with _ | ⟨⟨key, value⟩, others⟩
  · obtain ⟨after, moves, stands⟩ := next_once scanning start stop at_ starts distinct (by simp)
    exact ⟨after, fun bound => moves (bound + 1), stands⟩
  · by_cases exactly : key = pfx
    · subst exactly
      obtain ⟨absent, distinct⟩ := List.nodup_cons.mp distinct
      obtain ⟨after, kept, reaches⟩ := next_reaches scanning start stop at_ starts List.prefix_rfl
      obtain ⟨last, moves, stands⟩ := next_once scanning start stop kept List.prefix_rfl distinct (head_differs absent)
      refine ⟨last, fun bound => ?_, visited_exact key value others ▸ stands⟩
      exact ((reaches (bound + 1)).trans (if_pos rfl)).trans (moves bound)
    · obtain ⟨after, moves, stands⟩ := next_once scanning start stop at_ starts distinct (by simpa using exactly)
      exact ⟨after, fun bound => moves (bound + 1), stands⟩

/-- Next has one result however many self-calls it may make, from one on. -/
theorem next_stands {it : PrefixIter ι} {scan : Scan} (stands : Stands related it scan) :
    ∃ after, (∀ bound, PrefixIter.next ops (bound + 2) it = ((Scan.ops.next scan).1, after)) ∧
      Stands related after (Scan.ops.next scan).2 := by
  cases stands with
  | on at_ distinct starts proper =>
    rw [visited_cons starts proper]
    exact next_on scanning _ _ at_ starts (List.nodup_cons.mp distinct).2
  | off at_ => exact ⟨_, fun _ => rfl, .off at_⟩

theorem next_settles {it : PrefixIter ι} {scan : Scan} (stands : Stands related it scan) (bound : Nat) :
    PrefixIter.next ops (bound + 2) it = (PrefixIter.iter ops).next it := by
  obtain ⟨after, moves, _⟩ := next_stands scanning stands
  rw [moves bound]
  cases stands with
  | on at_ distinct starts proper =>
    -- the source has an entry left, so its bound leaves room for one self-call
    have left := Nat.lt_of_lt_of_le (Nat.succ_pos _) (scanning.remaining at_)
    obtain ⟨room, same⟩ := Nat.exists_eq_succ_of_ne_zero (Nat.ne_of_gt left)
    simp only [PrefixIter.iter, same]
    exact (moves room).symm
  | off at_ => exact (moves 0).symm

private theorem skipExact_at {items : List Entry} (at_ : related source ⟨low, high, items⟩)
    (distinct : (items.map Prod.fst).Nodup) :
    ∃ after ahead, PrefixIter.skipExact ops ⟨pfx, start, stop, source, true, none⟩ =
        (some (), ⟨pfx, start, stop, after, true, none⟩) ∧ related after ⟨low, high, ahead⟩ ∧
      (ahead.map Prod.fst).Nodup ∧ visited pfx ahead = visited pfx items ∧ ∀ entry ∈ ahead.head?, entry.1 ≠ pfx := by
  obtain ⟨asked, valid, kept⟩ := scanning.valid at_
  rcases items with _ | ⟨⟨key, value⟩, rest⟩
  · refine ⟨asked, [], ?_, kept, distinct, rfl, by simp⟩
    simp [PrefixIter.skipExact, PrefixIter.onSource, andThen, valid, Scan.valid]
  · obtain ⟨read, found, kept⟩ := scanning.key_cons kept
    by_cases exactly : key = pfx
    · subst exactly
      obtain ⟨absent, distinct⟩ := List.nodup_cons.mp distinct
      obtain ⟨moved, next, kept⟩ := scanning.next_cons kept
      refine ⟨moved, rest, ?_, kept, distinct, (visited_exact key value rest).symm, head_differs absent⟩
      simp [PrefixIter.skipExact, PrefixIter.onSource, andThen, valid, Scan.valid, found, next]
    · refine ⟨read, _, ?_, kept, distinct, rfl, by simpa using exactly⟩
      simp [PrefixIter.skipExact, PrefixIter.onSource, andThen, valid, Scan.valid, found, exactly]

/-- newPrefixIterator over any source of distinct keys. -/
theorem new_stands {items : List Entry} (at_ : related source ⟨low, high, items⟩) (distinct : (items.map Prod.fst).Nodup) :
    ∃ it, PrefixIter.new ops pfx start stop source = some it ∧ Stands related it ⟨start, stop, visited pfx items⟩ := by
  obtain ⟨skipped, ahead, skips, kept, distinct, same, proper⟩ := @skipExact_at _ _ _ scanning pfx start stop _ _ _ _ at_ distinct
  obtain ⟨asked, valid, kept⟩ := scanning.valid kept
  rw [← same]
  rcases ahead with _ | ⟨entry, rest⟩
  · refine ⟨⟨pfx, start, stop, asked, false, none⟩, ?_, .off kept⟩
    simp [PrefixIter.new, PrefixIter.inside, PrefixIter.onSource, andThen, skips, valid, Scan.valid]
  · obtain ⟨read, found, kept⟩ := scanning.key_cons kept
    by_cases starts : pfx <+: entry.1
    · have passes := List.isPrefixOf_iff_prefix.mpr starts
      refine ⟨⟨pfx, start, stop, read, true, none⟩, ?_, .on kept distinct starts (proper entry rfl)⟩
      simp [PrefixIter.new, PrefixIter.inside, PrefixIter.onSource, andThen, skips, valid, Scan.valid, found, passes]
    · have fails : ¬ pfx.isPrefixOf entry.1 = true := fun passes => starts (List.isPrefixOf_iff_prefix.mp passes)
      refine ⟨⟨pfx, start, stop, read, false, none⟩, ?_, visited_foreign starts rest ▸ .off kept⟩
      simp [PrefixIter.new, PrefixIter.inside, PrefixIter.onSource, andThen, skips, valid, Scan.valid, found, fails]

theorem prefix_scanning : Scanning (PrefixIter.iter ops) (Stands related) where
  domain := by
    rintro _ _ (_ | _) <;> rfl
  valid := by
    rintro _ _ (⟨at_, distinct, starts, proper⟩ | ⟨at_⟩)
    · obtain ⟨after, valid, kept⟩ := isValid_on scanning _ _ at_ starts
      refine ⟨_, valid.trans ?_, .on kept distinct starts proper⟩
      simp [Scan.valid, visited_cons starts proper]
    · exact ⟨_, rfl, .off at_⟩
  key := by
    intro it scan stands
    cases stands with
    | @on pfx start stop _ _ _ _ _ at_ distinct starts proper =>
      obtain ⟨asserted, valid, kept⟩ := assertIsValid_on scanning start stop at_ starts
      obtain ⟨read, found, kept⟩ := scanning.key_cons kept
      refine ⟨_, ?_, .on kept distinct starts proper⟩
      simp [PrefixIter.iter, PrefixIter.key, PrefixIter.onSource, andThen, valid, found, Scan.ops, visited_cons starts proper]
    | off at_ => exact ⟨_, rfl, .off at_⟩
  value := by
    intro it scan stands
    cases stands with
    | @on pfx start stop _ _ _ _ _ at_ distinct starts proper =>
      obtain ⟨asserted, valid, kept⟩ := assertIsValid_on scanning start stop at_ starts
      obtain ⟨read, found, kept⟩ := scanning.value kept
      refine ⟨_, ?_, .on kept distinct starts proper⟩
      simp [PrefixIter.iter, PrefixIter.value, PrefixIter.onSource, andThen, valid, found, Scan.ops, visited_cons starts proper]
    | off at_ => exact ⟨_, rfl, .off at_⟩
  next := by
    intro it scan stands
    obtain ⟨after, moves, kept⟩ := next_stands scanning stands
    exact ⟨after, (next_settles scanning stands 0).symm.trans (moves 0), kept⟩
  error := by
    rintro _ _ (⟨at_, _, _, _⟩ | ⟨at_⟩)
    · simp [PrefixIter.iter, PrefixIter.error, scanning.error at_]
    · simp [PrefixIter.iter, PrefixIter.error, scanning.error at_]
  remaining := by
    rintro _ _ (⟨at_, _, _, _⟩ | ⟨at_⟩)
    · refine le_trans ?_ (scanning.remaining at_)
      simp only [visited, strip, List.length_map]
      exact (List.length_filter_le _ _).trans (List.takeWhile_prefix _).length_le
    · exact Nat.zero_le _

end Methods

structure Scannable (db : DB) (contents : db.State → Store) (related : db.Iter → Scan → Prop) : Prop where
  scanning : Scanning db.iter related
  opens : ∀ state {start stop}, checkBounds start stop = .ok () → ∃ it, db.iterator state start stop = some (.ok it) ∧
    related it ⟨start, stop, Store.scan (contents state) start stop false⟩

theorem Contract.scannable {db : DB} (contract : Contract db) :
    Scannable db contract.contents fun it scan => scan = contract.cursor it where
  scanning := Contract.scanning contract
  opens state _ _ bounds := opened_scan contract (contract.iterator state _ _) bounds

section Opening
variable {db : DB} {related : db.Iter → Scan → Prop} {pfx : Bytes} {start stop pend : Slice}

theorem iteratorWith_refused (db : DB) (pfx : Bytes) {method : db.State → Slice → Slice → Option (Except Err db.Iter)}
    (state : db.State) {err : Err} (bounds : checkBounds start stop = .error err) :
    PrefixDB.iteratorWith db pfx method state start stop = some (.error err) := by
  simp only [PrefixDB.iteratorWith, bounds]

theorem iteratorWith_stands (scanning : Scanning db.iter related)
    {method : db.State → Slice → Slice → Option (Except Err db.Iter)} {state : db.State}
    (bounds : checkBounds start stop = .ok ()) (made : rangeEnd pfx stop = some pend) {source : db.Iter}
    (opened : method state (some (pfx ++ start.bytes)) pend = some (.ok source)) {low high : Slice} {items : List Entry}
    (at_ : related source ⟨low, high, items⟩) (distinct : (items.map Prod.fst).Nodup) :
    ∃ it, PrefixDB.iteratorWith db pfx method state start stop = some (.ok it) ∧
      Stands related it ⟨start, stop, visited pfx items⟩ := by
  obtain ⟨it, new, stands⟩ := @new_stands _ _ _ scanning pfx start stop _ _ _ _ at_ distinct
  refine ⟨it, ?_, stands⟩
  have parent : method state (some (cp (some pfx) ++ start.bytes)) pend = some (.ok source) := opened
  cases stop with
  | none =>
    have incremented : cpIncr (some pfx) = some pend := made
    simp [PrefixDB.iteratorWith, bounds, incremented, parent, new]
  | some stop =>
    have extended : pend = some (cp (some pfx) ++ stop) := (Option.some.inj made).symm
    rw [extended] at parent
    simp [PrefixDB.iteratorWith, bounds, parent, new]

theorem scan_distinct (store : Store) (start stop : Slice) (reverse : Bool) :
    ((Store.scan store start stop reverse).map Prod.fst).Nodup := by
  rw [List.Nodup, List.pairwise_map]
  refine (Store.scan_ordered store start stop reverse).imp fun precedes => ?_
  cases reverse with
  | false => exact precedes.ne
  | true => exact precedes.ne'

theorem Scannable.prefixDB {contents : db.State → Store} (scannable : Scannable db contents related) (nonempty : pfx ≠ []) :
    Scannable (prefixDB db pfx) (fun state => under pfx (contents state)) (Stands related) where
  scanning := prefix_scanning scannable.scanning
  opens state start stop bounds := by
    obtain ⟨pend, made⟩ := rangeEnd_made nonempty stop
    obtain ⟨source, opened, at_⟩ := scannable.opens state (@checkBounds_range _ start _ _ nonempty made)
    rw [← visited_forward (contents state) nonempty made]
    exact iteratorWith_stands scannable.scanning bounds made opened at_ (scan_distinct _ _ _ _)

/-- Downwards, what the iterator yields depends on where the parent's range ends. -/
theorem reverseIterator_stands (contract : Contract db) (state : db.State) (nonempty : pfx ≠ [])
    (bounds : checkBounds start stop = .ok ()) (made : rangeEnd pfx stop = some pend) :
    ∃ it, (TmDb.prefixDB db pfx).reverseIterator state start stop = some (.ok it) ∧
      Stands (fun it scan => scan = contract.cursor it) it
        ⟨start, stop, visited pfx (Store.scan (contract.contents state) (some (pfx ++ start.bytes)) pend true)⟩ := by
  obtain ⟨source, opened, at_⟩ := opened_scan contract (contract.reverseIterator state _ _)
    (@checkBounds_range _ start _ _ nonempty made)
  exact iteratorWith_stands (Contract.scanning contract) bounds made opened at_ (scan_distinct _ _ _ _)

end Opening
end TmDb.Proofs
