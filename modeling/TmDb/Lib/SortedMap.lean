import Mathlib.Data.List.Pairwise
import Mathlib.Data.List.Sort

/-! Finite maps kept as a strictly increasing list of entries. The order is part
of the type, so a scan never has to sort and two maps with the same lookups are
equal. Every operation is described by the entries it leaves. -/

namespace TmDb.Lib

structure SortedMap (κ ν : Type*) [LinearOrder κ] where
  entries : List (κ × ν)
  sorted : entries.Pairwise fun first second => first.1 < second.1
deriving DecidableEq

namespace SortedMap
variable {κ ν : Type*} [LinearOrder κ]

@[ext] theorem ext_entries {first second : SortedMap κ ν} (same : first.entries = second.entries) :
    first = second := by
  cases first
  cases second
  cases same
  rfl

theorem key_injective (map : SortedMap κ ν) {first second : κ × ν}
    (left : first ∈ map.entries) (right : second ∈ map.entries) (same : first.1 = second.1) :
    first = second := by
  have distinct : map.entries.Pairwise fun first second => first.1 = second.1 → first = second :=
    map.sorted.imp fun less equal => absurd equal less.ne
  have symmetric : Std.Symm fun first second : κ × ν => first.1 = second.1 → first = second :=
    ⟨fun _ _ agree equal => (agree equal.symm).symm⟩
  exact List.Pairwise.forall_of_forall (fun _ _ _ => rfl) distinct left right same

/-- The value at a key, read off the entry that carries it. -/
def get? (map : SortedMap κ ν) (key : κ) : Option ν :=
  (map.entries.find? fun entry => entry.1 = key).map Prod.snd

theorem get?_eq_some {map : SortedMap κ ν} {key : κ} {value : ν} :
    map.get? key = some value ↔ (key, value) ∈ map.entries := by
  constructor
  · intro found
    obtain ⟨entry, seen, rfl⟩ := Option.map_eq_some_iff.mp found
    have same : entry.1 = key := by simpa using List.find?_some seen
    exact same ▸ List.mem_of_find?_eq_some seen
  · intro member
    cases seen : map.entries.find? (fun entry => entry.1 = key) with
    | none => simpa using List.find?_eq_none.mp seen _ member
    | some entry =>
      have same : entry.1 = key := by simpa using List.find?_some seen
      have equal := map.key_injective (List.mem_of_find?_eq_some seen) member same
      simp [get?, seen, equal]

theorem get?_eq_none {map : SortedMap κ ν} {key : κ} :
    map.get? key = none ↔ ∀ value, (key, value) ∉ map.entries := by
  simp only [Option.eq_none_iff_forall_ne_some, ne_eq, get?_eq_some]

/-- Maps that answer every lookup alike are the same map. -/
theorem ext_get? {first second : SortedMap κ ν} (same : ∀ key, first.get? key = second.get? key) :
    first = second := by
  apply ext_entries
  have irreflexive : Std.Irrefl fun first second : κ × ν => first.1 < second.1 := ⟨fun _ => lt_irrefl _⟩
  have antisymmetric : Std.Antisymm fun first second : κ × ν => first.1 < second.1 :=
    ⟨fun _ _ less more => absurd less more.asymm⟩
  apply first.sorted.eq_of_mem_iff second.sorted
  intro ⟨key, value⟩
  simp only [← get?_eq_some, same]

def empty : SortedMap κ ν := ⟨[], .nil⟩

@[simp] theorem get?_empty (key : κ) : (empty : SortedMap κ ν).get? key = none := rfl

/-- Keep the entries whose key passes a test. -/
def filter (map : SortedMap κ ν) (test : κ → Bool) : SortedMap κ ν :=
  ⟨map.entries.filter fun entry => test entry.1, map.sorted.filter _⟩

theorem get?_filter (map : SortedMap κ ν) (test : κ → Bool) (key : κ) :
    (map.filter test).get? key = if test key then map.get? key else none := by
  split
  next passes =>
    apply Option.ext
    intro value
    simp only [get?_eq_some, filter, List.mem_filter, passes, and_true]
  next fails =>
    rw [get?_eq_none]
    intro value member
    exact fails (List.mem_filter.mp member).2

def erase (map : SortedMap κ ν) (key : κ) : SortedMap κ ν :=
  map.filter fun other => other ≠ key

theorem get?_erase (map : SortedMap κ ν) (key other : κ) :
    (map.erase key).get? other = if other = key then none else map.get? other := by
  simp only [erase, get?_filter, decide_eq_true_eq, ite_not]

def insertEntry (key : κ) (value : ν) : List (κ × ν) → List (κ × ν)
  | [] => [(key, value)]
  | head :: rest =>
    if key < head.1 then (key, value) :: head :: rest
    else if key = head.1 then (key, value) :: rest
    else head :: insertEntry key value rest

private theorem insertEntry_above {key bound : κ} {value : ν} {entries : List (κ × ν)}
    (above : ∀ entry ∈ entries, bound < entry.1) (less : bound < key) :
    ∀ entry ∈ insertEntry key value entries, bound < entry.1 := by
  induction entries with
  | nil => simpa [insertEntry] using less
  | cons head rest ih =>
    simp only [List.forall_mem_cons] at above
    simp only [insertEntry]
    split
    · exact List.forall_mem_cons.mpr ⟨less, List.forall_mem_cons.mpr above⟩
    · split
      · exact List.forall_mem_cons.mpr ⟨less, above.2⟩
      · exact List.forall_mem_cons.mpr ⟨above.1, ih above.2⟩

private theorem insertEntry_sorted (key : κ) (value : ν) {entries : List (κ × ν)}
    (sorted : entries.Pairwise fun first second => first.1 < second.1) :
    (insertEntry key value entries).Pairwise fun first second => first.1 < second.1 := by
  induction entries with
  | nil => simp [insertEntry]
  | cons head rest ih =>
    obtain ⟨above, tail⟩ := List.pairwise_cons.mp sorted
    simp only [insertEntry]
    split
    next less =>
      refine List.pairwise_cons.mpr ⟨?_, sorted⟩
      simpa using ⟨less, fun other value member => less.trans (above (other, value) member)⟩
    next notLess =>
      split
      next same => exact List.pairwise_cons.mpr ⟨fun entry member => same ▸ above entry member, tail⟩
      next different =>
        have more : head.1 < key := lt_of_le_of_ne (not_lt.mp notLess) (Ne.symm different)
        exact List.pairwise_cons.mpr ⟨insertEntry_above above more, ih tail⟩

def insert (map : SortedMap κ ν) (key : κ) (value : ν) : SortedMap κ ν :=
  ⟨insertEntry key value map.entries, insertEntry_sorted key value map.sorted⟩

private theorem find?_insertEntry (key other : κ) (value : ν) {entries : List (κ × ν)}
    (sorted : entries.Pairwise fun first second => first.1 < second.1) :
    (insertEntry key value entries).find? (fun entry => entry.1 = other) =
      if other = key then some (key, value) else entries.find? fun entry => entry.1 = other := by
  induction entries with
  | nil => by_cases same : other = key <;> simp [insertEntry, same, Ne.symm]
  | cons head rest ih =>
    obtain ⟨above, tail⟩ := List.pairwise_cons.mp sorted
    simp only [insertEntry]
    split
    · by_cases same : other = key
      · simp [same]
      · simp [same, Ne.symm same]
    · split
      next equal =>
        by_cases same : other = key
        · simp [same]
        · simp [same, Ne.symm same, ← equal]
      next different =>
        rw [List.find?_cons, List.find?_cons, ih tail]
        by_cases same : other = key
        · simp [same, Ne.symm different]
        · simp [same]

theorem get?_insert (map : SortedMap κ ν) (key other : κ) (value : ν) :
    (map.insert key value).get? other = if other = key then some value else map.get? other := by
  simp only [get?, insert, find?_insertEntry key other value map.sorted]
  split <;> rfl

end SortedMap
end TmDb.Lib
