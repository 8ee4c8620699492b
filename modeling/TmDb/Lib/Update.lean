import Mathlib.Data.List.Induction
import TmDb.Lib.SortedMap

/-! Ordered lists of set and delete operations on a sorted map. The last update
of a key decides its value, whatever came before; replaying a list, or a longer
one that extends it, is therefore absorbed. -/

namespace TmDb.Lib

inductive Update (κ ν : Type*) where
  | set (key : κ) (value : ν)
  | delete (key : κ)
deriving DecidableEq

namespace Update
variable {κ κ' ν : Type*}

def key : Update κ ν → κ
  | .set key _ => key
  | .delete key => key

/-- What the update leaves at its own key. -/
def result : Update κ ν → Option ν
  | .set _ value => some value
  | .delete _ => none

def mapKey (f : κ → κ') : Update κ ν → Update κ' ν
  | .set key value => .set (f key) value
  | .delete key => .delete (f key)

@[simp] theorem mapKey_key (f : κ → κ') (update : Update κ ν) : (update.mapKey f).key = f update.key := by
  cases update <;> rfl

@[simp] theorem mapKey_result (f : κ → κ') (update : Update κ ν) : (update.mapKey f).result = update.result := by
  cases update <;> rfl

end Update

namespace SortedMap
variable {κ ν : Type*} [LinearOrder κ]

def apply (map : SortedMap κ ν) : Update κ ν → SortedMap κ ν
  | .set key value => map.insert key value
  | .delete key => map.erase key

theorem get?_apply (map : SortedMap κ ν) (update : Update κ ν) (key : κ) :
    (map.apply update).get? key = if key = update.key then update.result else map.get? key := by
  cases update with
  | set other value => exact get?_insert map other key value
  | delete other => exact get?_erase map other key

/-- An update of a key that a test rejects does not show among those it accepts. -/
theorem filter_apply (map : SortedMap κ ν) {update : Update κ ν} (test : κ → Bool) (rejected : test update.key = false) :
    (map.apply update).filter test = map.filter test := by
  apply ext_get?
  intro key
  rw [get?_filter, get?_filter]
  split
  next accepted =>
    have different : key ≠ update.key := fun same => by simp [same, rejected] at accepted
    rw [get?_apply, if_neg different]
  next => rfl

def applyAll (map : SortedMap κ ν) (updates : List (Update κ ν)) : SortedMap κ ν :=
  updates.foldl apply map

@[simp] theorem applyAll_nil (map : SortedMap κ ν) : map.applyAll [] = map := rfl

@[simp] theorem applyAll_cons (map : SortedMap κ ν) (update : Update κ ν) (rest : List (Update κ ν)) :
    map.applyAll (update :: rest) = (map.apply update).applyAll rest := rfl

theorem applyAll_append (map : SortedMap κ ν) (first rest : List (Update κ ν)) :
    map.applyAll (first ++ rest) = (map.applyAll first).applyAll rest :=
  List.foldl_append

/-- The last update that a list makes to a key, if it makes any. -/
def lastAt (updates : List (Update κ ν)) (key : κ) : Option (Update κ ν) :=
  updates.reverse.find? fun update => update.key = key

theorem lastAt_append (first rest : List (Update κ ν)) (key : κ) :
    lastAt (first ++ rest) key = (lastAt rest key).or (lastAt first key) := by
  simp only [lastAt, List.reverse_append, List.find?_append]

theorem lastAt_eq_none {updates : List (Update κ ν)} {key : κ} :
    lastAt updates key = none ↔ ∀ update ∈ updates, update.key ≠ key := by
  simp [lastAt]

/-- Each key ends with its last update, and a key without one is untouched. -/
theorem get?_applyAll (map : SortedMap κ ν) (updates : List (Update κ ν)) (key : κ) :
    (map.applyAll updates).get? key =
      match lastAt updates key with
      | some update => update.result
      | none => map.get? key := by
  induction updates using List.reverseRecOn with
  | nil => rfl
  | append_singleton updates last ih =>
    rw [applyAll_append, applyAll_cons, applyAll_nil, get?_apply, lastAt_append, ih]
    by_cases same : last.key = key
    · simp [lastAt, same]
    · simp [lastAt, same, Ne.symm same]

theorem get?_applyAll_untouched (map : SortedMap κ ν) {updates : List (Update κ ν)} {key : κ}
    (untouched : ∀ update ∈ updates, update.key ≠ key) :
    (map.applyAll updates).get? key = map.get? key := by
  rw [get?_applyAll, lastAt_eq_none.mpr untouched]

/-- A list that touches every key of an earlier one makes the earlier one
invisible. A replayed list is the special case of a list that extends itself. -/
theorem applyAll_absorbs (map : SortedMap κ ν) {first second : List (Update κ ν)}
    (covered : ∀ update ∈ first, ∃ later ∈ second, later.key = update.key) :
    (map.applyAll first).applyAll second = map.applyAll second := by
  apply ext_get?
  intro key
  rw [get?_applyAll, get?_applyAll map second]
  cases seen : lastAt second key with
  | some update => rfl
  | none =>
    refine get?_applyAll_untouched map fun update member same => ?_
    obtain ⟨later, inside, equal⟩ := covered update member
    exact lastAt_eq_none.mp seen later inside (equal.trans same)

theorem applyAll_replay (map : SortedMap κ ν) (first more : List (Update κ ν)) :
    (map.applyAll first).applyAll (first ++ more) = map.applyAll (first ++ more) :=
  map.applyAll_absorbs fun update member => ⟨update, List.mem_append_left _ member, rfl⟩

/-- Updates of different keys may be exchanged. -/
theorem applyAll_apply_comm (map : SortedMap κ ν) {updates : List (Update κ ν)} {update : Update κ ν}
    (apart : ∀ other ∈ updates, other.key ≠ update.key) :
    (map.applyAll updates).apply update = (map.apply update).applyAll updates := by
  apply ext_get?
  intro key
  rw [get?_apply, get?_applyAll, get?_applyAll]
  by_cases same : key = update.key
  · subst same
    simp only [lastAt_eq_none.mpr apart, get?_apply, if_true]
  · simp only [get?_apply, same, if_false]

end SortedMap
end TmDb.Lib
