import Mathlib.Data.Fintype.EquivFin
import TmDb.Remote.Messages

/-! The Equal method of Stats, which looks up in both maps the keys of its receiver and
does not ask whether a key is there. -/

namespace TmDb.Proofs
open Lib

section Stats
variable {stats : Proto.Stats} (distinct : (stats.data.map Prod.fst).Nodup)

include distinct in
private theorem index_mem {entry : Bytes × Bytes} (member : entry ∈ stats.data) : stats.index entry.1 = entry.2 := by
  obtain ⟨found, here⟩ : ∃ found, (stats.data.find? fun other => other.1 == entry.1) = some found :=
    Option.isSome_iff_exists.mp (List.find?_isSome.mpr ⟨entry, member, beq_self_eq_true entry.1⟩)
  have key : found.1 = entry.1 := by simpa using List.find?_some here
  have same : found = entry := List.inj_on_of_nodup_map distinct (List.mem_of_find?_eq_some here) member key
  rw [Proto.Stats.index, here, same]
  rfl

private theorem index_missing {key : Bytes} (missing : key ∉ stats.data.map Prod.fst) : stats.index key = [] := by
  have none_found : (stats.data.find? fun entry => entry.1 == key) = none := by
    rw [List.find?_eq_none]
    intro entry member same
    exact missing (List.mem_map.mpr ⟨entry, member, by simpa using same⟩)
  rw [Proto.Stats.index, none_found]
  rfl

private theorem mem_of_index {key : Bytes} (present : stats.index key ≠ []) : (key, stats.index key) ∈ stats.data := by
  cases here : stats.data.find? fun entry => entry.1 == key with
  | none => exact absurd (by rw [Proto.Stats.index, here]; rfl) present
  | some entry =>
    have same : entry.1 = key := by simpa using List.find?_some here
    have value : stats.index key = entry.2 := by rw [Proto.Stats.index, here]; rfl
    rw [value, ← same]
    exact List.mem_of_find?_eq_some here

end Stats

private theorem equal_iff_index (this : Proto.Stats) (operand : Proto.Operand Proto.Stats) :
    Proto.Stats.equal (some this) operand = true ↔ ∃ that, operand.message = some that ∧
      this.data.length = that.data.length ∧ (∀ entry ∈ this.data, this.index entry.1 = that.index entry.1) ∧
      this.timeAt = that.timeAt ∧ this.unrecognized.bytes = that.unrecognized.bytes := by
  rcases operand with _ | (_ | that) | that | _ <;>
    simp [Proto.Stats.equal, Proto.Operand.message, List.all_eq_true, and_assoc]

/-- Statistics with the same entries. Nil and empty unknown fields are the same. -/
structure SameStats (this that : Proto.Stats) : Prop where
  entries : ∀ entry, entry ∈ this.data ↔ entry ∈ that.data
  time : this.timeAt = that.timeAt
  unrecognized : this.unrecognized.bytes = that.unrecognized.bytes

section Equal
variable {this that : Proto.Stats} {operand : Proto.Operand Proto.Stats} (given : operand.message = some that)
variable (distinct : (this.data.map Prod.fst).Nodup)
include given distinct

private theorem stats_equal_of_same (other : (that.data.map Prod.fst).Nodup) (same : SameStats this that) :
    Proto.Stats.equal (some this) operand = true := by
  have perm := (List.perm_ext_iff_of_nodup distinct.of_map other.of_map).mpr same.entries
  refine (equal_iff_index this operand).mpr ⟨that, given, perm.length_eq, ?_, same.time, same.unrecognized⟩
  intro entry member
  rw [index_mem distinct member, index_mem other ((same.entries entry).mp member)]

private theorem same_of_equal (nonempty : ∀ entry ∈ this.data, entry.2 ≠ [])
    (equal : Proto.Stats.equal (some this) operand = true) : SameStats this that := by
  obtain ⟨_, named, length, indices, time, unrecognized⟩ := (equal_iff_index this operand).mp equal
  obtain rfl := Option.some.inj (given.symm.trans named)
  have within : this.data ⊆ that.data := by
    intro entry member
    have value := (indices entry member).symm.trans (index_mem distinct member)
    have found := @mem_of_index that entry.1 (value ▸ nonempty entry member)
    rwa [value] at found
  have perm := (List.subperm_of_subset distinct.of_map within).perm_of_length_le length.ge
  exact ⟨fun entry => perm.mem_iff, time, unrecognized⟩

end Equal

/-- The same entries, but under another key where the value is empty. -/
private def renamed (this : Proto.Stats) (key other : Bytes) : Proto.Stats :=
  { this with data := this.data.map fun entry => if entry.1 = key then (other, entry.2) else entry }

section Renamed
variable {this : Proto.Stats} {key other : Bytes} (fresh : other ∉ this.data.map Prod.fst)

private theorem renamed_keys : (renamed this key other).data.map Prod.fst =
    (this.data.map Prod.fst).map fun name => if name = key then other else name := by
  simp only [renamed, List.map_map]
  apply List.map_congr_left
  intro entry _
  simp only [Function.comp_apply]
  split <;> rfl

include fresh in
private theorem renamed_distinct (distinct : (this.data.map Prod.fst).Nodup) :
    ((renamed this key other).data.map Prod.fst).Nodup := by
  rw [renamed_keys]
  refine List.Nodup.map_on ?_ distinct
  intro first left second right same
  split_ifs at same with yes no
  · rw [yes, no]
  · exact absurd (same ▸ right) fresh
  · exact absurd (same ▸ left) fresh
  · exact same

private theorem renamed_missing (apart : other ≠ key) : key ∉ (renamed this key other).data.map Prod.fst := by
  rw [renamed_keys]
  intro member
  obtain ⟨name, _, same⟩ := List.mem_map.mp member
  split_ifs at same with is
  · exact apart same
  · exact is same

private theorem mem_renamed {entry : Bytes × Bytes} (member : entry ∈ this.data) (others : entry.1 ≠ key) :
    entry ∈ (renamed this key other).data := List.mem_map.mpr ⟨entry, member, if_neg others⟩

include fresh in
private theorem equal_renamed (distinct : (this.data.map Prod.fst).Nodup) (member : (key, []) ∈ this.data) :
    Proto.Stats.equal (some this) (.pointer (some (renamed this key other))) = true := by
  have apart : other ≠ key := fun same => fresh (same ▸ List.mem_map_of_mem member)
  refine (equal_iff_index _ _).mpr ⟨_, rfl, by simp [renamed], fun entry here => ?_, rfl, rfl⟩
  rw [index_mem distinct here]
  by_cases same : entry.1 = key
  · rw [same, index_missing (renamed_missing apart)]
    exact congrArg Prod.snd (List.inj_on_of_nodup_map distinct here member same)
  · exact (index_mem (renamed_distinct fresh distinct) (mem_renamed here same)).symm

end Renamed

/-- The Equal method of Stats tells a message from everything else exactly when none of
its values is empty. -/
theorem stats_equal_exact_iff (this : Proto.Stats) (distinct : (this.data.map Prod.fst).Nodup) :
    (∀ operand : Proto.Operand Proto.Stats, (∀ that, operand.message = some that → (that.data.map Prod.fst).Nodup) →
      (Proto.Stats.equal (some this) operand = true ↔ ∃ that, operand.message = some that ∧ SameStats this that)) ↔
      ∀ entry ∈ this.data, entry.2 ≠ [] := by
  constructor
  · rintro exact_ ⟨key, value⟩ member (empty : value = [])
    subst empty
    obtain ⟨other, outside⟩ := Infinite.exists_notMem_finset (this.data.map Prod.fst).toFinset
    have fresh : other ∉ this.data.map Prod.fst := by simpa using outside
    have equal := equal_renamed fresh distinct member
    obtain ⟨_, ⟨⟩, same⟩ := (exact_ (.pointer (some (renamed this key other))) (by
      rintro _ ⟨⟩
      exact renamed_distinct fresh distinct)).mp equal
    have apart : other ≠ key := fun same => fresh (same ▸ List.mem_map_of_mem member)
    exact renamed_missing apart (List.mem_map_of_mem ((same.entries _).mp member))
  · intro nonempty operand others
    constructor
    · intro equal
      obtain ⟨that, given, _⟩ := (equal_iff_index this operand).mp equal
      exact ⟨that, given, same_of_equal given distinct nonempty equal⟩
    · rintro ⟨that, given, same⟩
      exact stats_equal_of_same given distinct (others that given) same

/-- A message without an empty value, and two that pass for the same one way only. -/
theorem stats_equal_exact_iff_memdb :
    let this : Proto.Stats := ⟨[(goString "database.type", goString "memDB")], 0, none⟩
    (∀ operand : Proto.Operand Proto.Stats, (∀ that, operand.message = some that → (that.data.map Prod.fst).Nodup) →
      (Proto.Stats.equal (some this) operand = true ↔ ∃ that, operand.message = some that ∧ SameStats this that)) ∧
    Proto.Stats.equal (some ⟨[([1], [])], 0, none⟩) (.value ⟨[([2], [7])], 0, some []⟩) = true ∧
    Proto.Stats.equal (some ⟨[([2], [7])], 0, some []⟩) (.value ⟨[([1], [])], 0, none⟩) = false :=
  ⟨(stats_equal_exact_iff _ (by decide)).mpr (by decide), by decide, by decide⟩

end TmDb.Proofs
