import Mathlib

/-!
# Ordered maps

Maps as lists of entries in strictly ascending key order, the order in which they
are iterated.  The order is part of the structure, so a key has at most one entry
and looking it up finds exactly that entry.
-/

namespace BleRepeater

variable {κ ν : Type}

/-- Entries in strictly ascending key order. -/
structure OrderedMap (κ ν : Type) [LinearOrder κ] where
  entries : List (κ × ν)
  sorted : entries.Pairwise fun left right => left.1 < right.1
  deriving DecidableEq

namespace OrderedMap

variable [LinearOrder κ]

/-- The map without entries. -/
def empty : OrderedMap κ ν :=
  ⟨[], .nil⟩

instance : Inhabited (OrderedMap κ ν) := ⟨empty⟩

/-- The value under a key. -/
def find? (map : OrderedMap κ ν) (key : κ) : Option ν :=
  (map.entries.find? fun entry => entry.1 == key).map Prod.snd

/-- Set the value under a key, in place or at the position of the key. -/
def insert (map : OrderedMap κ ν) (key : κ) (value : ν) : OrderedMap κ ν where
  entries := map.entries.filter (fun entry => entry.1 < key) ++
    (key, value) :: map.entries.filter fun entry => key < entry.1
  sorted := by
    rw [List.pairwise_append]
    refine ⟨map.sorted.filter _, ?_, ?_⟩
    · refine List.pairwise_cons.mpr ⟨?_, map.sorted.filter _⟩
      intro entry member
      simpa using (List.mem_filter.mp member).2
    · intro left leftMember right rightMember
      have before : left.1 < key := by simpa using (List.mem_filter.mp leftMember).2
      rcases List.mem_cons.mp rightMember with here | later
      · rw [here]
        exact before
      · exact before.trans (by simpa using (List.mem_filter.mp later).2)

/-- Change the value under a key where it is. -/
def modify (map : OrderedMap κ ν) (key : κ) (change : ν → ν) : OrderedMap κ ν where
  entries := map.entries.map fun entry =>
    if entry.1 = key then (entry.1, change entry.2) else entry
  sorted := by
    rw [List.pairwise_map]
    refine map.sorted.imp fun ascending => ?_
    split <;> split <;> exact ascending

/-- Change every value. -/
def mapValues (map : OrderedMap κ ν) (change : ν → ν) : OrderedMap κ ν where
  entries := map.entries.map fun entry => (entry.1, change entry.2)
  sorted := by
    rw [List.pairwise_map]
    exact map.sorted

/-- Remove the entries that meet a condition. -/
def eraseIf (map : OrderedMap κ ν) (condition : κ → ν → Bool) : OrderedMap κ ν where
  entries := map.entries.filter fun entry => !condition entry.1 entry.2
  sorted := map.sorted.filter _

/-- Remove the entry under a key. -/
def erase (map : OrderedMap κ ν) (key : κ) : OrderedMap κ ν :=
  map.eraseIf fun other _ => other == key

/-- The first entry behind a key. -/
def next? (map : OrderedMap κ ν) (key : κ) : Option (κ × ν) :=
  map.entries.find? fun entry => decide (key < entry.1)

@[simp] theorem entries_empty : (empty : OrderedMap κ ν).entries = [] := rfl

@[simp] theorem find?_empty (key : κ) : (empty : OrderedMap κ ν).find? key = none := rfl

@[simp] theorem mem_eraseIf {map : OrderedMap κ ν} {condition : κ → ν → Bool}
    {entry : κ × ν} : entry ∈ (map.eraseIf condition).entries ↔
      entry ∈ map.entries ∧ condition entry.1 entry.2 = false := by
  simp [eraseIf]

/-- Setting a value adds its entry and replaces the one under the key. -/
@[simp] theorem mem_insert {map : OrderedMap κ ν} {key : κ} {value : ν}
    {entry : κ × ν} : entry ∈ (map.insert key value).entries ↔
      entry = (key, value) ∨ entry ∈ map.entries ∧ entry.1 ≠ key := by
  simp only [insert, List.mem_append, List.mem_cons, List.mem_filter,
    decide_eq_true_eq]
  constructor
  · rintro (⟨member, before⟩ | same | ⟨member, behind⟩)
    · exact Or.inr ⟨member, ne_of_lt before⟩
    · exact Or.inl same
    · exact Or.inr ⟨member, ne_of_gt behind⟩
  · rintro (same | ⟨member, other⟩)
    · exact Or.inr (Or.inl same)
    · rcases lt_or_gt_of_ne other with before | behind
      · exact Or.inl ⟨member, before⟩
      · exact Or.inr (Or.inr ⟨member, behind⟩)

/-- A key has one entry. -/
theorem eq_of_mem {map : OrderedMap κ ν} {left right : κ × ν}
    (leftMember : left ∈ map.entries) (rightMember : right ∈ map.entries)
    (same : left.1 = right.1) : left = right := by
  by_contra different
  have keysDiffer : map.entries.Pairwise fun first second => first.1 ≠ second.1 :=
    map.sorted.imp fun less => ne_of_lt less
  have symmetric : Std.Symm fun first second : κ × ν => first.1 ≠ second.1 :=
    ⟨fun _ _ apart => apart.symm⟩
  exact keysDiffer.forall leftMember rightMember different same

/-- Looking up finds the entry under the key. -/
theorem find?_eq_some_iff {map : OrderedMap κ ν} {key : κ} {value : ν} :
    map.find? key = some value ↔ (key, value) ∈ map.entries := by
  constructor
  · intro found
    obtain ⟨entry, search, rfl⟩ := Option.map_eq_some_iff.mp found
    have key_eq : entry.1 = key := by simpa using List.find?_some search
    have member := List.mem_of_find?_eq_some search
    rw [← key_eq]
    exact member
  · intro member
    cases search : map.entries.find? fun entry => entry.1 == key with
    | none =>
        have absent := List.find?_eq_none.mp search (key, value) member
        simp at absent
    | some entry =>
        have key_eq : entry.1 = key := by simpa using List.find?_some search
        have same := eq_of_mem (List.mem_of_find?_eq_some search) member key_eq
        simp [find?, search, same]

theorem find?_eq_none_iff {map : OrderedMap κ ν} {key : κ} :
    map.find? key = none ↔ ∀ entry ∈ map.entries, entry.1 ≠ key := by
  simp [find?]

theorem find?_isSome_iff {map : OrderedMap κ ν} {key : κ} :
    (map.find? key).isSome ↔ ∃ value, (key, value) ∈ map.entries := by
  simp only [Option.isSome_iff_exists, find?_eq_some_iff]

/-- Setting a value changes what is found under its key only. -/
theorem find?_insert {map : OrderedMap κ ν} {key other : κ} {value : ν} :
    (map.insert key value).find? other =
      if other = key then some value else map.find? other := by
  split
  · rename_i same
    rw [find?_eq_some_iff, mem_insert, same]
    exact Or.inl rfl
  · rename_i different
    cases found : map.find? other with
    | none =>
        rw [find?_eq_none_iff] at found ⊢
        intro entry member
        rcases mem_insert.mp member with rfl | ⟨old, _⟩
        · exact Ne.symm different
        · exact found entry old
    | some value =>
        rw [find?_eq_some_iff] at found ⊢
        exact mem_insert.mpr (Or.inr ⟨found, different⟩)

@[simp] theorem find?_insert_self {map : OrderedMap κ ν} {key : κ} {value : ν} :
    (map.insert key value).find? key = some value := by
  simp [find?_insert]

theorem find?_insert_of_ne {map : OrderedMap κ ν} {key other : κ} {value : ν}
    (different : other ≠ key) : (map.insert key value).find? other = map.find? other := by
  simp [find?_insert, different]

theorem find?_modify {map : OrderedMap κ ν} {key other : κ} {change : ν → ν} :
    (map.modify key change).find? other =
      if other = key then (map.find? other).map change else map.find? other := by
  have sameKey : ((fun entry : κ × ν => entry.1 == other) ∘ fun entry =>
      if entry.1 = key then (entry.1, change entry.2) else entry) =
        fun entry => entry.1 == other := by
    funext entry
    simp only [Function.comp_apply]
    split <;> rfl
  simp only [find?, modify, List.find?_map, sameKey, Option.map_map]
  cases search : map.entries.find? fun entry => entry.1 == other with
  | none => simp
  | some entry =>
      have here : entry.1 = other := by simpa using List.find?_some search
      by_cases same : other = key <;> simp [here, same]

theorem find?_mapValues {map : OrderedMap κ ν} {key : κ} {change : ν → ν} :
    (map.mapValues change).find? key = (map.find? key).map change := by
  simp only [find?, mapValues, List.find?_map, Option.map_map]
  rfl

/-- A change that another one forgets is forgotten. -/
theorem mapValues_modify {map : OrderedMap κ ν} {key : κ} {change forget : ν → ν}
    (forgotten : ∀ value, forget (change value) = forget value) :
    (map.modify key change).mapValues forget = map.mapValues forget := by
  simp only [mapValues, modify, List.map_map, OrderedMap.mk.injEq]
  apply List.map_congr_left
  intro entry _
  simp only [Function.comp_apply]
  split <;> simp [forgotten]

/-- Removal keeps what is found and does not meet the condition. -/
theorem find?_eraseIf {map : OrderedMap κ ν} {condition : κ → ν → Bool} {key : κ}
    {value : ν} : (map.eraseIf condition).find? key = some value ↔
      map.find? key = some value ∧ condition key value = false := by
  simp [find?_eq_some_iff]

/-- Removal of a key keeps what is found under the others. -/
theorem find?_erase {map : OrderedMap κ ν} {key other : κ} {value : ν} :
    (map.erase key).find? other = some value ↔ map.find? other = some value ∧ other ≠ key := by
  simp [erase, find?_eraseIf]

/-- The first entry has the least key. -/
theorem le_of_head? {map : OrderedMap κ ν} {first entry : κ × ν}
    (found : map.entries.head? = some first) (member : entry ∈ map.entries) :
    first.1 ≤ entry.1 := by
  obtain ⟨rest, split⟩ := List.head?_eq_some_iff.mp found
  have sorted := map.sorted
  rw [split] at sorted member
  rcases List.mem_cons.mp member with rfl | behind
  · exact le_refl _
  · exact le_of_lt ((List.pairwise_cons.mp sorted).1 entry behind)

/-- The first entry behind a key is there, behind the key, and in front of all others that
are. -/
theorem next?_spec {map : OrderedMap κ ν} {key : κ} {next : κ × ν}
    (found : map.next? key = some next) : next ∈ map.entries ∧ key < next.1 ∧
      ∀ entry ∈ map.entries, key < entry.1 → next.1 ≤ entry.1 := by
  obtain ⟨behind, front, rest, split, passed⟩ := List.find?_eq_some_iff_append.mp found
  have sorted := map.sorted
  rw [split, List.pairwise_append] at sorted
  refine ⟨by simp [split], of_decide_eq_true behind, ?_⟩
  intro entry member further
  rw [split, List.mem_append, List.mem_cons] at member
  rcases member with early | rfl | late
  · have := passed entry early
    simp [further] at this
  · exact le_refl _
  · exact le_of_lt ((List.pairwise_cons.mp sorted.2.1).1 entry late)

theorem next?_eq_none_iff {map : OrderedMap κ ν} {key : κ} :
    map.next? key = none ↔ ∀ entry ∈ map.entries, ¬ key < entry.1 := by
  simp [next?]

end OrderedMap

/-! ## Machine words as keys -/

instance linearOrderUInt16 : LinearOrder UInt16 where
  le_refl := UInt16.le_refl
  le_trans _ _ _ := UInt16.le_trans
  le_antisymm _ _ := UInt16.le_antisymm
  le_total := UInt16.le_total
  lt_iff_le_not_ge left right := by
    simp only [UInt16.lt_iff_toNat_lt, UInt16.le_iff_toNat_le]
    omega
  toDecidableLE := inferInstance
  toDecidableEq := inferInstance
  toDecidableLT := inferInstance

instance linearOrderUInt64 : LinearOrder UInt64 where
  le_refl := UInt64.le_refl
  le_trans _ _ _ := UInt64.le_trans
  le_antisymm _ _ := UInt64.le_antisymm
  le_total := UInt64.le_total
  lt_iff_le_not_ge left right := by
    simp only [UInt64.lt_iff_toNat_lt, UInt64.le_iff_toNat_le]
    omega
  toDecidableLE := inferInstance
  toDecidableEq := inferInstance
  toDecidableLT := inferInstance

instance linearOrderUInt8 : LinearOrder UInt8 where
  le_refl := UInt8.le_refl
  le_trans _ _ _ := UInt8.le_trans
  le_antisymm _ _ := UInt8.le_antisymm
  le_total := UInt8.le_total
  lt_iff_le_not_ge left right := by
    simp only [UInt8.lt_iff_toNat_lt, UInt8.le_iff_toNat_le]
    omega
  toDecidableLE := inferInstance
  toDecidableEq := inferInstance
  toDecidableLT := inferInstance

end BleRepeater
