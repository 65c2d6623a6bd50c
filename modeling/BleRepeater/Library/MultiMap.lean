import Mathlib

/-!
# Ordered multimaps

Entries in ascending key order, where entries of one key stand in the order in
which they came.  An iterator is what is left of the entries from its position on,
so the end iterator is the empty list and no key has a lower bound of its own
behind the largest one.
-/

namespace BleRepeater

variable {κ ν : Type}

/-- Entries in ascending key order. -/
structure MultiMap (κ ν : Type) [LinearOrder κ] where
  entries : List (κ × ν)
  sorted : entries.Pairwise fun left right => left.1 ≤ right.1
  deriving DecidableEq

namespace MultiMap

variable [LinearOrder κ]

/-- The multimap without entries. -/
def empty : MultiMap κ ν :=
  ⟨[], .nil⟩

instance : Inhabited (MultiMap κ ν) := ⟨empty⟩

/-- Add an entry behind those of the same key. -/
def emplace (map : MultiMap κ ν) (key : κ) (value : ν) : MultiMap κ ν where
  entries := map.entries.filter (fun entry => entry.1 ≤ key) ++
    (key, value) :: map.entries.filter fun entry => key < entry.1
  sorted := by
    rw [List.pairwise_append]
    refine ⟨map.sorted.filter _, ?_, ?_⟩
    · refine List.pairwise_cons.mpr ⟨?_, map.sorted.filter _⟩
      intro entry member
      exact le_of_lt (by simpa using (List.mem_filter.mp member).2)
    · intro left leftMember right rightMember
      have before : left.1 ≤ key := by simpa using (List.mem_filter.mp leftMember).2
      rcases List.mem_cons.mp rightMember with here | later
      · rw [here]
        exact before
      · exact before.trans (le_of_lt (by simpa using (List.mem_filter.mp later).2))

/-- The iterator to the first entry whose key is not less. -/
def lowerBound (map : MultiMap κ ν) (key : κ) : List (κ × ν) :=
  map.entries.filter fun entry => key ≤ entry.1

/-- The iterator to the first entry of the key, and the end without one. -/
def find (map : MultiMap κ ν) (key : κ) : List (κ × ν) :=
  if map.entries.any fun entry => entry.1 == key then map.lowerBound key else []

/-- The values of a key, oldest first. -/
def equalRange (map : MultiMap κ ν) (key : κ) : List ν :=
  (map.entries.filter fun entry => entry.1 == key).map Prod.snd

/-- Remove the entries that meet a condition. -/
def eraseIf (map : MultiMap κ ν) (condition : κ → ν → Bool) : MultiMap κ ν where
  entries := map.entries.filter fun entry => !condition entry.1 entry.2
  sorted := map.sorted.filter _

/-- Remove the entries of a key. -/
def eraseKey (map : MultiMap κ ν) (key : κ) : MultiMap κ ν :=
  map.eraseIf fun other _ => other == key

/-- Remove the entry the lower bound of a key points to. -/
def eraseLowerBound (map : MultiMap κ ν) (key : κ) : MultiMap κ ν where
  entries := map.entries.filter (fun entry => entry.1 < key) ++
    (map.lowerBound key).tail
  sorted := by
    rw [List.pairwise_append]
    refine ⟨map.sorted.filter _, (map.sorted.filter _).tail, ?_⟩
    intro left leftMember right rightMember
    have before : left.1 < key := by simpa using (List.mem_filter.mp leftMember).2
    have behind : key ≤ right.1 := by
      simpa using (List.mem_filter.mp (List.mem_of_mem_tail rightMember)).2
    exact le_of_lt (before.trans_le behind)

@[simp] theorem entries_empty : (empty : MultiMap κ ν).entries = [] := rfl

@[simp] theorem mem_emplace {map : MultiMap κ ν} {key : κ} {value : ν}
    {entry : κ × ν} : entry ∈ (map.emplace key value).entries ↔
      entry = (key, value) ∨ entry ∈ map.entries := by
  simp only [emplace, List.mem_append, List.mem_cons, List.mem_filter,
    decide_eq_true_eq]
  constructor
  · rintro (⟨member, _⟩ | same | ⟨member, _⟩)
    · exact Or.inr member
    · exact Or.inl same
    · exact Or.inr member
  · rintro (same | member)
    · exact Or.inr (Or.inl same)
    · rcases le_or_gt entry.1 key with before | behind
      · exact Or.inl ⟨member, before⟩
      · exact Or.inr (Or.inr ⟨member, behind⟩)

/-- A new entry can be read off the list. -/
theorem emplace_inj {map : MultiMap κ ν} {key : κ} {value other : ν}
    (same : map.emplace key value = map.emplace key other) : value = other := by
  have entries := congrArg MultiMap.entries same
  have rest := List.append_cancel_left entries
  exact (Prod.mk.inj (List.cons.inj rest).1).2

@[simp] theorem mem_eraseIf {map : MultiMap κ ν} {condition : κ → ν → Bool}
    {entry : κ × ν} : entry ∈ (map.eraseIf condition).entries ↔
      entry ∈ map.entries ∧ condition entry.1 entry.2 = false := by
  simp [eraseIf]

@[simp] theorem mem_eraseKey {map : MultiMap κ ν} {key : κ} {entry : κ × ν} :
    entry ∈ (map.eraseKey key).entries ↔ entry ∈ map.entries ∧ entry.1 ≠ key := by
  simp [eraseKey]

@[simp] theorem mem_lowerBound {map : MultiMap κ ν} {key : κ} {entry : κ × ν} :
    entry ∈ map.lowerBound key ↔ entry ∈ map.entries ∧ key ≤ entry.1 := by
  simp [lowerBound]

/-- Removing an entry adds none. -/
theorem mem_of_mem_eraseLowerBound {map : MultiMap κ ν} {key : κ} {entry : κ × ν}
    (member : entry ∈ (map.eraseLowerBound key).entries) : entry ∈ map.entries := by
  rcases List.mem_append.mp member with before | behind
  · exact (List.mem_filter.mp before).1
  · exact (mem_lowerBound.mp (List.mem_of_mem_tail behind)).1

/-- What an iteration from `find` to the end meets. -/
theorem mem_find {map : MultiMap κ ν} {key : κ} {entry : κ × ν} :
    entry ∈ map.find key ↔
      (∃ value, (key, value) ∈ map.entries) ∧ entry ∈ map.entries ∧ key ≤ entry.1 := by
  have present : (map.entries.any fun entry => entry.1 == key) = true ↔
      ∃ value, (key, value) ∈ map.entries := by
    simp
  unfold find
  split
  · rename_i inside
    simp [present.mp inside]
  · rename_i outside
    constructor
    · intro member
      cases member
    · intro ⟨inside, _⟩
      exact absurd (present.mpr inside) outside

@[simp] theorem mem_equalRange {map : MultiMap κ ν} {key : κ} {value : ν} :
    value ∈ map.equalRange key ↔ (key, value) ∈ map.entries := by
  simp only [equalRange, List.mem_map, List.mem_filter, beq_iff_eq]
  constructor
  · rintro ⟨⟨_, _⟩, ⟨member, rfl⟩, rfl⟩
    exact member
  · intro member
    exact ⟨(key, value), ⟨member, rfl⟩, rfl⟩

/-- What meets a condition, then what does not: for a condition that only the front
of a list can meet, that is the list. -/
theorem filter_append_filter_not {α : Type} {condition : α → Bool} {items : List α}
    (front : items.Pairwise fun left right => condition right → condition left) :
    items.filter condition ++ items.filter (fun item => !condition item) = items := by
  induction items with
  | nil => rfl
  | cons item items ih =>
      obtain ⟨first, rest⟩ := List.pairwise_cons.mp front
      by_cases met : condition item
      · simp [met, ih rest]
      · have none : items.filter condition = [] := by
          rw [List.filter_eq_nil_iff]
          intro other member there
          exact met (first other member there)
        have all : items.filter (fun item => !condition item) = items := by
          rw [List.filter_eq_self]
          intro other member
          simpa using fun there => met (first other member there)
        simp [met, none, all]

/-- The entries up to a key, then those behind it. -/
theorem split_le (map : MultiMap κ ν) (key : κ) :
    map.entries.filter (fun entry => entry.1 ≤ key) ++
      map.entries.filter (fun entry => key < entry.1) = map.entries := by
  have front : map.entries.Pairwise fun left right =>
      decide (right.1 ≤ key) → decide (left.1 ≤ key) :=
    map.sorted.imp fun ascending before => by
      simp only [decide_eq_true_eq] at before ⊢
      exact ascending.trans before
  simpa [← decide_not] using filter_append_filter_not front

/-- The entries in front of the lower bound of a key, then those from it on. -/
theorem split_lowerBound (map : MultiMap κ ν) (key : κ) :
    map.entries.filter (fun entry => entry.1 < key) ++ map.lowerBound key =
      map.entries := by
  have front : map.entries.Pairwise fun left right =>
      decide (right.1 < key) → decide (left.1 < key) :=
    map.sorted.imp fun ascending before => by
      simp only [decide_eq_true_eq] at before ⊢
      exact ascending.trans_lt before
  simpa [lowerBound, ← decide_not] using filter_append_filter_not front

/-- A new entry comes last among those of its key and leaves other keys alone. -/
theorem equalRange_emplace {map : MultiMap κ ν} {key other : κ} {value : ν} :
    (map.emplace key value).equalRange other =
      if other = key then map.equalRange other ++ [value] else map.equalRange other := by
  have split := congrArg (List.filter fun entry => entry.1 == other) (map.split_le key)
  rw [List.filter_append] at split
  simp only [equalRange, emplace, List.filter_append, List.filter_cons]
  by_cases same : other = key
  · subst same
    have behind : (map.entries.filter fun entry => other < entry.1).filter
        (fun entry => entry.1 == other) = [] := by
      rw [List.filter_eq_nil_iff]
      intro entry member here
      have later : other < entry.1 := by simpa using (List.mem_filter.mp member).2
      exact absurd (by simpa using here) (ne_of_gt later)
    rw [behind, List.append_nil] at split
    simp [behind, split]
  · simp [same, Ne.symm same, ← split]

/-- A key without a lower bound has no entries, and neither has any key behind it. -/
theorem lowerBound_eq_nil_iff {map : MultiMap κ ν} {key : κ} :
    map.lowerBound key = [] ↔
      map.equalRange key = [] ∧ ∀ other, key < other → map.equalRange other = [] := by
  simp only [lowerBound, equalRange, List.filter_eq_nil_iff, List.map_eq_nil_iff,
    decide_eq_true_eq, beq_iff_eq]
  constructor
  · intro none
    constructor
    · rintro entry member rfl
      exact none entry member le_rfl
    · rintro other behind entry member rfl
      exact none entry member behind.le
  · rintro ⟨here, behind⟩ entry member above
    rcases above.eq_or_lt with same | later
    · exact here entry member same.symm
    · exact behind entry.1 later entry member rfl

/-- The lower bound of a key points to the oldest entry of the first key from there on. -/
theorem equalRange_of_lowerBound {map : MultiMap κ ν} {key first : κ} {value : ν}
    {rest : List (κ × ν)} (bound : map.lowerBound key = (first, value) :: rest) :
    key ≤ first ∧ map.equalRange first = value :: (map.eraseLowerBound key).equalRange first ∧
      (∀ other, other ≠ first →
        (map.eraseLowerBound key).equalRange other = map.equalRange other) ∧
      ∀ other, key ≤ other → other < first → map.equalRange other = [] := by
  have inside : (first, value) ∈ map.lowerBound key := by simp [bound]
  have above : key ≤ first := (mem_lowerBound.mp inside).2
  have split := map.split_lowerBound key
  have front : (map.entries.filter fun entry => entry.1 < key).filter
      (fun entry => entry.1 == first) = [] := by
    rw [List.filter_eq_nil_iff]
    intro entry member here
    have before : entry.1 < key := by simpa using (List.mem_filter.mp member).2
    exact absurd (by simpa using here) (before.trans_le above).ne
  have ascending : ((first, value) :: rest).Pairwise fun left right => left.1 ≤ right.1 :=
    bound ▸ map.sorted.filter _
  have whole : ∀ other, map.equalRange other =
      ((map.entries.filter fun entry => entry.1 < key).filter
          fun entry => entry.1 == other).map Prod.snd ++
        (((first, value) :: rest).filter fun entry => entry.1 == other).map Prod.snd := by
    intro other
    rw [← List.map_append, ← List.filter_append, ← bound, split]
    rfl
  refine ⟨above, ?_, ?_, ?_⟩
  · rw [whole, front]
    simp [equalRange, eraseLowerBound, bound, front]
  · intro other different
    rw [whole]
    simp [equalRange, eraseLowerBound, bound, Ne.symm different]
  · intro other reached before
    rw [equalRange, List.map_eq_nil_iff, List.filter_eq_nil_iff]
    intro entry member here
    have same : entry.1 = other := by simpa using here
    have member : entry ∈ map.lowerBound key := mem_lowerBound.mpr ⟨member, same ▸ reached⟩
    rw [bound] at member
    rcases List.mem_cons.mp member with rfl | later
    · exact before.ne' same
    · have behind := (List.pairwise_cons.mp ascending).1 entry later
      exact absurd (same ▸ before) behind.not_gt

end MultiMap

end BleRepeater
