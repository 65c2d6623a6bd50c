import BleRepeater.CircularBuffer.Fullness

/-!
# Writing a string or its items

`write(const T *)` counts the items it has room for and moves the tail once;
`write(const T)` moves it item by item, by the flag that the last write left.  Both put the
items into the same cells and compute the flag from where head and tail end.  They part
where an item meets a full ring whose flag is not set, since its tail is in the first cell:
the single item then lands on the tail and leaves the ring empty.
-/

namespace BleRepeater.CircularBuffer

open Transition

variable {α : Type} [Zero α]

/-- The successive `write(T)` of each item. -/
def writeItems (ring : CircularBuffer α) (items : List α) : CircularBuffer α :=
  items.foldl writeItem ring

/-- `write(s)` and the successive `write(T)` of its characters lead to the same content,
`empty()` and `full()`. -/
def WritesAlike [DecidableEq α] (ring : CircularBuffer α) (items : List α) : Prop :=
  ∃ after, ring.write items = some after ∧
    after.content = (ring.writeItems (characters items)).content ∧
    after.empty = (ring.writeItems (characters items)).empty ∧
    after.full = (ring.writeItems (characters items)).full

/-! ## Where the tails end -/

section Tails

omit [Zero α]

/-- The items a ring takes before a write moves its tail: a full ring whose flag was reset
looks as if it were empty. -/
def room (ring : CircularBuffer α) : Nat :=
  if ring.head + 1 = ring.tail ∧ ring.maxed = false then ring.fixedSize
  else ring.fixedSize - 1 - ring.length

/-- One of the first `count` items meets a ring that takes no more, with its head in the
last cell. -/
def Loses (ring : CircularBuffer α) (count : Nat) : Prop :=
  ∃ earlier < count, ring.room ≤ earlier ∧
    (ring.head + earlier) % ring.fixedSize = ring.fixedSize - 1

/-- Where `write(const T *)` leaves the tail. -/
def blockTail (ring : CircularBuffer α) (count : Nat) : Nat :=
  if count ≤ ring.room then ring.tail else (ring.head + count + 1) % ring.fixedSize

/-- Where the successive `write(T)` leave the tail. -/
structure ItemTail (ring : CircularBuffer α) (count tail : Nat) : Prop where
  lost : ring.Loses count → tail = 0
  kept : ¬ ring.Loses count → tail = ring.blockTail count

variable {ring : CircularBuffer α}

/-- Up to the last item it has room for, the ring is not full. -/
theorem Valid.not_behind_of_room (valid : ring.Valid) {count : Nat}
    (some : count ≠ 0) (fits : count < ring.room) :
    (ring.head + count) % ring.fixedSize + 1 ≠ ring.tail := by
  have twoLe := valid.twoLe
  have headLt := valid.headLt
  have tailLt := valid.tailLt
  unfold room at fits
  split at fits
  · rename_i reset
    rcases mod_cases (show ring.head + count < ring.fixedSize + ring.fixedSize by omega)
      with ⟨_, here⟩ | ⟨_, here⟩ <;> omega
  · rcases mod_cases (show ring.head + count < ring.fixedSize + ring.fixedSize by omega)
      with ⟨_, here⟩ | ⟨_, here⟩ <;>
      rcases valid.length_cases with shape | shape <;> omega

/-- A flag that is set stands for a full ring without room. -/
theorem Valid.maxed_iff (valid : ring.Valid) :
    ring.maxed = true ↔ ring.head + 1 = ring.tail ∧ ring.room ≤ 0 := by
  have twoLe := valid.twoLe
  have headLt := valid.headLt
  unfold room
  constructor
  · intro set
    have behind := valid.maxedFull set
    rw [if_neg (by simp [set])]
    rcases valid.length_cases with shape | shape <;> omega
  · rintro ⟨behind, none⟩
    rw [← Bool.not_eq_false]
    intro reset
    rw [if_pos ⟨behind, reset⟩] at none
    omega

/-- The last item there is room for brings the head in front of the tail. -/
theorem Valid.tail_eq_of_room (valid : ring.Valid) :
    ring.tail = (ring.head + ring.room + 1) % ring.fixedSize := by
  have headLt := valid.headLt
  have tailLt := valid.tailLt
  have lengthLt := valid.length_lt
  unfold room
  split
  · rename_i reset
    rw [show ring.head + ring.fixedSize + 1 = ring.head + 1 + ring.fixedSize by omega,
      Nat.add_mod_right, reset.1, Nat.mod_eq_of_lt tailLt]
  · rw [Nat.add_assoc, valid.head_add,
      show ring.tail + (ring.length + (ring.fixedSize - 1 - ring.length + 1)) =
        ring.tail + ring.fixedSize by omega,
      Nat.add_mod_right, Nat.mod_eq_of_lt tailLt]

/-- Once the item path has emptied the ring, the tails meet when the head is in the last
cell. -/
theorem ItemTail.agrees_iff (valid : ring.Valid) {count tail : Nat}
    (path : ring.ItemTail count tail) :
    ring.blockTail count = tail ↔
      (ring.Loses count → (ring.head + count) % ring.fixedSize = ring.fixedSize - 1) := by
  have twoLe := valid.twoLe
  by_cases lost : ring.Loses count
  · have more : ¬ count ≤ ring.room := by
      obtain ⟨earlier, early, late, _⟩ := lost
      omega
    have inArray := Nat.mod_lt (ring.head + count) (show ring.fixedSize > 0 by omega)
    rw [path.lost lost, blockTail, if_neg more, ← Nat.mod_add_mod]
    simp only [lost, true_imp_iff]
    rcases mod_cases (show (ring.head + count) % ring.fixedSize + 1 <
      ring.fixedSize + ring.fixedSize by omega) with ⟨_, here⟩ | ⟨_, here⟩ <;>
      rw [here] <;> omega
  · rw [path.kept lost]
    exact iff_of_true rfl fun loses => absurd loses lost

/-- In front of its tail, the ring is declared full when it has been written all round. -/
theorem Valid.size_le_of_fills_behind (valid : ring.Valid) (behind : ring.head + 1 = ring.tail)
    {count : Nat} (filled : ring.fills count = true) : ring.fixedSize ≤ count + 1 := by
  by_contra less
  have headLt := valid.headLt
  rw [fills, Nat.mod_add_mod] at filled
  simp only [headBeforeTail, Bool.or_eq_true, decide_eq_true_eq, Bool.and_eq_true,
    beq_iff_eq] at filled
  rcases mod_cases (show ring.head + count + 1 < ring.fixedSize + ring.fixedSize by omega)
    with ⟨_, here⟩ | ⟨_, here⟩ <;> rw [here] at filled <;> omega

theorem Valid.fills_all_round (valid : ring.Valid) (behind : ring.head + 1 = ring.tail) :
    ring.fills (ring.fixedSize - 1) = true := by
  have headLt := valid.headLt
  rw [fills, Nat.mod_add_mod,
    show ring.head + (ring.fixedSize - 1) + 1 = ring.head + ring.fixedSize by omega,
    Nat.add_mod_right, Nat.mod_eq_of_lt headLt]
  simp only [headBeforeTail, Bool.or_eq_true, decide_eq_true_eq]
  left
  omega

end Tails

/-- The loop of `write(const T *)` notices exactly when there are more items than room, or
when the last of them is there. -/
theorem Written.tail_finish {ring : CircularBuffer α} {items : List α}
    {state : Writing α} (done : Written ring items state) (valid : ring.Valid) :
    (state.finish ring).tail = ring.blockTail items.length := by
  have lengthLt := valid.length_lt
  have atLast := valid.tail_eq_of_room
  simp only [Writing.finish, done.count, blockTail]
  by_cases reset : ring.head + 1 = ring.tail ∧ ring.maxed = false
  · have room : ring.room = ring.fixedSize := if_pos reset
    rw [room] at atLast ⊢
    by_cases noticed : state.maxed = true
    · rw [if_pos noticed]
      rcases done.maxed.mp noticed with before | ⟨count, early, filled⟩
      · simp [reset.2] at before
      · have enough := valid.size_le_of_fills_behind reset.1 filled
        split
        · rw [atLast, show items.length = ring.fixedSize by omega]
        · rfl
    · rw [if_neg noticed, if_pos]
      by_contra more
      exact noticed (done.maxed.mpr (Or.inr
        ⟨ring.fixedSize - 1, by omega, valid.fills_all_round reset.1⟩))
  · have room : ring.room = ring.fixedSize - 1 - ring.length := if_neg reset
    have tight : ring.Tight := by
      intro behind
      rw [← Bool.not_eq_false]
      exact fun unset => reset ⟨behind, unset⟩
    by_cases noticed : state.maxed = true
    · rw [if_pos noticed]
      have enough := done.size_le_of_maxed valid noticed
      rw [List.length_append, length_content] at enough
      split
      · rw [atLast, show items.length = ring.room by omega]
      · rfl
    · rw [if_neg noticed, if_pos]
      by_contra more
      exact noticed (done.maxed.mpr (valid.exists_fills tight (by omega)))

/-! ## The item path -/

/-- The ring after `count` items one by one, beside the loop of `write(const T *)` over the
same items. -/
structure ItemWritten (ring : CircularBuffer α) (count : Nat) (state : Writing α)
    (item : CircularBuffer α) : Prop where
  counted : state.count = count
  size : item.fixedSize = ring.fixedSize
  length : item.buffer.length = ring.fixedSize + 1
  blockLength : state.buffer.length = ring.fixedSize + 1
  head : item.head = (ring.head + count) % ring.fixedSize
  tail : ring.ItemTail count item.tail
  maxed : item.maxed = true ↔ item.head + 1 = item.tail ∧ ring.room ≤ count
  checked : count ≠ 0 → item.maxed = headBeforeTail item.head item.tail
  /-- The terminator behind the last item lies in the cell where the next one goes. -/
  headEnd : count ≠ 0 → item.head ≠ 0 → item.cell item.head = endItem
  cells : ∀ index < ring.fixedSize, (index = item.head → item.head = 0) →
    item.cell index = state.buffer.getD index endItem

theorem Valid.itemWritten_zero {ring : CircularBuffer α} (valid : ring.Valid) :
    ItemWritten ring 0 { buffer := ring.buffer, maxed := ring.maxed } ring where
  counted := rfl
  size := rfl
  length := valid.cells
  blockLength := valid.cells
  head := (Nat.mod_eq_of_lt valid.headLt).symm
  tail := by
    refine ⟨?_, fun _ => (if_pos (Nat.zero_le _)).symm⟩
    rintro ⟨_, early, _⟩
    omega
  maxed := valid.maxed_iff
  checked := fun some => absurd rfl some
  headEnd := fun some => absurd rfl some
  cells := fun _ _ _ => rfl

namespace ItemWritten

variable {ring item : CircularBuffer α} {count : Nat} {state : Writing α}

/-- One item moves the tail as far as the formula says. -/
theorem tail_writeItem (both : ItemWritten ring count state item) (valid : ring.Valid)
    (next : α) : ring.ItemTail (count + 1) (item.writeItem next).tail := by
  have twoLe := valid.twoLe
  have headLt : item.head < ring.fixedSize := by
    rw [both.head]
    exact Nat.mod_lt _ (by omega)
  have stays : item.maxed ≠ true → (item.writeItem next).tail = item.tail := by
    intro unset
    simp [writeItem, unset]
  by_cases lost : ring.Loses count
  · -- empty since then, and filling from the first cell on
    have atStart := both.tail.lost lost
    refine ⟨fun _ => ?_, fun kept => ?_⟩
    · rw [stays fun set => by have := (both.maxed.mp set).1; omega, atStart]
    · obtain ⟨earlier, early, there⟩ := lost
      exact absurd ⟨earlier, by omega, there⟩ kept
  · have tail := both.tail.kept lost
    by_cases fits : count < ring.room
    · have here := stays fun set => absurd (both.maxed.mp set).2 (by omega)
      refine ⟨?_, fun _ => ?_⟩
      · rintro ⟨earlier, early, late, _⟩
        omega
      · rw [here, tail, blockTail, blockTail, if_pos (by omega), if_pos (by omega)]
    · have behind : item.tail = (item.head + 1) % ring.fixedSize := by
        rw [tail, both.head, Nat.mod_add_mod, blockTail]
        split
        · rw [show count = ring.room by omega]
          exact valid.tail_eq_of_room
        · rfl
      by_cases last : item.head = ring.fixedSize - 1
      · -- the full ring is not noticed
        have loses : ring.Loses (count + 1) :=
          ⟨count, by omega, by omega, by rw [← both.head, last]⟩
        rw [last, Nat.sub_add_cancel (by omega), Nat.mod_self] at behind
        refine ⟨fun _ => ?_, fun kept => absurd loses kept⟩
        rw [stays fun set => by have := (both.maxed.mp set).1; omega, behind]
      · rw [Nat.mod_eq_of_lt (by omega)] at behind
        have set := both.maxed.mpr ⟨behind.symm, by omega⟩
        refine ⟨?_, fun _ => ?_⟩
        · rintro ⟨earlier, early, late, atEnd⟩
          by_cases now : earlier = count
          · rw [now, ← both.head] at atEnd
            exact absurd atEnd last
          · exact absurd ⟨earlier, by omega, late, atEnd⟩ lost
        · simp only [writeItem, set, if_true, both.size]
          rw [blockTail, if_neg (by omega), both.head, Nat.mod_add_mod]
          rfl

theorem writeItem (both : ItemWritten ring count state item) (valid : ring.Valid)
    (next : α) : ItemWritten ring (count + 1) (state.put ring next) (item.writeItem next) := by
  have twoLe := valid.twoLe
  have headLt : item.head < ring.fixedSize := by
    rw [both.head]
    exact Nat.mod_lt _ (by omega)
  have pos : (ring.head + state.count) % ring.fixedSize = item.head := by
    rw [both.counted, both.head]
  have head : (item.writeItem next).head = (ring.head + (count + 1)) % ring.fixedSize := by
    simp only [CircularBuffer.writeItem, both.size, both.head, Nat.mod_add_mod, Nat.add_assoc]
  have tail := both.tail_writeItem valid next
  refine ⟨?_, both.size, ?_, ?_, head, tail, ?_, fun _ => rfl, ?_, ?_⟩
  · simp [Writing.put, both.counted]
  · simpa [CircularBuffer.writeItem] using both.length
  · simpa [Writing.put] using both.blockLength
  · have checked : (item.writeItem next).maxed = true ↔
        (item.writeItem next).head + 1 = (item.writeItem next).tail := by
      simp only [CircularBuffer.writeItem, headBeforeTail, decide_eq_true_eq]
      omega
    rw [checked]
    refine ⟨fun behind => ⟨behind, ?_⟩, And.left⟩
    by_contra room
    have kept : ¬ ring.Loses (count + 1) := by
      rintro ⟨earlier, early, late, _⟩
      omega
    rw [tail.kept kept, blockTail, if_pos (by omega), head] at behind
    exact valid.not_behind_of_room (by omega) (by omega) behind
  · intro _ away
    simp only [CircularBuffer.writeItem, both.size, cell] at away ⊢
    rcases mod_cases (show item.head + 1 < ring.fixedSize + ring.fixedSize by omega)
      with ⟨_, here⟩ | ⟨_, here⟩
    · rw [here, List.getD_eq_getElem?_getD, List.getElem?_set_self (by
        rw [List.length_set, both.length]
        omega), Option.getD_some]
    · omega
  · intro index inside apart
    have notEnd : item.head + 1 ≠ index := by
      simp only [CircularBuffer.writeItem, both.size] at apart
      rcases mod_cases (show item.head + 1 < ring.fixedSize + ring.fixedSize by omega)
        with ⟨_, here⟩ | ⟨_, here⟩ <;> omega
    simp only [CircularBuffer.writeItem, cell, Writing.put, pos]
    rw [List.getD_eq_getElem?_getD, List.getElem?_set_ne notEnd]
    by_cases here : index = item.head
    · rw [here, List.getElem?_set_self (by rw [both.length]; omega),
        List.getD_eq_getElem?_getD, List.getElem?_set_self (by rw [both.blockLength]; omega)]
    · rw [List.getElem?_set_ne (Ne.symm here), List.getD_eq_getElem?_getD,
        List.getElem?_set_ne (Ne.symm here)]
      have cells := both.cells index inside fun same => absurd same here
      rwa [cell, List.getD_eq_getElem?_getD, List.getD_eq_getElem?_getD] at cells

/-- All the items, one by one and in the loop. -/
theorem writeItems [DecidableEq α] (both : ItemWritten ring count state item)
    (valid : ring.Valid) {items : List α} (noEnd : ∀ next ∈ items, next ≠ endItem) :
    ItemWritten ring (count + items.length) (Writing.loop ring items state)
      (item.writeItems items) := by
  induction items generalizing count state item with
  | nil => simpa [Writing.loop, CircularBuffer.writeItems] using both
  | cons next items ih =>
      have here := noEnd next (by simp)
      have rest := ih (both.writeItem valid next) fun other member =>
        noEnd other (by simp [member])
      rw [Nat.add_assoc, Nat.add_comm 1] at rest
      simpa [Writing.loop, here, CircularBuffer.writeItems] using rest

/-- Behind its loop `write(const T *)` has the same cells. -/
theorem finish_cells {items : List α} (both : ItemWritten ring count state item)
    (valid : ring.Valid) (done : Written ring items state) (nonempty : items ≠ [])
    {index : Nat} (inside : index < ring.fixedSize) :
    (state.finish ring).cell index = item.cell index := by
  have twoLe := valid.twoLe
  have counted : count ≠ 0 := by
    rw [← both.counted, done.count]
    exact fun none => nonempty (List.length_eq_zero_iff.mp none)
  have pos := done.pos_cases valid nonempty
  rw [both.counted, ← both.head] at pos
  have blockLength := both.blockLength
  by_cases here : index = item.head ∧ item.head ≠ 0
  · obtain ⟨rfl, away⟩ := here
    rw [both.headEnd counted away]
    simp only [Writing.finish, cell]
    rw [List.getD_eq_getElem?_getD, show state.pos + 1 = item.head by omega,
      List.getElem?_set_self (by omega), Option.getD_some]
  · rw [both.cells index inside fun same => by
      by_contra away
      exact here ⟨same, away⟩]
    simp only [Writing.finish, cell]
    rw [List.getD_eq_getElem?_getD, List.getElem?_set_ne (by omega),
      ← List.getD_eq_getElem?_getD]

end ItemWritten

/-! ## Comparing the two -/

/-- Rings with the same cells and the same head hold the same items exactly when their tails
are the same. -/
theorem content_eq_iff_tail {left right : CircularBuffer α} (leftValid : left.Valid)
    (rightValid : right.Valid) (size : left.fixedSize = right.fixedSize)
    (head : left.head = right.head)
    (cells : ∀ index < left.fixedSize, left.cell index = right.cell index) :
    left.content = right.content ↔ left.tail = right.tail := by
  have leftShape := leftValid.length_cases
  have rightShape := rightValid.length_cases
  have headLt := leftValid.headLt
  have leftTail := leftValid.tailLt
  have rightTail := rightValid.tailLt
  constructor
  · intro same
    have length := congrArg List.length same
    rw [length_content, length_content] at length
    omega
  · intro same
    have length : left.length = right.length := by omega
    apply List.ext_getElem
    · rw [length_content, length_content, length]
    · intro index inLeft inRight
      rw [getElem_content, getElem_content, cells _ (Nat.mod_lt _ (by omega)), same, size]

theorem Valid.writeItems {ring : CircularBuffer α} (valid : ring.Valid) (items : List α) :
    (ring.writeItems items).Valid := by
  induction items generalizing ring with
  | nil => exact valid
  | cons item items ih => exact ih (valid.writeItem item)

/-- The index lies between tail and head. -/
def Covers (ring : CircularBuffer α) (index : Nat) : Prop :=
  ∃ place < ring.length, (ring.tail + place) % ring.fixedSize = index

/-- The states in which the two ways of writing a string agree.  The empty string must not
put its terminator into the content, nor set a flag that was reset; a string that empties
the ring on the way must end in the last cell. -/
def Alike [DecidableEq α] (ring : CircularBuffer α) (string : List α) : Prop :=
  if string = [] then ring.Tight ∧ (ring.Covers 1 → ring.cell 1 = endItem)
  else string.length < 2 ^ 16 ∧ (ring.Loses string.length →
    (ring.head + string.length) % ring.fixedSize = ring.fixedSize - 1)

/-- The empty string. -/
theorem writesAlike_nil [DecidableEq α] {ring : CircularBuffer α} {items : List α}
    (valid : ring.Valid) (nothing : characters items = []) :
    WritesAlike ring items ↔ ring.Tight ∧ (ring.Covers 1 → ring.cell 1 = endItem) := by
  have twoLe := valid.twoLe
  have cells := valid.cells
  have tailLt := valid.tailLt
  obtain ⟨after, done⟩ : ∃ after, ring.write items = some after :=
    ⟨_, write_eq_some_iff.mpr ⟨by simp [nothing], rfl⟩⟩
  have same := (write_eq_some_iff.mp done).2
  rw [nothing] at same
  have size : after.fixedSize = ring.fixedSize := by rw [same]; rfl
  have buffer : after.buffer = ring.buffer.set 1 endItem := by rw [same]; rfl
  have head : after.head = ring.head := by
    rw [same]
    exact Nat.mod_eq_of_lt valid.headLt
  have tail : after.tail = ring.tail := by
    rw [same]
    change (if ring.maxed then (ring.head + 0 + 1) % ring.fixedSize else ring.tail) = _
    by_cases set : ring.maxed = true
    · rw [if_pos set, Nat.add_zero, valid.maxedFull set, Nat.mod_eq_of_lt tailLt]
    · rw [if_neg set]
  have maxed : after.maxed = headBeforeTail after.head after.tail := by rw [same]; rfl
  have length : after.length = ring.length := by
    rw [CircularBuffer.length, CircularBuffer.length, head, tail, size]
  have full : after.full = ring.full ↔ ring.Tight := by
    have behind : (ring.head : Int) = (ring.tail : Int) - 1 ↔ ring.head + 1 = ring.tail := by
      omega
    rw [CircularBuffer.full, CircularBuffer.full, maxed, head, tail, Tight, Bool.eq_iff_iff,
      headBeforeTail, decide_eq_true_eq, behind]
    exact ⟨Iff.mp, fun tight => ⟨tight, valid.maxedFull⟩⟩
  have content : after.content = ring.content ↔ (ring.Covers 1 → ring.cell 1 = endItem) := by
    have cell : ∀ index, after.cell index =
        if index = 1 then endItem else ring.cell index := by
      intro index
      rw [CircularBuffer.cell, CircularBuffer.cell, buffer, List.getD_eq_getElem?_getD,
        List.getElem?_set]
      split
      · rename_i here
        rw [if_pos here.symm, if_pos (by omega), Option.getD_some]
      · rename_i other
        rw [if_neg (Ne.symm other), List.getD_eq_getElem?_getD]
    constructor
    · rintro kept ⟨place, inside, first⟩
      have inAfter : place < after.content.length := by
        rw [length_content, length]
        exact inside
      have inRing : place < ring.content.length := by
        rw [length_content]
        exact inside
      have item : after.content[place] = ring.content[place] := List.getElem_of_eq kept _
      rwa [getElem_content, getElem_content, tail, size, first, cell, if_pos rfl,
        eq_comm] at item
    · intro kept
      apply List.ext_getElem
      · rw [length_content, length_content, length]
      · intro place inAfter inRing
        rw [length_content] at inRing
        rw [getElem_content, getElem_content, tail, size, cell]
        split
        · rename_i first
          rw [first, kept ⟨place, inRing, first⟩]
        · rfl
  simp only [WritesAlike, done, Option.some.injEq, exists_eq_left', nothing]
  change after.content = ring.content ∧ after.empty = ring.empty ∧ after.full = ring.full ↔ _
  rw [content, full, empty, empty, head, tail]
  tauto

/-- A string of one character or more. -/
theorem writesAlike_of_nonempty [DecidableEq α] {ring : CircularBuffer α} {items : List α}
    (valid : ring.Valid) (nonempty : characters items ≠ []) :
    WritesAlike ring items ↔ (characters items).length < 2 ^ 16 ∧
      (ring.Loses (characters items).length →
        (ring.head + (characters items).length) % ring.fixedSize = ring.fixedSize - 1) := by
  have written := valid.written_characters items
  have noEnd : ∀ item ∈ characters items, item ≠ endItem := endItem_notMem_characters
  have both := valid.itemWritten_zero.writeItems valid noEnd
  rw [Nat.zero_add] at both
  have blockValid := written.finish_valid valid
  have itemValid := valid.writeItems (characters items)
  have head : (Writing.finish ring (Writing.loop ring (characters items)
      { buffer := ring.buffer, maxed := ring.maxed })).head =
        (ring.writeItems (characters items)).head := by
    rw [both.head, ← both.counted]
    rfl
  have tails := both.tail.agrees_iff valid
  rw [← written.tail_finish valid] at tails
  have contents := content_eq_iff_tail blockValid itemValid both.size.symm head
    fun _ inside => both.finish_cells valid written nonempty inside
  constructor
  · rintro ⟨after, done, content, _⟩
    obtain ⟨short, rfl⟩ := write_eq_some_iff.mp done
    exact ⟨short, tails.mp (contents.mp content)⟩
  · rintro ⟨short, meets⟩
    have tail := tails.mpr meets
    refine ⟨_, write_eq_some_iff.mpr ⟨short, rfl⟩, contents.mpr tail, ?_, ?_⟩
    · rw [empty, empty, head, tail]
    · rw [full, full, both.checked fun none => nonempty (List.length_eq_zero_iff.mp none),
        ← head, ← tail]
      rfl

theorem Valid.writesAlike_iff [DecidableEq α] {ring : CircularBuffer α} (valid : ring.Valid)
    (items : List α) : WritesAlike ring items ↔ Alike ring (characters items) := by
  unfold Alike
  split
  · rename_i nothing
    exact writesAlike_nil valid nothing
  · rename_i nonempty
    exact writesAlike_of_nonempty valid nonempty

/-! ## Every reachable ring -/

/-- In every state that operations lead a fresh ring of any capacity to, a string is written
alike at once and character by character exactly in the states above. -/
theorem reachable_writesAlike_iff {cells : List UInt8} {size : Nat} {ops : List RingOp}
    {ring : CircularBuffer UInt8} (twoLe : 2 ≤ size) (small : size < 2 ^ 16)
    (room : cells.length = size + 1) (run : Run RingStep (new cells size) ops ring)
    (items : List UInt8) : WritesAlike ring items ↔ Alike ring (characters items) :=
  (run.invariant Ended.step (new_ended twoLe small room)).valid.writesAlike_iff items

/-- Two characters into a ring for two. -/
theorem reachable_writesAlike_iff_two :
    WritesAlike (new [9, 9, 9, 9] 3) ([65, 66] : List UInt8) ↔
      Alike (new [9, 9, 9, 9] 3) (characters ([65, 66] : List UInt8)) :=
  reachable_writesAlike_iff (by decide) (by decide) rfl (.nil _) [65, 66]

/-- A third character, written as one of three, drops the first; written after the two, it
empties the ring. -/
theorem item_empties :
    ¬ ∀ (cells : List UInt8) (size : Nat) (ops : List RingOp) (ring : CircularBuffer UInt8),
      2 ≤ size → size < 2 ^ 16 → cells.length = size + 1 →
      Run RingStep (new cells size) ops ring → ∀ items, WritesAlike ring items := by
  intro always
  obtain ⟨after, done, content, _⟩ := always [9, 9, 9, 9] 3 [] _ (by decide) (by decide) rfl
    (.nil _) [65, 66, 67]
  cases done
  exact absurd content (by decide)

end BleRepeater.CircularBuffer
