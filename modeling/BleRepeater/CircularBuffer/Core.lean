import Mathlib

/-!
# CircularBuffer

The ring buffer of `CircularBuffer.h`: `size + 1` cells, a `head` where the next
item goes, a `tail` where the oldest item is, and the cached flag `maxed`.  One
of the first `size` cells always stays free; the spare last cell only ever holds
a terminator.

Indices are 16-bit in the source.  Every value assigned to one is reduced modulo
`size` or bounded by it, so they are natural numbers here; the comparison with
`tail - 1` is made on promoted signed integers.  The item type stands for the
one-byte types for which the byte count of `memcpy` is an item count.
-/

namespace BleRepeater

/-- `template<class T> class CircularBuffer`. -/
structure CircularBuffer (α : Type) where
  buffer : List α
  fixedSize : Nat
  head : Nat := 0
  tail : Nat := 0
  maxed : Bool := false
  willClearIfEmpty : Bool := false
  deriving DecidableEq

namespace CircularBuffer

variable {α : Type}

/-- `end_item`, which is also `T()`. -/
def endItem [Zero α] : α := 0

/-- The constructor leaves the `size + 1` cells as they are on the heap. -/
def new (cells : List α) (size : Nat) : CircularBuffer α :=
  { buffer := cells, fixedSize := size }

/-- The item in one cell. -/
def cell [Zero α] (ring : CircularBuffer α) (index : Nat) : α :=
  ring.buffer.getD index endItem

/-- `head == tail - 1`, in signed arithmetic. -/
def headBeforeTail (head tail : Nat) : Bool :=
  decide ((head : Int) = (tail : Int) - 1)

/-- `CircularBuffer::empty`. -/
def empty (ring : CircularBuffer α) : Bool :=
  ring.head == ring.tail

/-- `CircularBuffer::full`. -/
def full (ring : CircularBuffer α) : Bool :=
  ring.maxed

/-- The variables of the loop in `write(const T *)`. -/
structure Writing (α : Type) where
  buffer : List α
  pos : Nat := 0
  count : Nat := 0
  maxed : Bool

/-- One turn of the loop in `write(const T *)`. -/
def Writing.put (ring : CircularBuffer α) (state : Writing α) (item : α) :
    Writing α :=
  let pos := (ring.head + state.count) % ring.fixedSize
  { buffer := state.buffer.set pos item
    pos
    count := state.count + 1
    maxed := state.maxed ||
      headBeforeTail ((pos + 1) % ring.fixedSize) ring.tail ||
      (ring.tail == 0 && pos == ring.fixedSize - 1) }

/-- The loop in `write(const T *)`: it stops at the terminator, which follows
the listed items at the latest. -/
def Writing.loop [Zero α] [DecidableEq α] (ring : CircularBuffer α) :
    List α → Writing α → Writing α
  | [], state => state
  | item :: items, state =>
      if item = endItem then state
      else loop ring items (state.put ring item)

/-- What `write(const T *)` does after its loop. -/
def Writing.finish [Zero α] (ring : CircularBuffer α) (state : Writing α) :
    CircularBuffer α :=
  let tail :=
    if state.maxed then (ring.head + state.count + 1) % ring.fixedSize
    else ring.tail
  let head := (ring.head + state.count) % ring.fixedSize
  { ring with
    buffer := state.buffer.set (state.pos + 1) endItem
    head, tail
    maxed := headBeforeTail head tail
    willClearIfEmpty := false }

/-- `CircularBuffer::write(const T *)`.  With 65536 items or more the 16-bit
`count` wraps before it reaches the terminator and the loop never ends. -/
def write [Zero α] [DecidableEq α] (ring : CircularBuffer α) (items : List α) :
    Option (CircularBuffer α) :=
  if (items.takeWhile (· ≠ endItem)).length < 2 ^ 16 then
    some (Writing.finish ring (Writing.loop ring items
      { buffer := ring.buffer, maxed := ring.maxed }))
  else
    none

/-- `CircularBuffer::write(const T)`. -/
def writeItem [Zero α] (ring : CircularBuffer α) (item : α) : CircularBuffer α :=
  let buffer := (ring.buffer.set ring.head item).set (ring.head + 1) endItem
  let tail :=
    if ring.maxed then (ring.head + 2) % ring.fixedSize else ring.tail
  let head := (ring.head + 1) % ring.fixedSize
  { ring with
    buffer, head, tail
    maxed := headBeforeTail head tail
    willClearIfEmpty := false }

/-- `CircularBuffer::clear`. -/
def clear [Zero α] (ring : CircularBuffer α) : CircularBuffer α :=
  { ring with
    buffer := ring.buffer.set 0 endItem
    head := 0
    tail := 0
    maxed := false }

/-- `CircularBuffer::clear_if_empty`, with no write interrupting it. -/
def clearIfEmpty (ring : CircularBuffer α) : CircularBuffer α :=
  let ring := { ring with willClearIfEmpty := true }
  if ring.empty && ring.willClearIfEmpty then
    { ring with head := 0, tail := 0, maxed := false }
  else
    ring

/-- `CircularBuffer::consume`. -/
def consume [Zero α] (ring : CircularBuffer α) : α × CircularBuffer α :=
  if ring.empty then
    (endItem, ring)
  else
    (ring.cell ring.tail,
      { ring with tail := (ring.tail + 1) % ring.fixedSize, maxed := false })

/-- `head <= tail && !empty()`: the content runs to the end of the array. -/
def wraps (ring : CircularBuffer α) : Bool :=
  decide (ring.head ≤ ring.tail) && !ring.empty

/-- The number of items that lie in one piece from `tail` on. -/
def consumable (ring : CircularBuffer α) : Nat :=
  (if ring.wraps then ring.fixedSize else ring.head) - ring.tail

/-- `memcpy` of `count` cells from `start` on. -/
def slice (ring : CircularBuffer α) (start count : Nat) : List α :=
  (ring.buffer.drop start).take count

/-- `CircularBuffer::consume_block()`: the block behind the returned pointer and
count. -/
def consumeBlock (ring : CircularBuffer α) : List α × CircularBuffer α :=
  (ring.slice ring.tail ring.consumable,
    { ring with
      tail := if ring.wraps then 0 else ring.head
      maxed := false })

/-- `CircularBuffer::consume_block(block, block_size)`, for items of one byte: its `memcpy` is
given the number of items as a number of bytes. -/
def consumeBlockInto (ring : CircularBuffer α) (blockSize : UInt16) :
    List α × CircularBuffer α :=
  let willConsume := min blockSize.toNat ring.consumable
  let tail :=
    if blockSize.toNat < ring.consumable then
      (ring.tail + willConsume) % ring.fixedSize
    else if ring.wraps then 0
    else ring.head
  (ring.slice ring.tail willConsume, { ring with tail, maxed := false })

/-- A position less than two turns ahead, reduced to the ring. -/
theorem mod_cases {position size : Nat} (near : position < size + size) :
    position < size ∧ position % size = position ∨
      size ≤ position ∧ position % size = position - size := by
  by_cases first : position < size
  · exact Or.inl ⟨first, Nat.mod_eq_of_lt first⟩
  · right
    refine ⟨by omega, ?_⟩
    rw [Nat.mod_eq_sub_mod (by omega), Nat.mod_eq_of_lt (by omega)]

/-- Positions less than a turn apart are different cells. -/
theorem mod_ne {start near far size : Nat} (before : near < far)
    (sameTurn : far < near + size) : (start + near) % size ≠ (start + far) % size := by
  intro same
  have multiple := Nat.sub_mod_eq_zero_of_mod_eq same.symm
  rw [Nat.add_sub_add_left, Nat.mod_eq_of_lt (by omega)] at multiple
  omega

/-! ## The content -/

/-- The number of items from tail to head, cyclically. -/
def length (ring : CircularBuffer α) : Nat :=
  (ring.head + ring.fixedSize - ring.tail) % ring.fixedSize

/-- The abstract content: the items from tail to head, cyclically. -/
def content [Zero α] (ring : CircularBuffer α) : List α :=
  (List.range ring.length).map fun index =>
    ring.cell ((ring.tail + index) % ring.fixedSize)

/-- The shape every state of a ring has. -/
structure Valid (ring : CircularBuffer α) : Prop where
  twoLe : 2 ≤ ring.fixedSize
  small : ring.fixedSize < 2 ^ 16
  cells : ring.buffer.length = ring.fixedSize + 1
  headLt : ring.head < ring.fixedSize
  tailLt : ring.tail < ring.fixedSize
  maxedFull : ring.maxed = true → ring.head + 1 = ring.tail

/-- A fresh ring is valid, whatever its cells hold. -/
theorem new_valid {cells : List α} {size : Nat} (twoLe : 2 ≤ size)
    (small : size < 2 ^ 16) (room : cells.length = size + 1) :
    (new cells size).Valid where
  twoLe := twoLe
  small := small
  cells := room
  headLt := by
    change 0 < size
    omega
  tailLt := by
    change 0 < size
    omega
  maxedFull := by simp [new]

@[simp] theorem content_new [Zero α] (cells : List α) (size : Nat) :
    (new cells size).content = [] := by
  simp [new, content, length]

@[simp] theorem length_content [Zero α] (ring : CircularBuffer α) :
    ring.content.length = ring.length := by
  simp [content]

theorem getElem_content [Zero α] (ring : CircularBuffer α) (index : Nat)
    (inside : index < ring.content.length) :
    ring.content[index] = ring.cell ((ring.tail + index) % ring.fixedSize) := by
  simp [content]

namespace Valid

variable {ring : CircularBuffer α}

theorem length_lt (valid : ring.Valid) : ring.length < ring.fixedSize :=
  Nat.mod_lt _ (by have := valid.twoLe; omega)

/-- The two shapes of the distance from tail to head. -/
theorem length_cases (valid : ring.Valid) :
    ring.tail ≤ ring.head ∧ ring.length = ring.head - ring.tail ∨
      ring.head < ring.tail ∧
        ring.length = ring.head + ring.fixedSize - ring.tail := by
  have headLt := valid.headLt
  have tailLt := valid.tailLt
  unfold length
  by_cases ahead : ring.tail ≤ ring.head
  · left
    refine ⟨ahead, ?_⟩
    rw [show ring.head + ring.fixedSize - ring.tail =
      ring.head - ring.tail + ring.fixedSize by omega,
      Nat.add_mod_right, Nat.mod_eq_of_lt (by omega)]
  · right
    exact ⟨by omega, Nat.mod_eq_of_lt (by omega)⟩

/-- The head is as far behind the tail as there are items. -/
theorem head_eq (valid : ring.Valid) :
    ring.head = (ring.tail + ring.length) % ring.fixedSize := by
  have headLt := valid.headLt
  have tailLt := valid.tailLt
  rcases valid.length_cases with ⟨ahead, distance⟩ | ⟨behind, distance⟩
  · rw [distance, Nat.mod_eq_of_lt] <;> omega
  · rw [distance, show ring.tail + (ring.head + ring.fixedSize - ring.tail) =
      ring.head + ring.fixedSize by omega, Nat.add_mod_right,
      Nat.mod_eq_of_lt headLt]

/-- Positions counted from the head, counted from the tail. -/
theorem head_add (valid : ring.Valid) (count : Nat) :
    (ring.head + count) % ring.fixedSize =
      (ring.tail + (ring.length + count)) % ring.fixedSize := by
  rw [valid.head_eq, Nat.mod_add_mod, Nat.add_assoc]

/-- `empty()` holds exactly when there is no item. -/
theorem empty_iff [Zero α] (valid : ring.Valid) :
    ring.empty = true ↔ ring.content = [] := by
  rw [← List.length_eq_zero_iff, length_content]
  simp only [empty, beq_iff_eq]
  have tailLt := valid.tailLt
  rcases valid.length_cases with ⟨ahead, distance⟩ | ⟨behind, distance⟩ <;> omega

/-- The content runs to the end of the array exactly when the head is in front of
the tail. -/
theorem wraps_iff : ring.wraps = true ↔ ring.head < ring.tail := by
  simp only [wraps, empty, Bool.and_eq_true, decide_eq_true_eq, Bool.not_eq_true',
    beq_eq_false_iff_ne]
  omega

theorem consumable_of_wrapped (wrapped : ring.head < ring.tail) :
    ring.consumable = ring.fixedSize - ring.tail := by
  simp [consumable, wraps_iff.mpr wrapped]

theorem consumable_of_flat (flat : ring.tail ≤ ring.head) :
    ring.consumable = ring.head - ring.tail := by
  have notWrapped : ring.wraps ≠ true := by
    rw [ne_eq, wraps_iff]
    omega
  simp [consumable, notWrapped]

theorem consumable_le (valid : ring.Valid) : ring.consumable ≤ ring.length := by
  have headLt := valid.headLt
  rcases valid.length_cases with ⟨ahead, distance⟩ | ⟨behind, distance⟩
  · exact Nat.le_of_eq ((consumable_of_flat ahead).trans distance.symm)
  · rw [consumable_of_wrapped behind, distance]
    omega

end Valid

/-! ## Taking items from the front -/

/-- The ring after `count` items have been taken at the tail. -/
def advance (ring : CircularBuffer α) (count : Nat) : CircularBuffer α :=
  { ring with tail := (ring.tail + count) % ring.fixedSize, maxed := false }

theorem Valid.advance {ring : CircularBuffer α} (valid : ring.Valid) (count : Nat) :
    (ring.advance count).Valid where
  twoLe := valid.twoLe
  small := valid.small
  cells := valid.cells
  headLt := valid.headLt
  tailLt := Nat.mod_lt _ (by have := valid.twoLe; omega)
  maxedFull := by simp [CircularBuffer.advance]

/-- Taking items shortens the content by their number. -/
theorem Valid.length_advance {ring : CircularBuffer α} (valid : ring.Valid)
    {count : Nat} (available : count ≤ ring.length) :
    (ring.advance count).length = ring.length - count := by
  have lengthLt := valid.length_lt
  have headLt := valid.headLt
  have tailLt := valid.tailLt
  have after := (valid.advance count).length_cases
  simp only [CircularBuffer.advance] at after ⊢
  rcases mod_cases (show ring.tail + count < ring.fixedSize + ring.fixedSize by omega)
    with ⟨_, tail⟩ | ⟨_, tail⟩ <;> rw [tail] at after ⊢ <;>
    rcases valid.length_cases with before | before <;> omega

/-- Taking items leaves exactly the rest of the content. -/
theorem Valid.content_advance [Zero α] {ring : CircularBuffer α} (valid : ring.Valid)
    {count : Nat} (available : count ≤ ring.length) :
    (ring.advance count).content = ring.content.drop count := by
  apply List.ext_getElem
  · simp [valid.length_advance available]
  · intro index left right
    rw [getElem_content, List.getElem_drop, getElem_content]
    change ring.cell (((ring.tail + count) % ring.fixedSize + index) % ring.fixedSize) = _
    rw [Nat.mod_add_mod, Nat.add_assoc]

/-- A slice that stays inside the array is a run of cells. -/
theorem slice_eq [Zero α] (ring : CircularBuffer α) {start count : Nat}
    (inside : start + count ≤ ring.buffer.length) :
    ring.slice start count = (List.range count).map fun index =>
      ring.cell (start + index) := by
  apply List.ext_getElem
  · simp only [slice, List.length_take, List.length_drop, List.length_map,
      List.length_range]
    omega
  · intro index left right
    simp only [List.length_map, List.length_range] at right
    simp only [slice, List.getElem_take, List.getElem_drop, List.getElem_map,
      List.getElem_range, cell]
    rw [List.getD_eq_getElem?_getD, List.getElem?_eq_getElem (by omega),
      Option.getD_some]

/-- Items that lie in one piece from the tail on are the first of the content. -/
theorem Valid.slice_tail [Zero α] {ring : CircularBuffer α} (valid : ring.Valid)
    {count : Nat} (inOnePiece : count ≤ ring.consumable) :
    ring.slice ring.tail count = ring.content.take count := by
  have available := Nat.le_trans inOnePiece valid.consumable_le
  have inArray : ring.tail + count ≤ ring.fixedSize := by
    have headLt := valid.headLt
    have tailLt := valid.tailLt
    unfold consumable at inOnePiece
    split at inOnePiece <;> omega
  have cells := valid.cells
  rw [slice_eq ring (by omega)]
  apply List.ext_getElem
  · simp only [List.length_map, List.length_range, List.length_take, length_content]
    omega
  · intro index left right
    simp only [List.length_map, List.length_range] at left
    rw [List.getElem_take, getElem_content, List.getElem_map, List.getElem_range,
      Nat.mod_eq_of_lt (by omega)]

end CircularBuffer

end BleRepeater
