import BleRepeater.Library.Run
import BleRepeater.CircularBuffer.ConsumeLine

/-!
# The flag behind `full()`

`maxed` is cached.  A write sets it by comparing the new head with `tail - 1`, which misses
the full ring whose tail is at the start of the array, and everything that takes items
resets it, whether it took any or not.
-/

namespace BleRepeater.CircularBuffer

open Transition

/-- Every operation on a ring of characters. -/
inductive RingOp where
  | write (items : List UInt8)
  | writeItem (item : UInt8)
  | consume
  | consumeBlock
  | consumeBlockInto (blockSize : UInt16)
  | consumeLine (lineSize : UInt16)
  | clear
  | clearIfEmpty

/-- The ring after an operation, if the operation ends and stays inside the array. -/
def perform (ring : CircularBuffer UInt8) : RingOp → Option (CircularBuffer UInt8)
  | .write items => ring.write items
  | .writeItem item => some (ring.writeItem item)
  | .consume => some ring.consume.2
  | .consumeBlock => some ring.consumeBlock.2
  | .consumeBlockInto blockSize => some (ring.consumeBlockInto blockSize).2
  | .consumeLine lineSize => (ring.consumeLine lineSize).map Prod.snd
  | .clear => some ring.clear
  | .clearIfEmpty => some ring.clearIfEmpty

/-- One operation on a ring of characters. -/
def RingStep (ring : CircularBuffer UInt8) (op : RingOp) (after : CircularBuffer UInt8) :
    Prop :=
  ring.perform op = some after

/-- The characters of a C string. -/
def characters {α : Type} [Zero α] [DecidableEq α] (items : List α) : List α :=
  items.takeWhile (· ≠ endItem)

/-- `full()` tells whether the ring holds `size - 1` items. -/
def TellsFull {α : Type} [Zero α] (ring : CircularBuffer α) : Prop :=
  ring.full = true ↔ ring.content.length = ring.fixedSize - 1

section Generic

variable {α : Type} {ring : CircularBuffer α}

/-- A ring holds `size - 1` items when its tail is right behind its head. -/
theorem Valid.length_full_iff (valid : ring.Valid) :
    ring.length = ring.fixedSize - 1 ↔ ring.tail = (ring.head + 1) % ring.fixedSize := by
  have twoLe := valid.twoLe
  have headLt := valid.headLt
  have tailLt := valid.tailLt
  rcases mod_cases (show ring.head + 1 < ring.fixedSize + ring.fixedSize by omega)
    with ⟨_, next⟩ | ⟨_, next⟩ <;> rw [next] <;>
    rcases valid.length_cases with shape | shape <;> omega

theorem Valid.tellsFull_iff [Zero α] (valid : ring.Valid) :
    ring.TellsFull ↔
      (ring.maxed = true ↔ ring.tail = (ring.head + 1) % ring.fixedSize) := by
  rw [TellsFull, length_content, valid.length_full_iff, full]

/-- The comparison with `tail - 1` is right unless the head is in the last cell and the tail
in the first. -/
theorem Valid.tellsFull_of_checked [Zero α] (valid : ring.Valid)
    (checked : ring.maxed = headBeforeTail ring.head ring.tail) :
    ring.TellsFull ↔ (ring.head = ring.fixedSize - 1 → ring.tail ≠ 0) := by
  have twoLe := valid.twoLe
  have headLt := valid.headLt
  have tailLt := valid.tailLt
  rw [valid.tellsFull_iff, checked, headBeforeTail, decide_eq_true_eq]
  rcases mod_cases (show ring.head + 1 < ring.fixedSize + ring.fixedSize by omega)
    with ⟨_, next⟩ | ⟨_, next⟩ <;> rw [next] <;> omega

/-- With the flag reset, the tail must not be right behind the head. -/
theorem Valid.tellsFull_of_reset [Zero α] (valid : ring.Valid) (reset : ring.maxed = false) :
    ring.TellsFull ↔ ring.tail ≠ (ring.head + 1) % ring.fixedSize := by
  rw [valid.tellsFull_iff, reset]
  simp

/-- A flag that is right misses no full ring. -/
theorem TellsFull.tight [Zero α] (tells : ring.TellsFull) (valid : ring.Valid) :
    ring.Tight := by
  intro behind
  have tailLt := valid.tailLt
  rw [valid.tellsFull_iff] at tells
  rw [tells, Nat.mod_eq_of_lt (by omega)]
  exact behind.symm

/-- Taking items leaves the flag right, unless none is taken from a full ring. -/
theorem Valid.tellsFull_advance_iff [Zero α] (valid : ring.Valid) {count : Nat} (available : count ≤ ring.length) :
    (ring.advance count).TellsFull ↔
      (count = 0 → ring.length ≠ ring.fixedSize - 1) := by
  have twoLe := valid.twoLe
  have lengthLt := valid.length_lt
  have shorter := valid.length_advance available
  have size : (ring.advance count).fixedSize = ring.fixedSize := rfl
  rw [(valid.advance count).tellsFull_of_reset rfl, ne_eq,
    ← (valid.advance count).length_full_iff, shorter, size]
  omega

/-! ## Writing -/

/-- `count` items more do not leave a full ring with its head in the last cell. -/
def Fits (ring : CircularBuffer α) (count : Nat) : Prop :=
  ring.fixedSize - 1 ≤ ring.length + count →
    (ring.head + count) % ring.fixedSize ≠ ring.fixedSize - 1

/-- A write that moves the tail out of the way exactly when there is no room, and then
compares, leaves the flag right exactly when the items fit. -/
theorem tellsFull_of_written [Zero α] {after : CircularBuffer α} {count : Nat}
    (noticed : Bool) (valid : ring.Valid) (afterValid : after.Valid)
    (size : after.fixedSize = ring.fixedSize)
    (head : after.head = (ring.head + count) % ring.fixedSize)
    (tail : after.tail =
      if noticed then (ring.head + count + 1) % ring.fixedSize else ring.tail)
    (checked : after.maxed = headBeforeTail after.head after.tail)
    (honest : noticed = true → ring.fixedSize ≤ ring.length + count + 1)
    (notices : ring.fixedSize ≤ ring.length + count → noticed = true) :
    after.TellsFull ↔ ring.Fits count := by
  have twoLe := valid.twoLe
  have tailLt := valid.tailLt
  rw [afterValid.tellsFull_of_checked checked, size, Fits, ← head]
  constructor
  · intro away enough last
    refine away last ?_
    rw [tail]
    split
    · rw [← Nat.mod_add_mod, ← head, last, Nat.sub_add_cancel (by omega), Nat.mod_self]
    · rename_i unnoticed
      have exact : ring.length + count = ring.fixedSize - 1 := by
        have := mt notices unnoticed
        omega
      rw [valid.head_add, exact] at head
      rcases mod_cases (show ring.tail + (ring.fixedSize - 1) <
        ring.fixedSize + ring.fixedSize by omega) with ⟨_, here⟩ | ⟨_, here⟩ <;>
        omega
  · intro fits last atStart
    refine fits ?_ last
    rw [tail] at atStart
    split at atStart
    · rename_i full
      have := honest full
      omega
    · rw [valid.head_add, atStart, Nat.zero_add] at head
      have := Nat.mod_le (ring.length + count) ring.fixedSize
      omega

/-- The loop of `write(const T *)` sees nothing behind the terminator. -/
theorem loop_characters [Zero α] [DecidableEq α] (items : List α) (state : Writing α) :
    Writing.loop ring items state = Writing.loop ring (characters items) state := by
  induction items generalizing state with
  | nil => rfl
  | cons item items ih =>
      by_cases ends : item = endItem
      · simp [Writing.loop, characters, ends]
      · have further := ih (state.put ring item)
        rw [characters] at further ⊢
        rw [List.takeWhile_cons_of_pos (by simpa using ends)]
        simpa only [Writing.loop, ends, if_false] using further

theorem endItem_notMem_characters [Zero α] [DecidableEq α] {items : List α} :
    ∀ item ∈ characters items, item ≠ endItem := by
  intro item member
  simpa using List.mem_takeWhile_imp member

/-- A string that can be written is written by the loop. -/
theorem write_eq_some_iff [Zero α] [DecidableEq α] {after : CircularBuffer α}
    {items : List α} :
    ring.write items = some after ↔
      (characters items).length < 2 ^ 16 ∧
      after = Writing.finish ring (Writing.loop ring (characters items)
        { buffer := ring.buffer, maxed := ring.maxed }) := by
  rw [← loop_characters, write]
  by_cases short : (characters items).length < 2 ^ 16
  · have short' := short
    rw [characters] at short'
    simp only [if_pos short', short, true_and, Option.some.injEq, eq_comm]
  · have long := short
    rw [characters] at long
    simp only [if_neg long, short, false_and, reduceCtorEq]

theorem Valid.written_characters [Zero α] [DecidableEq α] (valid : ring.Valid)
    (items : List α) :
    Written ring (characters items) (Writing.loop ring (characters items)
      { buffer := ring.buffer, maxed := ring.maxed }) :=
  valid.written_nil.loop valid endItem_notMem_characters

/-- Writing a string leaves the flag right exactly when the string fits. -/
theorem TellsFull.write_iff [Zero α] [DecidableEq α] {after : CircularBuffer α}
    {items : List α} (tells : ring.TellsFull) (valid : ring.Valid)
    (done : ring.write items = some after) :
    after.TellsFull ↔ ring.Fits (characters items).length := by
  obtain ⟨_, rfl⟩ := write_eq_some_iff.mp done
  have written := valid.written_characters items
  refine tellsFull_of_written (Writing.loop ring (characters items)
      { buffer := ring.buffer, maxed := ring.maxed }).maxed valid
    (written.finish_valid valid) rfl ?_ ?_ rfl ?_ ?_
  · simp only [Writing.finish, written.count]
  · simp only [Writing.finish, written.count]
  · intro full
    have size := written.size_le_of_maxed valid full
    rwa [List.length_append, length_content] at size
  · intro enough
    exact written.maxed.mpr (valid.exists_fills (tells.tight valid) enough)

theorem Valid.writeItem [Zero α] (valid : ring.Valid) (item : α) :
    (ring.writeItem item).Valid where
  twoLe := valid.twoLe
  small := valid.small
  cells := by simpa [CircularBuffer.writeItem] using valid.cells
  headLt := Nat.mod_lt _ (by have := valid.twoLe; omega)
  tailLt := by
    simp only [CircularBuffer.writeItem]
    split
    · exact Nat.mod_lt _ (by have := valid.twoLe; omega)
    · exact valid.tailLt
  maxedFull := by
    simp only [CircularBuffer.writeItem, headBeforeTail, decide_eq_true_eq]
    omega

/-- Writing an item leaves the flag right exactly when the item fits. -/
theorem TellsFull.writeItem_iff [Zero α] (tells : ring.TellsFull) (valid : ring.Valid)
    (item : α) : (ring.writeItem item).TellsFull ↔ ring.Fits 1 := by
  have lengthLt := valid.length_lt
  rw [TellsFull, length_content, full] at tells
  refine tellsFull_of_written ring.maxed valid (valid.writeItem item) rfl rfl rfl rfl ?_ ?_
  · intro full
    have := tells.mp full
    omega
  · intro enough
    exact tells.mpr (by omega)

end Generic

/-! ## Taking a line -/

/-- What the writes guarantee about the raw cells whatever is taken, and however: unless the
head is in the first cell, it stands on a terminator. -/
structure Ended (ring : CircularBuffer UInt8) : Prop where
  valid : ring.Valid
  headEnd : ring.head ≠ 0 → ring.cell ring.head = endItem

/-- What `consume_line` does to a ring. -/
inductive TakesCells (ring : CircularBuffer UInt8) (lineSize : UInt16) :
    CircularBuffer UInt8 → Prop where
  /-- The first scan finds a newline. -/
  | found {lineEnd : Nat} :
      strchr newline (ring.buffer.drop ring.tail) = .found lineEnd →
      TakesCells ring lineSize (ring.advance
        (min (min lineSize.toNat ring.consumable) (UInt16.ofNat (lineEnd + 1)).toNat))
  /-- A line of the first piece. -/
  | part :
      strchr newline (ring.buffer.drop ring.tail) = .absent →
      lineSize.toNat < ring.consumable → lineSize.toNat ≤ ring.head →
      TakesCells ring lineSize (ring.advance lineSize.toNat)
  /-- The same, but the tail is set to `line_size`. -/
  | passed :
      strchr newline (ring.buffer.drop ring.tail) = .absent → ring.head < ring.tail →
      lineSize.toNat < ring.consumable → ring.head < lineSize.toNat →
      TakesCells ring lineSize { ring with tail := lineSize.toNat, maxed := false }
  /-- The whole first piece. -/
  | piece :
      strchr newline (ring.buffer.drop ring.tail) = .absent →
      ring.consumable ≤ lineSize.toNat →
      (ring.head < ring.tail → strchr newline ring.buffer = .absent) →
      TakesCells ring lineSize (ring.advance ring.consumable)
  /-- The whole first piece, and cells from the start of the array up to a newline. -/
  | turned {lineEnd : Nat} :
      strchr newline (ring.buffer.drop ring.tail) = .absent → ring.head < ring.tail →
      ring.consumable ≤ lineSize.toNat → strchr newline ring.buffer = .found lineEnd →
      TakesCells ring lineSize { ring with
        tail := min (lineSize.toNat - ring.consumable) (UInt16.ofNat (lineEnd + 1)).toNat
          % ring.fixedSize
        maxed := false }

section Line

variable {ring after : CircularBuffer UInt8} {lineSize : UInt16} {line : List UInt8}

/-- When the line ends in the first piece, the second scan is made with no room left in it,
and whatever that scan finds, only the comparison with the head matters. -/
theorem takesCells_of_lastPiece (valid : ring.Valid) {lineEnd : Option Nat}
    (absent : strchr newline (ring.buffer.drop ring.tail) = .absent)
    (short : lineSize.toNat < ring.consumable)
    (result : ring.lastPiece lineSize (ring.slice ring.tail lineSize.toNat)
      (ring.tail + lineSize.toNat) ring.head 0 lineEnd = (line, after)) :
    TakesCells ring lineSize after := by
  have headLt := valid.headLt
  have available := valid.consumable_le
  have length : (ring.slice ring.tail lineSize.toNat).length = lineSize.toNat := by
    rw [valid.slice_tail (Nat.le_of_lt short), List.length_take, length_content]
    omega
  rw [lastPiece_zero, length] at result
  by_cases inFront : lineSize.toNat ≤ ring.head
  · rw [if_pos inFront] at result
    cases result
    exact .part absent short inFront
  · have wrapped : ring.head < ring.tail := by
      by_contra flat
      have piece := Valid.consumable_of_flat (Nat.le_of_not_lt flat)
      omega
    have turned : (decide (ring.head ≤ ring.tail + lineSize.toNat) && !ring.empty) =
        true := by
      simp only [empty, Bool.and_eq_true, decide_eq_true_eq, Bool.not_eq_true',
        beq_eq_false_iff_ne]
      omega
    rw [if_neg inFront, if_pos turned, ite_self] at result
    cases result
    exact .passed absent wrapped short (by omega)

theorem takesCells_of_consumeLine (valid : ring.Valid)
    (result : ring.consumeLine lineSize = some (line, after)) :
    TakesCells ring lineSize after := by
  simp only [consumeLine] at result
  split at result
  · cases result
  · rename_i lineEnd found
    cases result
    simp only [List.length_nil, Nat.zero_add]
    rw [if_pos (by omega)]
    exact .found found
  · rename_i absent
    split at result
    · rename_i whole
      have long : ring.consumable ≤ lineSize.toNat := by omega
      have onlyPiece : (ring.head < ring.tail → strchr newline ring.buffer = .absent) →
          TakesCells ring lineSize { ring with
            tail := if ring.wraps then 0 else ring.head, maxed := false } := by
        intro noMore
        rw [← tail_consumable valid]
        exact .piece absent long noMore
      split at result
      · rename_i wraps
        split at result
        · cases result
        · rename_i lineEnd start
          cases result
          rw [← whole]
          exact .turned absent (Valid.wraps_iff.mp wraps) long start
        · rename_i start
          cases result
          rw [if_pos wraps] at onlyPiece
          exact onlyPiece fun _ => start
      · rename_i flat
        cases result
        rw [if_neg flat] at onlyPiece
        exact onlyPiece fun wrapped => absurd (Valid.wraps_iff.mpr wrapped) flat
    · rename_i more
      have short : lineSize.toNat < ring.consumable := by omega
      rw [Nat.min_eq_left (Nat.le_of_lt short), Nat.sub_self, Nat.zero_min] at result
      split at result
      · cases result
      · exact takesCells_of_lastPiece valid absent short (Option.some.inj result)
      · exact takesCells_of_lastPiece valid absent short (Option.some.inj result)

/-- Neither kind of state in which `consume_line` moves the tail right behind the head:
without a newline up to the turn, a short line must not be one longer than the content
behind the turn, and when there is none there, a long line must not stop after the first
cell.  No line at all must not be asked of a full ring. -/
structure LineKeepsFull (ring : CircularBuffer UInt8) (lineSize : UInt16) : Prop where
  noLine : lineSize.toNat = 0 → ring.length ≠ ring.fixedSize - 1
  shortLine : strchr newline (ring.buffer.drop ring.tail) = .absent →
    ring.head < ring.tail → lineSize.toNat < ring.fixedSize - ring.tail →
    lineSize.toNat ≠ ring.head + 1
  longLine : strchr newline (ring.buffer.drop ring.tail) = .absent →
    ring.head < ring.tail → ring.head = 0 → ring.fixedSize - ring.tail < lineSize.toNat →
    ∀ lineEnd, strchr newline ring.buffer = .found lineEnd →
      lineEnd ≠ 0 ∧ lineSize.toNat ≠ ring.fixedSize - ring.tail + 1

/-- There is something consumable in a full ring. -/
theorem Valid.length_ne_of_consumable (valid : ring.Valid) (nothing : ring.consumable = 0) :
    ring.length ≠ ring.fixedSize - 1 := by
  have twoLe := valid.twoLe
  intro full
  exact consumable_ne_zero valid (by omega) nothing

/-- From a full ring the first scan does not count to the end of its 16 bits. -/
theorem lineEnd_lt_of_full (ended : Ended ring)
    (full : ring.length = ring.fixedSize - 1) {lineEnd : Nat}
    (found : strchr newline (ring.buffer.drop ring.tail) = .found lineEnd) :
    lineEnd + 1 < 2 ^ 16 := by
  have valid := ended.valid
  have small := valid.small
  have headLt := valid.headLt
  have tailLt := valid.tailLt
  have there := (List.getElem?_eq_some_iff.mp (getElem?_of_found found)).1
  rw [List.length_drop, valid.cells] at there
  by_contra late
  -- only from the first cell to the spare cell of the largest ring
  have flat : ring.tail = 0 ∧ ring.head = ring.fixedSize - 1 := by
    rcases valid.length_cases with shape | shape <;> omega
  have away : ring.head ≠ 0 := by omega
  have atHead := ended.headEnd away
  have inArray : ring.head < ring.buffer.length := by
    rw [valid.cells]
    omega
  apply getElem?_ne_of_found (by decide) found (show ring.head ≤ lineEnd by omega)
  rw [List.getElem?_drop, flat.1, Nat.zero_add, List.getElem?_eq_getElem inArray, ← atHead,
    cell, List.getD_eq_getElem?_getD, List.getElem?_eq_getElem inArray, Option.getD_some]

/-- A newline that the scan from the start finds, but the scan from the tail does not, lies
in front of the tail. -/
theorem lineEnd_lt_tail {lineEnd : Nat}
    (absent : strchr newline (ring.buffer.drop ring.tail) = .absent)
    (start : strchr newline ring.buffer = .found lineEnd) : lineEnd < ring.tail := by
  by_contra behind
  rw [strchr_drop_of_found start (by omega)] at absent
  cases absent

/-- The scan from the start does not pass the head. -/
theorem lineEnd_lt_head (ended : Ended ring) (away : ring.head ≠ 0) {lineEnd : Nat}
    (start : strchr newline ring.buffer = .found lineEnd) : lineEnd < ring.head := by
  have valid := ended.valid
  have headLt := valid.headLt
  have inArray : ring.head < ring.buffer.length := by
    rw [valid.cells]
    omega
  by_contra behind
  apply getElem?_ne_of_found (by decide) start (show ring.head ≤ lineEnd by omega)
  rw [← ended.headEnd away, cell, List.getD_eq_getElem?_getD,
    List.getElem?_eq_getElem inArray, Option.getD_some]

/-- Taking a line leaves the flag right exactly in the states above. -/
theorem tellsFull_consumeLine_iff (ended : Ended ring)
    (result : ring.consumeLine lineSize = some (line, after)) :
    after.TellsFull ↔ LineKeepsFull ring lineSize := by
  have valid := ended.valid
  have small := valid.small
  have headLt := valid.headLt
  have tailLt := valid.tailLt
  have available := valid.consumable_le
  cases takesCells_of_consumeLine valid result with
  | found found =>
      rename_i lineEnd
      rw [valid.tellsFull_advance_iff (by omega)]
      constructor
      · intro keeps
        refine ⟨fun none => keeps (by omega), ?_, ?_⟩ <;> intro absent <;>
          rw [found] at absent <;> cases absent
      · intro keeps none full
        have early := lineEnd_lt_of_full ended full found
        have narrow : (UInt16.ofNat (lineEnd + 1)).toNat = lineEnd + 1 := by
          simp only [UInt16.toNat_ofNat']
          omega
        have noLine := keeps.noLine
        have some := mt valid.length_ne_of_consumable (not_not_intro full)
        omega
  | part absent short inFront =>
      rw [valid.tellsFull_advance_iff (by omega)]
      constructor
      · intro keeps
        refine ⟨keeps, fun _ _ _ => by omega, ?_⟩
        intro _ wrapped atStart long
        have consumable := Valid.consumable_of_wrapped wrapped
        omega
      · exact LineKeepsFull.noLine
  | passed absent wrapped short passes =>
      have consumable := Valid.consumable_of_wrapped wrapped
      rw [(valid.retail (by omega)).tellsFull_of_reset rfl]
      change lineSize.toNat ≠ (ring.head + 1) % ring.fixedSize ↔ _
      rw [Nat.mod_eq_of_lt (by omega)]
      constructor
      · intro apart
        exact ⟨fun none => by omega, fun _ _ _ => apart, fun _ _ _ long => by omega⟩
      · intro keeps
        exact keeps.shortLine absent wrapped (by omega)
  | piece absent long noMore =>
      rw [valid.tellsFull_advance_iff available]
      refine ⟨fun _ => ⟨fun none => valid.length_ne_of_consumable (by omega), ?_, ?_⟩,
        fun _ => valid.length_ne_of_consumable⟩
      · intro _ wrapped short
        have consumable := Valid.consumable_of_wrapped wrapped
        omega
      · intro _ wrapped _ _ lineEnd start
        rw [noMore wrapped] at start
        cases start
  | turned absent wrapped long start =>
      rename_i lineEnd
      have consumable := Valid.consumable_of_wrapped wrapped
      have early := lineEnd_lt_tail absent start
      have narrow : (UInt16.ofNat (lineEnd + 1)).toNat = lineEnd + 1 := by
        simp only [UInt16.toNat_ofNat']
        omega
      have inside : min (lineSize.toNat - ring.consumable) (lineEnd + 1) <
          ring.fixedSize := by
        omega
      rw [narrow, Nat.mod_eq_of_lt inside, (valid.retail inside).tellsFull_of_reset rfl]
      change min (lineSize.toNat - ring.consumable) (lineEnd + 1) ≠
        (ring.head + 1) % ring.fixedSize ↔ _
      rw [Nat.mod_eq_of_lt (show ring.head + 1 < ring.fixedSize by omega)]
      constructor
      · intro apart
        refine ⟨fun none => by omega, fun _ _ short => by omega, ?_⟩
        intro _ _ atStart room other found
        cases start.symm.trans found
        omega
      · intro keeps
        by_cases atStart : ring.head = 0
        · have longLine := keeps.longLine absent wrapped atStart
          by_cases room : ring.fixedSize - ring.tail < lineSize.toNat
          · have stops := longLine room lineEnd start
            omega
          · omega
        · have inFront := lineEnd_lt_head ended atStart start
          omega

theorem takesCells_valid (valid : ring.Valid) (takes : TakesCells ring lineSize after) :
    after.Valid ∧ after.head = ring.head ∧ after.buffer = ring.buffer := by
  have tailLt := valid.tailLt
  cases takes with
  | found => exact ⟨valid.advance _, rfl, rfl⟩
  | part => exact ⟨valid.advance _, rfl, rfl⟩
  | passed absent wrapped short =>
      have consumable := Valid.consumable_of_wrapped wrapped
      exact ⟨valid.retail (by omega), rfl, rfl⟩
  | piece => exact ⟨valid.advance _, rfl, rfl⟩
  | turned => exact ⟨valid.retail (Nat.mod_lt _ (by omega)), rfl, rfl⟩

end Line

/-! ## Every operation -/

namespace Ended

variable {ring after : CircularBuffer UInt8}

/-- Only the writes and the clearing move the head or change a cell. -/
theorem of_head (ended : Ended ring) (valid : after.Valid) (head : after.head = ring.head)
    (buffer : after.buffer = ring.buffer) : Ended after := by
  refine ⟨valid, ?_⟩
  rw [cell, head, buffer]
  exact ended.headEnd

theorem of_start (valid : after.Valid) (head : after.head = 0) : Ended after :=
  ⟨valid, fun away => absurd head away⟩

theorem write (ended : Ended ring) {items : List UInt8}
    (done : ring.write items = some after) : Ended after := by
  have valid := ended.valid
  have cells := valid.cells
  have headLt := valid.headLt
  obtain ⟨_, rfl⟩ := write_eq_some_iff.mp done
  have written := valid.written_characters items
  refine ⟨written.finish_valid valid, ?_⟩
  by_cases nothing : characters items = []
  · rw [nothing]
    simp only [Writing.finish, Writing.loop, cell, Nat.add_zero, Nat.zero_add,
      Nat.mod_eq_of_lt headLt]
    intro away
    have before := ended.headEnd away
    rw [List.getD_eq_getElem?_getD, List.getElem?_set]
    split
    · simp [show 1 < ring.buffer.length by omega]
    · rwa [cell, List.getD_eq_getElem?_getD] at before
  · exact (written.finish_terminated valid nothing).1

theorem writeItem (ended : Ended ring) (item : UInt8) : Ended (ring.writeItem item) := by
  have valid := ended.valid
  have cells := valid.cells
  have headLt := valid.headLt
  refine ⟨valid.writeItem item, ?_⟩
  simp only [CircularBuffer.writeItem, cell]
  intro away
  rcases mod_cases (show ring.head + 1 < ring.fixedSize + ring.fixedSize by omega)
    with ⟨_, next⟩ | ⟨_, next⟩
  · rw [next, List.getD_eq_getElem?_getD, List.getElem?_set_self (by
      rw [List.length_set]
      omega), Option.getD_some]
  · omega

theorem step {op : RingOp} (ended : Ended ring) (step : RingStep ring op after) :
    Ended after := by
  have valid := ended.valid
  unfold RingStep at step
  cases op with
  | write items => exact ended.write step
  | writeItem item =>
      cases step
      exact ended.writeItem item
  | consume =>
      cases step
      rw [consume_eq valid]
      split
      · exact ended
      · exact ended.of_head (valid.advance 1) rfl rfl
  | consumeBlock =>
      cases step
      rw [consumeBlock_eq valid]
      exact ended.of_head (valid.advance _) rfl rfl
  | consumeBlockInto blockSize =>
      cases step
      rw [consumeBlockInto_eq valid]
      exact ended.of_head (valid.advance _) rfl rfl
  | consumeLine lineSize =>
      obtain ⟨⟨line, _⟩, result, rfl⟩ := Option.map_eq_some_iff.mp step
      obtain ⟨afterValid, head, buffer⟩ :=
        takesCells_valid valid (takesCells_of_consumeLine valid result)
      exact ended.of_head afterValid head buffer
  | clear =>
      cases step
      exact of_start valid.clear rfl
  | clearIfEmpty =>
      cases step
      have afterValid := valid.clearIfEmpty
      by_cases nothing : ring.empty = true
      · rw [clearIfEmpty_eq, if_pos nothing] at afterValid ⊢
        exact of_start afterValid rfl
      · rw [clearIfEmpty_eq, if_neg nothing] at afterValid ⊢
        exact ended.of_head afterValid rfl rfl

end Ended

/-- The states in which an operation leaves the flag right: what is written must not leave
a full ring with its head in the last cell, a full ring must not be asked for no items, and
a line must be taken in one of the states above. -/
def KeepsFull (ring : CircularBuffer UInt8) : RingOp → Prop
  | .write items => ring.Fits (characters items).length
  | .writeItem _ => ring.Fits 1
  | .consumeBlockInto blockSize =>
      blockSize.toNat = 0 → ring.length ≠ ring.fixedSize - 1
  | .consumeLine lineSize => LineKeepsFull ring lineSize
  | .consume | .consumeBlock | .clear | .clearIfEmpty => True

/-- One operation leaves the flag right exactly in those states. -/
theorem TellsFull.step_iff {ring after : CircularBuffer UInt8} {op : RingOp}
    (tells : ring.TellsFull) (ended : Ended ring) (step : RingStep ring op after) :
    after.TellsFull ↔ KeepsFull ring op := by
  have valid := ended.valid
  have available := valid.consumable_le
  have atStart : ∀ {moved : CircularBuffer UInt8}, moved.Valid → moved.head = 0 →
      moved.tail = 0 → moved.maxed = false → moved.TellsFull := by
    intro moved movedValid head tail maxed
    have twoLe := movedValid.twoLe
    rw [movedValid.tellsFull_of_reset maxed, head, tail, Nat.mod_eq_of_lt (by omega)]
    decide
  unfold RingStep at step
  cases op with
  | write items => exact tells.write_iff valid step
  | writeItem item =>
      cases step
      exact tells.writeItem_iff valid item
  | consume =>
      cases step
      refine iff_of_true ?_ trivial
      rw [consume_eq valid]
      split
      · exact tells
      · rename_i some
        have positive := List.length_pos_iff.mpr some
        rw [length_content] at positive
        exact (valid.tellsFull_advance_iff (by omega)).mpr fun none => by omega
  | consumeBlock =>
      cases step
      rw [consumeBlock_eq valid]
      exact iff_of_true ((valid.tellsFull_advance_iff available).mpr
        valid.length_ne_of_consumable) trivial
  | consumeBlockInto blockSize =>
      cases step
      rw [consumeBlockInto_eq valid, valid.tellsFull_advance_iff (by omega)]
      constructor
      · exact fun keeps none => keeps (by omega)
      · intro keeps none
        by_cases nothing : ring.consumable = 0
        · exact valid.length_ne_of_consumable nothing
        · exact keeps (by omega)
  | consumeLine lineSize =>
      obtain ⟨⟨line, _⟩, result, rfl⟩ := Option.map_eq_some_iff.mp step
      exact tellsFull_consumeLine_iff ended result
  | clear =>
      cases step
      exact iff_of_true (atStart valid.clear rfl rfl rfl) trivial
  | clearIfEmpty =>
      cases step
      refine iff_of_true ?_ trivial
      have afterValid := valid.clearIfEmpty
      by_cases nothing : ring.empty = true
      · rw [clearIfEmpty_eq, if_pos nothing] at afterValid ⊢
        exact atStart afterValid rfl rfl rfl
      · rw [clearIfEmpty_eq, if_neg nothing]
        exact tells

theorem new_ended {cells : List UInt8} {size : Nat} (twoLe : 2 ≤ size)
    (small : size < 2 ^ 16) (room : cells.length = size + 1) : Ended (new cells size) :=
  ⟨new_valid twoLe small room, fun away => absurd rfl away⟩

theorem new_tellsFull {cells : List UInt8} {size : Nat} (twoLe : 2 ≤ size) :
    (new cells size).TellsFull := by
  rw [TellsFull, content_new]
  simp only [full, new, Bool.false_eq_true, List.length_nil, false_iff]
  omega

theorem ringStep_functional {ring left right : CircularBuffer UInt8} {op : RingOp}
    (first : RingStep ring op left) (second : RingStep ring op right) : left = right :=
  Option.some.inj (first.symm.trans second)

/-- In a run of a fresh ring of any capacity, `full()` tells in every state whether there
are `size - 1` items exactly when every operation is made in a state in which it leaves the
flag right. -/
theorem tellsFull_throughout_iff {cells : List UInt8} {size : Nat} {ops : List RingOp}
    {ring : CircularBuffer UInt8} (twoLe : 2 ≤ size) (small : size < 2 ^ 16)
    (room : cells.length = size + 1) (run : Run RingStep (new cells size) ops ring) :
    Throughout RingStep TellsFull (new cells size) ops ↔
      Run (Guarded KeepsFull RingStep) (new cells size) ops ring :=
  run.throughout_iff_guarded_of_invariant ringStep_functional Ended.step
    (fun ended tells step => tells.step_iff ended step) (new_ended twoLe small room)
    (new_tellsFull twoLe)

/-- The first of two items fits, the second fills the ring with its head in the last
cell. -/
theorem tellsFull_throughout_iff_two :
    Throughout RingStep TellsFull (new [9, 9, 9, 9] 3) [.write [65], .writeItem 66] ↔
      Run (Guarded KeepsFull RingStep) (new [9, 9, 9, 9] 3) [.write [65], .writeItem 66]
        { buffer := [65, 66, 0, 9], fixedSize := 3, head := 2 } :=
  tellsFull_throughout_iff (by decide) (by decide) rfl
    (.cons (show RingStep _ _ { buffer := [65, 0, 9, 9], fixedSize := 3, head := 1 } from rfl)
      (.cons rfl (.nil _)))

/-- Two items fill a ring with room for two, and `full()` says that it is not. -/
theorem full_untrue :
    ¬ ∀ (cells : List UInt8) (size : Nat) (ops : List RingOp) (ring : CircularBuffer UInt8),
      2 ≤ size → size < 2 ^ 16 → cells.length = size + 1 →
      Run RingStep (new cells size) ops ring → ring.TellsFull := by
  intro always
  have tells := always [9, 9, 9, 9] 3 [.write [65], .writeItem 66]
    { buffer := [65, 66, 0, 9], fixedSize := 3, head := 2 } (by decide) (by decide) rfl
    (.cons (show RingStep _ _ { buffer := [65, 0, 9, 9], fixedSize := 3, head := 1 } from rfl)
      (.cons rfl (.nil _)))
  have flag : false = true := tells.mpr rfl
  cases flag

end BleRepeater.CircularBuffer
