import BleRepeater.CircularBuffer.Drain
import BleRepeater.CircularBuffer.Fullness

/-!
# Scanning inside the array

`strchr` stops at a newline or at a terminator.  A write leaves a terminator behind the
string: at the head, or in the spare cell when the string ends with the last cell in front of
it.  Content that turns round runs into the spare cell, and nothing but such a write ever
puts a terminator there; the constructor leaves the cell as it was on the heap.
-/

namespace BleRepeater.CircularBuffer

open Transition

/-- What a scan for the end of a line stops at. -/
def Stops (cell : UInt8) : Prop :=
  cell = newline ∨ cell = endItem

/-- The spare cell stops a scan. -/
def SpareStops (ring : CircularBuffer UInt8) : Prop :=
  Stops (ring.cell ring.fixedSize)

/-- What is written is a string that is not empty. -/
def WritesStrings (_ring : CircularBuffer UInt8) : RingOp → Prop
  | .write items => characters items ≠ []
  | .writeItem _ => False
  | _ => True

/-- One operation, whose writes are of non-empty strings. -/
def StringStep : CircularBuffer UInt8 → RingOp → CircularBuffer UInt8 → Prop :=
  Guarded WritesStrings RingStep

/-- A string that ends with the last cell in front of the spare one. -/
def FillsEnd (ring : CircularBuffer UInt8) : RingOp → Prop
  | .write items => (ring.head + (characters items).length) % ring.fixedSize = 0
  | _ => False

/-! ## Scans -/

/-- The scans that `consume_line` makes. -/
theorem consumeLine_isSome_iff {ring : CircularBuffer UInt8} {lineSize : UInt16} :
    (ring.consumeLine lineSize).isSome ↔
      strchr newline (ring.buffer.drop ring.tail) ≠ .overrun ∧
      (strchr newline (ring.buffer.drop ring.tail) = .absent →
        (ring.consumable ≤ lineSize.toNat → ring.wraps = true →
          strchr newline ring.buffer ≠ .overrun) ∧
        (lineSize.toNat < ring.consumable →
          strchr newline (ring.buffer.drop (ring.tail + lineSize.toNat)) ≠ .overrun)) := by
  unfold consumeLine
  cases first : strchr newline (ring.buffer.drop ring.tail) with
  | overrun => simp
  | found lineEnd => simp
  | absent =>
      by_cases whole : ring.consumable ≤ lineSize.toNat
      · have all : ring.consumable = min lineSize.toNat ring.consumable := by omega
        by_cases wraps : ring.wraps = true
        · cases strchr newline ring.buffer <;> simp [wraps, whole, Nat.not_lt.mpr whole]
        · simp [wraps, whole, Nat.not_lt.mpr whole]
      · have part : min lineSize.toNat ring.consumable = lineSize.toNat := by omega
        have short : lineSize.toNat < ring.consumable := by omega
        have other : ring.consumable ≠ lineSize.toNat := by omega
        cases third : strchr newline (ring.buffer.drop (ring.tail + lineSize.toNat)) <;>
          simp [part, other, whole, short, third]

theorem Valid.cell_mem_drop {ring : CircularBuffer UInt8} (valid : ring.Valid)
    {start index : Nat} (behind : start ≤ index) (inside : index ≤ ring.fixedSize) :
    ring.cell index ∈ ring.buffer.drop start := by
  have here : ring.cell index ∈ ring.buffer.drop index := by
    rw [valid.drop_eq_cons inside]
    exact List.mem_cons_self
  exact (List.drop_sublist_drop_left _ behind).mem here

/-! ## The cells -/

/-- What the writes of strings guarantee about the raw cells, whatever is taken, and however:
the head stands on a terminator, or in the first cell; then the ring is empty there, or the
spare cell holds one.  No other terminator lies in front of the head, and none at all once the
content turns round. -/
structure Filled (ring : CircularBuffer UInt8) : Prop where
  ended : Ended ring
  spareEnd : ring.head = 0 → ring.tail = 0 ∨ ring.cell ring.fixedSize = endItem
  behind : ∀ index < ring.head, ring.cell index ≠ endItem
  round : ring.head < ring.tail → ∀ index < ring.fixedSize, index ≠ ring.head →
    ring.cell index ≠ endItem

variable {ring after : CircularBuffer UInt8} {items : List UInt8}

/-- A terminator in a cell that the loop may write to was there before, and the loop has not
come to the cell. -/
theorem Valid.loop_endItem (valid : ring.Valid) (noEnd : ∀ item ∈ items, item ≠ endItem)
    {state : Writing UInt8} (cells : state.buffer.length = ring.fixedSize + 1) {index : Nat}
    (ends : (Writing.loop ring items state).buffer.getD index endItem = endItem) :
    state.buffer.getD index endItem = endItem ∧
      ∀ count < items.length, (ring.head + state.count + count) % ring.fixedSize ≠ index := by
  induction items generalizing state with
  | nil => exact ⟨ends, by simp⟩
  | cons item items ih =>
      have twoLe := valid.twoLe
      have here := noEnd item (by simp)
      have inside : (ring.head + state.count) % ring.fixedSize < ring.fixedSize :=
        Nat.mod_lt _ (by omega)
      rw [Writing.loop, if_neg here] at ends
      obtain ⟨before, later⟩ := ih (fun other member => noEnd other (by simp [member]))
        (by simpa [Writing.put] using cells) ends
      have apart : (ring.head + state.count) % ring.fixedSize ≠ index := by
        intro same
        simp only [Writing.put] at before
        rw [same, List.getD_eq_getElem?_getD, List.getElem?_set_self (by omega)] at before
        exact here before
      simp only [Writing.put] at before later
      rw [List.getD_eq_getElem?_getD, List.getElem?_set_ne apart,
        ← List.getD_eq_getElem?_getD] at before
      refine ⟨before, ?_⟩
      intro count early
      cases count with
      | zero => exact apart
      | succ count =>
          rw [show ring.head + state.count + (count + 1) =
            ring.head + (state.count + 1) + count by omega]
          exact later count (by simpa using early)

/-- What a write of a string does to the cells and the head. -/
structure WritesCells (ring : CircularBuffer UInt8) (count : Nat)
    (after : CircularBuffer UInt8) : Prop where
  head : after.head = (ring.head + count) % ring.fixedSize
  size : after.fixedSize = ring.fixedSize
  tail : ring.tail ≤ ring.head → ring.head + count < ring.fixedSize → after.tail = ring.tail
  cells : ∀ index < ring.fixedSize, index ≠ after.head → after.cell index = endItem →
    ring.cell index = endItem ∧
      ∀ written < count, (ring.head + written) % ring.fixedSize ≠ index
  spare : after.cell ring.fixedSize =
    if after.head = 0 then endItem else ring.cell ring.fixedSize

theorem Valid.writesCells (valid : ring.Valid) (nonempty : characters items ≠ [])
    (done : ring.write items = some after) :
    WritesCells ring (characters items).length after := by
  obtain ⟨_, rfl⟩ := write_eq_some_iff.mp done
  have written := valid.written_characters items
  have bufferLength := valid.cells
  have pos := written.pos_cases valid nonempty
  have terminated := written.finish_terminated valid nonempty
  refine ⟨?_, rfl, ?_, ?_, ?_⟩
  · simp only [Writing.finish, written.count]
  · intro flat short
    have unflagged : ring.maxed ≠ true := by
      intro flagged
      have := valid.maxedFull flagged
      omega
    have unnoticed : ¬ (Writing.loop ring (characters items)
        { buffer := ring.buffer, maxed := ring.maxed }).maxed = true := by
      rw [written.maxed]
      rintro (flagged | ⟨count, early, filled⟩)
      · exact unflagged flagged
      · have place := Nat.mod_eq_of_lt (show ring.head + count < ring.fixedSize by omega)
        simp only [fills, headBeforeTail, place, Bool.or_eq_true, Bool.and_eq_true,
          decide_eq_true_eq, beq_iff_eq] at filled
        rcases mod_cases (show ring.head + count + 1 < ring.fixedSize + ring.fixedSize by omega)
          with ⟨_, next⟩ | ⟨_, next⟩ <;> rw [next] at filled <;> omega
    simp only [Writing.finish, if_neg unnoticed]
  · intro index inside away ends
    simp only [Writing.finish, cell] at away ends
    rw [List.getD_eq_getElem?_getD, List.getElem?_set_ne (by omega),
      ← List.getD_eq_getElem?_getD] at ends
    have loop := valid.loop_endItem endItem_notMem_characters valid.cells ends
    simpa only [cell, Nat.add_zero] using loop
  · split
    · rename_i atStart
      exact terminated.2 atStart
    · rename_i away
      change ¬ (ring.head + (Writing.loop ring (characters items)
        { buffer := ring.buffer, maxed := ring.maxed }).count) % ring.fixedSize = 0 at away
      have inFront := Nat.mod_lt (ring.head + (Writing.loop ring (characters items)
        { buffer := ring.buffer, maxed := ring.maxed }).count)
        (show 0 < ring.fixedSize by have := valid.twoLe; omega)
      have loop := spare_loop valid (characters items)
        { buffer := ring.buffer, maxed := ring.maxed }
      simp only [Writing.finish, cell]
      rw [List.getD_eq_getElem?_getD, List.getElem?_set_ne (by omega),
        ← List.getD_eq_getElem?_getD, loop]

/-! ## Every operation -/

namespace Filled

/-- Only the writes and the clearing move the head or change a cell, and taking items does
not turn content round. -/
theorem of_head (filled : Filled ring) (valid : after.Valid) (head : after.head = ring.head)
    (size : after.fixedSize = ring.fixedSize) (buffer : after.buffer = ring.buffer)
    (tail : ring.head = 0 → ring.tail = 0 → after.tail = 0)
    (turned : after.head < after.tail → ring.head < ring.tail) : Filled after := by
  have cells : ∀ index, after.cell index = ring.cell index := by
    intro index
    rw [cell, cell, buffer]
  refine ⟨filled.ended.of_head valid head buffer, ?_, ?_, ?_⟩
  · intro atStart
    rw [cells, size]
    rw [head] at atStart
    exact (filled.spareEnd atStart).imp_left (tail atStart)
  · intro index behind
    rw [cells]
    exact filled.behind index (by omega)
  · intro wrapped index inside away
    rw [cells]
    exact filled.round (turned wrapped) index (by omega) (by omega)

/-- Taking items at the tail, no more than lie in one piece. -/
theorem advance (filled : Filled ring) {count : Nat} (inOnePiece : count ≤ ring.consumable) :
    Filled (ring.advance count) := by
  have valid := filled.ended.valid
  have tailLt := valid.tailLt
  have headLt := valid.headLt
  refine filled.of_head (valid.advance count) rfl rfl rfl ?_ ?_
  · intro head tail
    rw [Valid.consumable_of_flat (by omega)] at inOnePiece
    simp only [CircularBuffer.advance]
    rw [Nat.mod_eq_of_lt (by omega)]
    omega
  · intro wrapped
    by_contra flat
    rw [Valid.consumable_of_flat (by omega)] at inOnePiece
    simp only [CircularBuffer.advance] at wrapped
    rw [Nat.mod_eq_of_lt (by omega)] at wrapped
    omega

/-- An empty ring with both indices at the start. -/
theorem of_start (valid : after.Valid) (head : after.head = 0) (tail : after.tail = 0) :
    Filled after := by
  refine ⟨Ended.of_start valid head, fun _ => Or.inl tail, ?_, ?_⟩
  · intro index behind
    omega
  · intro wrapped
    omega

/-- A terminator other than the one at the head lies behind a string that did not come to the
end of the array, in a ring whose content lies in one piece. -/
theorem endItem_after_write (filled : Filled ring) {count index : Nat} (some : 0 < count)
    (wrote : WritesCells ring count after) (inside : index < ring.fixedSize)
    (away : index ≠ after.head) (ends : after.cell index = endItem) :
    ring.tail ≤ ring.head ∧ ring.head + count < index ∧ after.head = ring.head + count := by
  obtain ⟨before, unwritten⟩ := wrote.cells index inside away ends
  have ahead : ring.head ≤ index := by
    by_contra behind
    exact filled.behind index (by omega) before
  have further : ring.head + count ≤ index := by
    by_contra early
    refine unwritten (index - ring.head) (by omega) ?_
    rw [show ring.head + (index - ring.head) = index by omega, Nat.mod_eq_of_lt inside]
  have head : after.head = ring.head + count := by
    rw [wrote.head, Nat.mod_eq_of_lt (by omega)]
  refine ⟨?_, by omega, head⟩
  by_contra wrapped
  exact filled.round (by omega) index inside (by omega) before

theorem write (filled : Filled ring) (nonempty : characters items ≠ [])
    (done : ring.write items = some after) : Filled after := by
  have valid := filled.ended.valid
  have some := List.length_pos_iff.mpr nonempty
  have ended := filled.ended.write done
  have wrote := valid.writesCells nonempty done
  have inside := ended.valid.headLt
  have size := wrote.size
  refine ⟨ended, ?_, ?_, ?_⟩
  · intro atStart
    rw [size, wrote.spare, if_pos atStart]
    exact Or.inr rfl
  · intro index behind ends
    obtain ⟨_, further, head⟩ :=
      filled.endItem_after_write some wrote (by omega) (by omega) ends
    omega
  · intro wrapped index inside away ends
    obtain ⟨flat, further, head⟩ :=
      filled.endItem_after_write some wrote (by omega) away ends
    have tail := wrote.tail flat (by omega)
    omega

/-- Every way of taking items keeps the guarantees, and so does every write of a string. -/
theorem step {op : RingOp} (filled : Filled ring) (step : StringStep ring op after) :
    Filled after := by
  obtain ⟨strings, step⟩ := step
  have valid := filled.ended.valid
  have tailLt := valid.tailLt
  have headLt := valid.headLt
  unfold RingStep at step
  cases op with
  | write items => exact filled.write strings step
  | writeItem item => cases strings
  | consume =>
      cases step
      rw [consume_eq valid]
      split
      · exact filled
      · rename_i some
        have positive := List.length_pos_iff.mpr some
        rw [length_content] at positive
        have := consumable_ne_zero valid (by omega)
        exact filled.advance (by omega)
  | consumeBlock =>
      cases step
      rw [consumeBlock_eq valid]
      exact filled.advance (Nat.le_refl _)
  | consumeBlockInto blockSize =>
      cases step
      rw [consumeBlockInto_eq valid]
      exact filled.advance (Nat.min_le_right ..)
  | consumeLine lineSize =>
      obtain ⟨⟨line, _⟩, result, rfl⟩ := Option.map_eq_some_iff.mp step
      have takes := takesCells_of_consumeLine valid result
      obtain ⟨afterValid, head, buffer⟩ := takesCells_valid valid takes
      cases takes with
      | found => exact filled.advance (by omega)
      | part _ short => exact filled.advance (by omega)
      | passed _ wrapped => exact filled.of_head afterValid rfl rfl rfl (by omega) (by omega)
      | piece => exact filled.advance (Nat.le_refl _)
      | turned _ wrapped => exact filled.of_head afterValid rfl rfl rfl (by omega) (by omega)
  | clear =>
      cases step
      exact of_start valid.clear rfl rfl
  | clearIfEmpty =>
      cases step
      have afterValid := valid.clearIfEmpty
      by_cases nothing : ring.empty = true
      · rw [clearIfEmpty_eq, if_pos nothing] at afterValid ⊢
        exact of_start afterValid rfl rfl
      · rw [clearIfEmpty_eq, if_neg nothing] at afterValid ⊢
        exact filled.of_head afterValid rfl rfl rfl (fun _ tail => tail) id

/-! ## What a scan meets -/

/-- Before the turn there is no terminator. -/
theorem piece_ne_endItem (filled : Filled ring) (wrapped : ring.head < ring.tail) :
    ∀ item ∈ ring.content.take ring.consumable, item ≠ endItem := by
  have valid := filled.ended.valid
  have tailLt := valid.tailLt
  have cells := valid.cells
  have consumable := Valid.consumable_of_wrapped wrapped
  rw [← valid.slice_tail (Nat.le_refl _), slice_eq ring (by omega)]
  intro item member
  obtain ⟨index, early, rfl⟩ := List.mem_map.mp member
  rw [List.mem_range] at early
  exact filled.round wrapped _ (by omega) (by omega)

/-- The first scan of content that turns round. -/
theorem scan_wrapped (filled : Filled ring) (wrapped : ring.head < ring.tail) :
    strchr newline (ring.buffer.drop ring.tail) =
      if newline ∈ ring.content.take ring.consumable then
        .found ((ring.content.take ring.consumable).idxOf newline)
      else
        (strchr newline [ring.cell ring.fixedSize]).after
          (ring.content.take ring.consumable).length := by
  have valid := filled.ended.valid
  have tailLt := valid.tailLt
  have consumable := Valid.consumable_of_wrapped wrapped
  have last : ring.tail + ring.consumable = ring.fixedSize := by omega
  rw [valid.drop_tail (Nat.le_refl _), last, valid.drop_eq_cons (Nat.le_refl _),
    List.drop_eq_nil_of_le (by rw [valid.cells]),
    strchr_append _ (filled.piece_ne_endItem wrapped)]

/-- A ring that is not empty: every scan that `consume_line` makes stays inside the array
exactly when, with content that turns round, there is a newline before the turn or the spare
cell stops the first scan. -/
theorem consumeLine_isSome_iff (filled : Filled ring) (some : ring.empty = false)
    {lineSize : UInt16} :
    (ring.consumeLine lineSize).isSome ↔
      (ring.head < ring.tail →
        newline ∈ ring.content.take ring.consumable ∨ SpareStops ring) := by
  have valid := filled.ended.valid
  have headLt := valid.headLt
  have tailLt := valid.tailLt
  have apart : ring.head ≠ ring.tail := by simpa [empty] using some
  rw [CircularBuffer.consumeLine_isSome_iff]
  by_cases wrapped : ring.head < ring.tail
  · have scan := filled.scan_wrapped wrapped
    have consumable := Valid.consumable_of_wrapped wrapped
    by_cases member : newline ∈ ring.content.take ring.consumable
    · rw [if_pos member] at scan
      simp [scan, member]
    · rw [if_neg member] at scan
      have rest : strchr newline (ring.buffer.drop ring.tail) = .absent →
          ∀ start ≤ ring.fixedSize, strchr newline (ring.buffer.drop start) ≠ .overrun := by
        intro absent start inside
        rw [scan, Scan.after_eq_absent, scan_single_absent] at absent
        exact strchr_ne_overrun (absent ▸ valid.cell_mem_drop inside (Nat.le_refl _))
      have first : strchr newline (ring.buffer.drop ring.tail) ≠ .overrun ↔
          SpareStops ring := by
        rw [scan, ne_eq, Scan.after_eq_overrun, scan_single_overrun, not_not, SpareStops, Stops]
      rw [first]
      constructor
      · exact fun both _ => Or.inr both.1
      · intro stops
        refine ⟨(stops wrapped).resolve_left member, fun absent => ⟨fun _ _ => ?_, fun _ => ?_⟩⟩
        · exact rest absent 0 (Nat.zero_le _)
        · exact rest absent _ (by omega)
  · have ends := filled.ended.headEnd (by omega)
    have inside : ∀ start ≤ ring.head, strchr newline (ring.buffer.drop start) ≠ .overrun :=
      fun start before => strchr_ne_overrun (ends ▸ valid.cell_mem_drop before (by omega))
    have consumable := Valid.consumable_of_flat (show ring.tail ≤ ring.head by omega)
    refine iff_of_true ⟨inside _ (by omega), fun _ => ⟨fun _ wraps => ?_, fun _ => ?_⟩⟩
      (fun turned => absurd turned wrapped)
    · exact absurd (Valid.wraps_iff.mp wraps) wrapped
    · exact inside _ (by omega)

end Filled

/-! ## The spare cell -/

/-- What does not write to the buffer leaves the spare cell. -/
theorem Valid.spare_eq (valid : ring.Valid) (afterValid : after.Valid)
    (buffer : after.buffer = ring.buffer) :
    after.cell after.fixedSize = ring.cell ring.fixedSize := by
  have before := valid.cells
  have behind := afterValid.cells
  rw [buffer] at behind
  rw [cell, cell, buffer, show after.fixedSize = ring.fixedSize by omega]

/-- Clearing writes to the first cell, which is not the spare one. -/
theorem Valid.spare_clear (valid : ring.Valid) :
    ring.clear.cell ring.clear.fixedSize = ring.cell ring.fixedSize := by
  have twoLe := valid.twoLe
  simp only [CircularBuffer.clear, cell]
  rw [List.getD_eq_getElem?_getD, List.getElem?_set_ne (by omega),
    ← List.getD_eq_getElem?_getD]

/-- Nothing but a write changes the spare cell. -/
theorem Valid.spare_step {op : RingOp} (valid : ring.Valid) (step : StringStep ring op after)
    (noWrite : ∀ items, op ≠ .write items) :
    after.cell after.fixedSize = ring.cell ring.fixedSize := by
  obtain ⟨strings, step⟩ := step
  unfold RingStep at step
  cases op with
  | write items => exact absurd rfl (noWrite items)
  | writeItem item => cases strings
  | consume =>
      cases step
      rw [consume_eq valid]
      split <;> rfl
  | consumeBlock =>
      cases step
      rfl
  | consumeBlockInto blockSize =>
      cases step
      rfl
  | consumeLine lineSize =>
      obtain ⟨⟨line, _⟩, result, rfl⟩ := Option.map_eq_some_iff.mp step
      obtain ⟨afterValid, _, buffer⟩ :=
        takesCells_valid valid (takesCells_of_consumeLine valid result)
      exact valid.spare_eq afterValid buffer
  | clear =>
      cases step
      exact valid.spare_clear
  | clearIfEmpty =>
      cases step
      rw [clearIfEmpty_eq]
      split <;> rfl

/-- A string that ends with the last cell puts a terminator into the spare cell, and nothing
else changes it. -/
theorem Valid.stops_spare_step {op : RingOp} (valid : ring.Valid)
    (step : StringStep ring op after) :
    SpareStops after ↔ FillsEnd ring op ∨ SpareStops ring := by
  unfold SpareStops
  by_cases write : ∃ items, op = .write items
  · obtain ⟨items, rfl⟩ := write
    obtain ⟨strings, done⟩ := step
    have wrote := valid.writesCells strings done
    rw [wrote.size, wrote.spare, wrote.head]
    by_cases ends : (ring.head + (characters items).length) % ring.fixedSize = 0
    · simp [FillsEnd, ends, Stops]
    · simp [FillsEnd, ends]
  · have noWrite := not_exists.mp write
    rw [valid.spare_step step noWrite]
    cases op with
    | write items => exact absurd rfl (noWrite items)
    | _ => simp [FillsEnd]

/-- After clearing a new ring and any run of string writes and consumptions, the scans for a
line of a buffer that is not empty stay inside the array exactly when content that turns round
has a newline before the turn, or the spare cell held something that stops a scan when it was
allocated, or some string has ended with the last cell in front of it. -/
theorem scansInside_iff {cells : List UInt8} {size : Nat} {ops : List RingOp}
    {ring : CircularBuffer UInt8} {lineSize : UInt16} (twoLe : 2 ≤ size)
    (small : size < 2 ^ 16) (room : cells.length = size + 1)
    (run : Run StringStep (new cells size).clear ops ring) (some : ring.empty = false) :
    (ring.consumeLine lineSize).isSome ↔
      (ring.head < ring.tail → newline ∈ ring.content.take ring.consumable ∨
        Stops (cells.getD size endItem) ∨
        Occurs StringStep FillsEnd (new cells size).clear ops ring) := by
  have fresh := new_valid twoLe small room
  have initial : Filled (new cells size).clear := Filled.of_start fresh.clear rfl rfl
  have filled : Filled ring := run.invariant Filled.step initial
  have spare := run.has_iff_of_gains Filled.step
    (fun filled step => filled.ended.valid.stops_spare_step step) initial
  have allocated : SpareStops (new cells size).clear ↔ Stops (cells.getD size endItem) := by
    rw [SpareStops, fresh.spare_clear]
    rfl
  rw [filled.consumeLine_isSome_iff some, spare, allocated]

/-- Three letters, of which one is left, and two that turn round the end. -/
theorem run_turned (spare : UInt8) :
    Run StringStep (new [65, 65, 65, 65, spare] 4).clear
      [.write [97, 98, 99], .consume, .consume, .write [100, 101]]
      { buffer := [101, 0, 99, 100, spare], fixedSize := 4, head := 1, tail := 2,
        maxed := true } := by
  have first : characters ([97, 98, 99] : List UInt8) ≠ [] := by decide
  have second : characters ([100, 101] : List UInt8) ≠ [] := by decide
  have wrote : StringStep (new [65, 65, 65, 65, spare] 4).clear (.write [97, 98, 99])
      { buffer := [97, 98, 99, 0, spare], fixedSize := 4, head := 3 } := ⟨first, rfl⟩
  have turned : StringStep
      { buffer := [97, 98, 99, 0, spare], fixedSize := 4, head := 3, tail := 2 }
      (.write [100, 101])
      { buffer := [101, 0, 99, 100, spare], fixedSize := 4, head := 1, tail := 2,
        maxed := true } := by
    refine ⟨second, ?_⟩
    simp [RingStep, perform, CircularBuffer.write, Writing.loop, Writing.put, Writing.finish,
      headBeforeTail, endItem]
  exact .cons wrote (.cons ⟨trivial, rfl⟩ (.cons ⟨trivial, rfl⟩ (.cons turned (.nil _))))

/-- The spare cell happened to hold a terminator. -/
theorem scansInside_iff_terminated :
    ∃ ring, ring.head < ring.tail ∧ (ring.consumeLine 10).isSome = true ∧
      Run StringStep (new [65, 65, 65, 65, 0] 4).clear
        [.write [97, 98, 99], .consume, .consume, .write [100, 101]] ring := by
  have run := run_turned 0
  refine ⟨_, by decide, ?_, run⟩
  rw [scansInside_iff (by decide) (by decide) rfl run rfl]
  exact fun _ => Or.inr (Or.inl (Or.inr rfl))

/-- The spare cell happened to hold a letter, and the scan goes on behind the array. -/
theorem scan_leaves_array :
    ¬ ∀ (cells : List UInt8) (size : Nat) (ops : List RingOp) (ring : CircularBuffer UInt8)
      (lineSize : UInt16), 2 ≤ size → size < 2 ^ 16 → cells.length = size + 1 →
      Run StringStep (new cells size).clear ops ring → ring.empty = false →
      (ring.consumeLine lineSize).isSome = true := by
  intro always
  have inside := always _ 4 _ _ 10 (by decide) (by decide) rfl (run_turned 65) rfl
  revert inside
  decide

end BleRepeater.CircularBuffer
