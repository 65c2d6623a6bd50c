import BleRepeater.CircularBuffer.Write

/-!
# The ring refines a bounded queue

Every client operation on a ring is an event of the bounded queue of capacity
`size - 1` on its content.  The invariant of the simulation is `Valid` together
with `Tight`, which says that `maxed` misses no full ring except one whose tail
is at the start of the array, where the loop of `write` tests for itself.
-/

namespace BleRepeater.CircularBuffer

open BoundedQueue Transition

variable {α : Type}

/-- The client operations, labelled with what the client observes. -/
inductive ClientStep [Zero α] [DecidableEq α] :
    CircularBuffer α → Event α → CircularBuffer α → Prop where
  | write {ring after : CircularBuffer α} {items : List α} :
      Storable items → ring.write items = some after →
      ClientStep ring (.write items) after
  | consume (ring : CircularBuffer α) :
      ClientStep ring (.consume ring.consume.1) ring.consume.2
  | consumeBlock (ring : CircularBuffer α) :
      ClientStep ring (.consumeBlock ring.consumeBlock.1) ring.consumeBlock.2
  | consumeBlockInto (ring : CircularBuffer α) (blockSize : UInt16) :
      1 ≤ blockSize.toNat →
      ClientStep ring (.consumeBlock (ring.consumeBlockInto blockSize).1)
        (ring.consumeBlockInto blockSize).2
  | clear (ring : CircularBuffer α) : ClientStep ring .clear ring.clear
  | clearIfEmpty (ring : CircularBuffer α) :
      ClientStep ring .clearIfEmpty ring.clearIfEmpty

/-- The simulation invariant. -/
structure Queued (ring : CircularBuffer α) : Prop where
  valid : ring.Valid
  tight : ring.Tight

/-- A ring whose head is not right before its tail has nothing to notice. -/
theorem new_queued {cells : List α} {size : Nat} (twoLe : 2 ≤ size)
    (small : size < 2 ^ 16) (room : cells.length = size + 1) :
    Queued (new cells size) where
  valid := new_valid twoLe small room
  tight := fun full => absurd full (by simp [new])

/-- Taking items keeps the invariant: afterwards there is room, unless nothing was
taken from the empty ring. -/
theorem Queued.advance {ring : CircularBuffer α} (queued : Queued ring) {count : Nat}
    (available : count ≤ ring.length) (taken : ring.length ≠ 0 → count ≠ 0) :
    Queued (ring.advance count) where
  valid := queued.valid.advance count
  tight := by
    intro full
    have shape := (queued.valid.advance count).length_cases
    have shorter := queued.valid.length_advance available
    have lengthLt := queued.valid.length_lt
    have twoLe := queued.valid.twoLe
    have size : (ring.advance count).fixedSize = ring.fixedSize := rfl
    omega

/-- Taking items is what the queue calls consuming a block. -/
theorem Queued.step_advance [Zero α] {ring : CircularBuffer α} (queued : Queued ring)
    {count : Nat} (available : count ≤ ring.length)
    (taken : ring.length ≠ 0 → count ≠ 0) :
    Step (ring.fixedSize - 1) endItem ring.content
      (.consumeBlock (ring.content.take count)) (ring.advance count).content := by
  rw [queued.valid.content_advance available]
  have split := @Step.consumeBlock α (ring.fixedSize - 1) endItem
    (ring.content.take count) (ring.content.drop count)
  rw [List.take_append_drop] at split
  apply split
  intro nonempty nothing
  have shorter := congrArg List.length nothing
  have positive := List.length_pos_iff.mpr nonempty
  simp only [List.length_take, length_content, List.length_nil] at shorter positive
  have := taken (by omega)
  omega

/-! ## The operations one by one -/

/-- `consume` takes the first item, and nothing from an empty ring. -/
theorem consume_eq [Zero α] {ring : CircularBuffer α} (valid : ring.Valid) :
    ring.consume =
      if ring.content = [] then (endItem, ring)
      else (ring.content.headD endItem, ring.advance 1) := by
  unfold consume
  by_cases nothing : ring.content = []
  · rw [if_pos (valid.empty_iff.mpr nothing), if_pos nothing]
  · rw [if_neg (mt valid.empty_iff.mp nothing), if_neg nothing]
    have positive := List.length_pos_iff.mpr nothing
    have first := getElem_content ring 0 positive
    rw [Nat.add_zero, Nat.mod_eq_of_lt valid.tailLt] at first
    rw [← first, List.headD_eq_head?_getD, List.head?_eq_getElem?,
      List.getElem?_eq_getElem positive]
    rfl

/-- Behind the consumable items the tail comes to the start or to the head. -/
theorem tail_consumable {ring : CircularBuffer α} (valid : ring.Valid) :
    (ring.tail + ring.consumable) % ring.fixedSize =
      if ring.wraps then 0 else ring.head := by
  have headLt := valid.headLt
  have tailLt := valid.tailLt
  unfold consumable
  split
  · rw [show ring.tail + (ring.fixedSize - ring.tail) = ring.fixedSize by omega,
      Nat.mod_self]
  · rename_i flat
    have ahead := mt Valid.wraps_iff.mpr flat
    rw [show ring.tail + (ring.head - ring.tail) = ring.head by omega,
      Nat.mod_eq_of_lt headLt]

/-- Something is consumable as soon as there is something. -/
theorem consumable_ne_zero {ring : CircularBuffer α} (valid : ring.Valid)
    (some : ring.length ≠ 0) : ring.consumable ≠ 0 := by
  have tailLt := valid.tailLt
  unfold consumable
  split
  · omega
  · rename_i flat
    have ahead := mt Valid.wraps_iff.mpr flat
    rcases valid.length_cases with before | before <;> omega

theorem consumeBlock_eq [Zero α] {ring : CircularBuffer α} (valid : ring.Valid) :
    ring.consumeBlock =
      (ring.content.take ring.consumable, ring.advance ring.consumable) := by
  simp only [consumeBlock, CircularBuffer.advance, tail_consumable valid,
    valid.slice_tail (Nat.le_refl _)]

theorem consumeBlockInto_eq [Zero α] {ring : CircularBuffer α} (valid : ring.Valid)
    (blockSize : UInt16) :
    ring.consumeBlockInto blockSize =
      (ring.content.take (min blockSize.toNat ring.consumable),
        ring.advance (min blockSize.toNat ring.consumable)) := by
  simp only [consumeBlockInto, CircularBuffer.advance,
    valid.slice_tail (Nat.min_le_right ..)]
  split
  · rfl
  · rename_i enough
    rw [Nat.min_eq_right (by omega), tail_consumable valid]

/-- `write` appends and drops from the front what exceeds the capacity. -/
theorem Queued.write [Zero α] [DecidableEq α] {ring after : CircularBuffer α}
    (queued : Queued ring) {items : List α} (storable : Storable items)
    (done : ring.write items = some after) :
    Queued after ∧ after.fixedSize = ring.fixedSize ∧
      after.content = keepLast (ring.fixedSize - 1) (ring.content ++ items) := by
  have valid := queued.valid
  have twoLe := valid.twoLe
  rw [storable.write_eq, Option.some.injEq] at done
  subst done
  have written := storable.written valid
  refine ⟨⟨written.finish_valid valid, written.finish_tight⟩, rfl, ?_⟩
  by_cases full : ring.fixedSize ≤ ring.length + items.length
  · have maxed := written.maxed.mpr (valid.exists_fills queued.tight full)
    exact written.finish_content_of_maxed valid storable.nonempty maxed
      (written.size_le_of_maxed valid maxed)
  · have total : (ring.content ++ items).length = ring.length + items.length := by
      rw [List.length_append, length_content]
    cases noticed : (Writing.loop ring items
        { buffer := ring.buffer, maxed := ring.maxed }).maxed with
    | true =>
        exact written.finish_content_of_maxed valid storable.nonempty noticed
          (written.size_le_of_maxed valid noticed)
    | false =>
        rw [written.finish_content_of_fits valid storable.nonempty noticed (by omega),
          keepLast_of_length_le (by omega)]

theorem Valid.clear [Zero α] {ring : CircularBuffer α} (valid : ring.Valid) :
    ring.clear.Valid where
  twoLe := valid.twoLe
  small := valid.small
  cells := by simpa [CircularBuffer.clear] using valid.cells
  headLt := show 0 < ring.fixedSize by have := valid.twoLe; omega
  tailLt := show 0 < ring.fixedSize by have := valid.twoLe; omega
  maxedFull := by simp [CircularBuffer.clear]

theorem Queued.clear [Zero α] {ring : CircularBuffer α} (queued : Queued ring) :
    Queued ring.clear ∧ ring.clear.content = [] := by
  refine ⟨⟨queued.valid.clear, ?_⟩, ?_⟩
  · simp [Tight, CircularBuffer.clear]
  · simp [content, length, CircularBuffer.clear]

/-- `clear_if_empty` moves the indices of an empty ring and nothing else. -/
theorem clearIfEmpty_eq (ring : CircularBuffer α) :
    ring.clearIfEmpty =
      if ring.empty then
        { ring with willClearIfEmpty := true, head := 0, tail := 0, maxed := false }
      else { ring with willClearIfEmpty := true } := by
  simp [CircularBuffer.clearIfEmpty, empty]

theorem Valid.clearIfEmpty {ring : CircularBuffer α} (valid : ring.Valid) :
    ring.clearIfEmpty.Valid := by
  have twoLe := valid.twoLe
  rw [clearIfEmpty_eq]
  split
  · refine ⟨twoLe, valid.small, valid.cells, ?_, ?_, by simp⟩
    · change 0 < ring.fixedSize
      omega
    · change 0 < ring.fixedSize
      omega
  · exact ⟨twoLe, valid.small, valid.cells, valid.headLt, valid.tailLt, valid.maxedFull⟩

theorem Queued.clearIfEmpty [Zero α] {ring : CircularBuffer α} (queued : Queued ring) :
    Queued ring.clearIfEmpty ∧ ring.clearIfEmpty.content = ring.content := by
  refine ⟨⟨queued.valid.clearIfEmpty, ?_⟩, ?_⟩ <;> rw [clearIfEmpty_eq] <;> split
  · simp [Tight]
  · exact queued.tight
  · rename_i nothing
    rw [queued.valid.empty_iff.mp nothing]
    simp [content, length]
  · rfl

/-! ## Runs -/

/-- One client operation is one step of the queue. -/
theorem ClientStep.simulated [Zero α] [DecidableEq α] {ring after : CircularBuffer α}
    {event : Event α} (step : ClientStep ring event after) (queued : Queued ring) :
    Step (ring.fixedSize - 1) endItem ring.content event after.content ∧
      Queued after ∧ after.fixedSize = ring.fixedSize := by
  have valid := queued.valid
  cases step with
  | write storable done =>
      obtain ⟨next, size, content⟩ := queued.write storable done
      rw [content]
      exact ⟨.write .., next, size⟩
  | consume =>
      rw [consume_eq valid]
      cases nothing : ring.content with
      | nil =>
          simp only [if_true, nothing]
          exact ⟨.consumeEmpty, queued, trivial⟩
      | cons first rest =>
          have positive : 1 ≤ ring.length := by
            rw [← length_content, nothing, List.length_cons]
            omega
          simp only [if_neg (List.cons_ne_nil first rest), List.headD_cons,
            valid.content_advance positive, nothing, List.drop_one, List.tail_cons]
          exact ⟨.consume first rest, queued.advance positive (by omega), rfl⟩
  | consumeBlock =>
      rw [consumeBlock_eq valid]
      exact ⟨queued.step_advance valid.consumable_le (consumable_ne_zero valid),
        queued.advance valid.consumable_le (consumable_ne_zero valid), rfl⟩
  | consumeBlockInto blockSize positive =>
      rw [consumeBlockInto_eq valid]
      have available := valid.consumable_le
      have taken : ring.length ≠ 0 → min blockSize.toNat ring.consumable ≠ 0 := by
        intro some
        have := consumable_ne_zero valid some
        omega
      exact ⟨queued.step_advance (by omega) taken, queued.advance (by omega) taken, rfl⟩
  | clear =>
      obtain ⟨next, content⟩ := queued.clear
      rw [content]
      exact ⟨.clear _, next, rfl⟩
  | clearIfEmpty =>
      obtain ⟨next, content⟩ := queued.clearIfEmpty
      rw [content]
      refine ⟨.clearIfEmpty _, next, ?_⟩
      unfold CircularBuffer.clearIfEmpty
      dsimp only
      split <;> rfl

/-- What the simulation relates: a ring of the given size and its content. -/
def Refines [Zero α] (size : Nat) (ring : CircularBuffer α) (image : List α) : Prop :=
  Queued ring ∧ ring.fixedSize = size ∧ image = ring.content

/-- From a fresh ring of any capacity, every run of client operations is a run of
the bounded queue on the ring's content.  Where it ends, `empty()` tells whether the
content is empty, consuming from the empty ring changes nothing, and every
terminated string can be written.  An item is one byte here, as in `CircularBuffer<char>`:
for wider ones `memcpy` copies only a part of a block. -/
theorem refines_boundedQueue [Zero α] [DecidableEq α] {size : Nat} {cells : List α}
    {events : List (Event α)} {ring : CircularBuffer α} (twoLe : 2 ≤ size)
    (small : size < 2 ^ 16) (room : cells.length = size + 1)
    (run : Run ClientStep (new cells size) events ring) :
    Run (Step (size - 1) endItem) [] events ring.content ∧
      (ring.empty = true ↔ ring.content = []) ∧
      (ring.content = [] → ring.consume = (endItem, ring)) ∧
      ∀ items : List α, Storable items → ∃ after, ring.write items = some after := by
  have simulated : ∀ {before : CircularBuffer α} {event after image},
      Refines size before image → ClientStep before event after →
      ∃ next, Step (size - 1) endItem image event next ∧ Refines size after next := by
    rintro before event after image ⟨queued, rfl, rfl⟩ step
    obtain ⟨abstract, next, kept⟩ := step.simulated queued
    exact ⟨_, abstract, next, kept, rfl⟩
  have initial : Refines size (new cells size) [] :=
    ⟨new_queued twoLe small room, rfl, (content_new cells size).symm⟩
  obtain ⟨image, abstractRun, queued, _, same⟩ := run.simulate simulated initial
  subst same
  refine ⟨abstractRun, queued.valid.empty_iff, ?_, ?_⟩
  · intro nothing
    rw [consume_eq queued.valid, if_pos nothing]
  · intro items storable
    exact ⟨_, storable.write_eq ring⟩

/-- Three letters into a ring for two: the first is dropped, the second consumed. -/
theorem refines_boundedQueue_overrun :
    Run (Step 2 (endItem : UInt8)) [] [.write [65, 66, 67], .consume 66] [67] := by
  have letters : Storable ([65, 66, 67] : List UInt8) :=
    ⟨by decide, by simp [endItem], by decide⟩
  have run := Run.cons (ClientStep.write letters
      (letters.write_eq (new [9, 9, 9, 9] 3))) (.cons (.consume _) (.nil _))
  exact (refines_boundedQueue (by decide) (by decide) rfl run).1

end BleRepeater.CircularBuffer
