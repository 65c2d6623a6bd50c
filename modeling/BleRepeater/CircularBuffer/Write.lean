import BleRepeater.Library.BoundedQueue
import BleRepeater.CircularBuffer.Core

/-!
# Writing a string

The loop of `write(const T *)` lays the items behind the content, cell after
cell, and turns round at the end of the array.  Its invariant compares the cells
with the unbounded sequence of everything stored so far: the last `size` items of
that sequence are where their position says, older ones may be overwritten.
-/

namespace BleRepeater.CircularBuffer

variable {α : Type}

/-- Writing the item number `count` completes or overruns the ring. -/
def fills (ring : CircularBuffer α) (count : Nat) : Bool :=
  headBeforeTail (((ring.head + count) % ring.fixedSize + 1) % ring.fixedSize)
      ring.tail ||
    (ring.tail == 0 && (ring.head + count) % ring.fixedSize == ring.fixedSize - 1)

theorem maxed_put (ring : CircularBuffer α) (state : Writing α) (item : α) :
    (state.put ring item).maxed = (state.maxed || ring.fills state.count) := by
  simp [Writing.put, fills, Bool.or_assoc]

/-- The loop invariant after the items `written`. -/
structure Written [Zero α] (ring : CircularBuffer α) (written : List α)
    (state : Writing α) : Prop where
  cells : state.buffer.length = ring.fixedSize + 1
  count : state.count = written.length
  pos : written ≠ [] → state.pos = (ring.head + (written.length - 1)) % ring.fixedSize
  window : ∀ index (inside : index < (ring.content ++ written).length),
    (ring.content ++ written).length ≤ index + ring.fixedSize →
    state.buffer.getD ((ring.tail + index) % ring.fixedSize) endItem =
      (ring.content ++ written)[index]
  maxed : state.maxed = true ↔
    ring.maxed = true ∨ ∃ count < written.length, ring.fills count = true

/-- Before the first item. -/
theorem Valid.written_nil [Zero α] {ring : CircularBuffer α} (valid : ring.Valid) :
    Written ring [] { buffer := ring.buffer, maxed := ring.maxed } where
  cells := valid.cells
  count := rfl
  pos := by simp
  window := by
    intro index inside _
    simp only [List.append_nil] at inside ⊢
    exact (getElem_content ring index inside).symm
  maxed := by simp

/-- One turn of the loop keeps the invariant. -/
theorem Written.put [Zero α] {ring : CircularBuffer α} (valid : ring.Valid)
    {written : List α} {state : Writing α} (sofar : Written ring written state)
    (item : α) : Written ring (written ++ [item]) (state.put ring item) := by
  have place : (ring.head + written.length) % ring.fixedSize =
      (ring.tail + (ring.content ++ written).length) % ring.fixedSize := by
    rw [valid.head_add, List.length_append, length_content]
  have inArray : (ring.head + written.length) % ring.fixedSize < ring.fixedSize :=
    Nat.mod_lt _ (by have := valid.twoLe; omega)
  refine ⟨?_, ?_, ?_, ?_, ?_⟩
  · simpa [Writing.put] using sofar.cells
  · simp [Writing.put, sofar.count]
  · intro _
    simp [Writing.put, sofar.count]
  · intro index inside recent
    simp only [Writing.put, sofar.count]
    rw [← List.append_assoc] at inside recent
    simp only [← List.append_assoc]
    simp only [List.length_append, List.length_cons, List.length_nil] at inside recent
    by_cases last : index = (ring.content ++ written).length
    · subst last
      rw [place, List.getD_eq_getElem?_getD, List.getElem?_set_self, Option.getD_some]
      · simp
      · rw [sofar.cells, ← place]
        omega
    · have older : index < (ring.content ++ written).length := by
        simp only [List.length_append] at last ⊢
        omega
      have apart : (ring.tail + index) % ring.fixedSize ≠
          (ring.tail + (ring.content ++ written).length) % ring.fixedSize :=
        mod_ne older (by
          simp only [List.length_append]
          omega)
      rw [place, List.getD_eq_getElem?_getD, List.getElem?_set_ne (Ne.symm apart),
        ← List.getD_eq_getElem?_getD]
      rw [sofar.window index older (by
        simp only [List.length_append]
        omega)]
      rw [List.getElem_append_left older]
  · simp only [maxed_put, Bool.or_eq_true, sofar.maxed, sofar.count,
      List.length_append, List.length_cons, List.length_nil]
    constructor
    · rintro ((full | ⟨count, early, filled⟩) | filled)
      · exact Or.inl full
      · exact Or.inr ⟨count, by omega, filled⟩
      · exact Or.inr ⟨written.length, by omega, filled⟩
    · rintro (full | ⟨count, early, filled⟩)
      · exact Or.inl (Or.inl full)
      · by_cases last : count = written.length
        · exact Or.inr (last ▸ filled)
        · exact Or.inl (Or.inr ⟨count, by omega, filled⟩)

/-- The whole loop keeps the invariant. -/
theorem Written.loop [Zero α] [DecidableEq α] {ring : CircularBuffer α}
    (valid : ring.Valid) {written items : List α} {state : Writing α} (sofar : Written ring written state)
    (noEnd : ∀ item ∈ items, item ≠ endItem) :
    Written ring (written ++ items) (Writing.loop ring items state) := by
  induction items generalizing written state with
  | nil => simpa [Writing.loop] using sofar
  | cons item items ih =>
      have here := noEnd item (by simp)
      have rest := ih (sofar.put valid item) fun other member =>
        noEnd other (by simp [member])
      simpa [Writing.loop, here] using rest

/-- The ring is only declared full when it is: `fills` needs all free cells. -/
theorem Valid.size_le_of_fills {ring : CircularBuffer α} (valid : ring.Valid)
    {count : Nat} (filled : ring.fills count = true) :
    ring.fixedSize ≤ ring.length + count + 2 := by
  by_contra room
  have tailLt := valid.tailLt
  rw [fills, valid.head_add] at filled
  simp only [headBeforeTail, Bool.or_eq_true, decide_eq_true_eq, Bool.and_eq_true,
    beq_iff_eq] at filled
  rcases mod_cases (show ring.tail + (ring.length + count) <
      ring.fixedSize + ring.fixedSize by omega) with ⟨_, here⟩ | ⟨_, here⟩ <;>
    rw [here] at filled
  · rcases mod_cases (show ring.tail + (ring.length + count) + 1 <
        ring.fixedSize + ring.fixedSize by omega) with ⟨_, next⟩ | ⟨_, next⟩ <;>
      rw [next] at filled <;> omega
  · rcases mod_cases (show ring.tail + (ring.length + count) - ring.fixedSize + 1 <
        ring.fixedSize + ring.fixedSize by omega) with ⟨_, next⟩ | ⟨_, next⟩ <;>
      rw [next] at filled <;> omega

/-- `maxed` knows every full ring whose tail is not at the start of the array. -/
def Tight (ring : CircularBuffer α) : Prop :=
  ring.head + 1 = ring.tail → ring.maxed = true

/-- In a tight ring the loop notices when it runs out of cells. -/
theorem Valid.exists_fills {ring : CircularBuffer α} (valid : ring.Valid)
    (tight : ring.Tight) {count : Nat} (tooMany : ring.fixedSize ≤ ring.length + count) :
    ring.maxed = true ∨ ∃ earlier < count, ring.fills earlier = true := by
  have lengthLt := valid.length_lt
  have headLt := valid.headLt
  have tailLt := valid.tailLt
  by_cases atStart : ring.tail = 0
  · right
    refine ⟨ring.fixedSize - 1 - ring.length, by omega, ?_⟩
    have flat : ring.head = ring.length := by
      rcases valid.length_cases with before | before <;> omega
    have last : (ring.head + (ring.fixedSize - 1 - ring.length)) % ring.fixedSize =
        ring.fixedSize - 1 := by
      rw [Nat.mod_eq_of_lt] <;> omega
    simp [fills, last, atStart]
  · by_cases full : ring.head + 1 = ring.tail
    · exact Or.inl (tight full)
    · right
      have free : ring.length + 2 ≤ ring.fixedSize := by
        rcases valid.length_cases with before | before <;> omega
      refine ⟨ring.fixedSize - 2 - ring.length, by omega, ?_⟩
      have place : ((ring.head + (ring.fixedSize - 2 - ring.length)) % ring.fixedSize +
          1) % ring.fixedSize = ring.tail - 1 := by
        rw [valid.head_add, Nat.mod_add_mod,
          show ring.tail + (ring.length + (ring.fixedSize - 2 - ring.length)) + 1 =
            ring.tail - 1 + ring.fixedSize by omega,
          Nat.add_mod_right, Nat.mod_eq_of_lt (by omega)]
      simp only [fills, place, headBeforeTail, Bool.or_eq_true, decide_eq_true_eq]
      left
      omega

namespace Written

variable [Zero α] {ring : CircularBuffer α} {items : List α} {state : Writing α}

/-- The last item went into the cell before the new head, or into the last of the
first `size` cells when the new head is at the start. -/
theorem pos_cases (done : Written ring items state) (valid : ring.Valid)
    (nonempty : items ≠ []) :
    state.pos + 1 = (ring.head + state.count) % ring.fixedSize ∨
      state.pos + 1 = ring.fixedSize ∧
        (ring.head + state.count) % ring.fixedSize = 0 := by
  have some := List.length_pos_iff.mpr nonempty
  have twoLe := valid.twoLe
  have next : (ring.head + state.count) % ring.fixedSize =
      (state.pos + 1) % ring.fixedSize := by
    rw [done.pos nonempty, Nat.mod_add_mod, done.count]
    congr 1
    omega
  have inArray : state.pos < ring.fixedSize := by
    rw [done.pos nonempty]
    exact Nat.mod_lt _ (by omega)
  rcases mod_cases (show state.pos + 1 < ring.fixedSize + ring.fixedSize by omega)
    with ⟨_, here⟩ | ⟨_, here⟩ <;> rw [here] at next <;> omega

theorem finish_valid (done : Written ring items state) (valid : ring.Valid) :
    (state.finish ring).Valid where
  twoLe := valid.twoLe
  small := valid.small
  cells := by simpa [Writing.finish] using done.cells
  headLt := Nat.mod_lt _ (by have := valid.twoLe; omega)
  tailLt := by
    simp only [Writing.finish]
    split
    · exact Nat.mod_lt _ (by have := valid.twoLe; omega)
    · exact valid.tailLt
  maxedFull := by
    simp only [Writing.finish, headBeforeTail, decide_eq_true_eq]
    omega

theorem finish_tight (_ : Written ring items state) : (state.finish ring).Tight := by
  intro full
  simp only [Writing.finish, headBeforeTail, decide_eq_true_eq] at full ⊢
  omega

/-- The terminator lies at the new head, or in the spare cell when the last item
filled the end of the array. -/
theorem finish_terminated (done : Written ring items state) (valid : ring.Valid)
    (nonempty : items ≠ []) :
    ((state.finish ring).head ≠ 0 →
      (state.finish ring).cell (state.finish ring).head = endItem) ∧
    ((state.finish ring).head = 0 →
      (state.finish ring).cell (state.finish ring).fixedSize = endItem) := by
  have cells := done.cells
  have headLt := (done.finish_valid valid).headLt
  have pos := done.pos_cases valid nonempty
  have stored : ∀ index, index = state.pos + 1 → index ≤ ring.fixedSize →
      (state.buffer.set (state.pos + 1) endItem).getD index endItem = endItem := by
    intro index here inside
    subst here
    rw [List.getD_eq_getElem?_getD, List.getElem?_set_self (by omega),
      Option.getD_some]
  simp only [Writing.finish, cell] at headLt ⊢
  constructor
  · intro away
    exact stored _ (by omega) (by omega)
  · intro atStart
    exact stored _ (by have := valid.twoLe; omega) (by omega)

/-- The recent items are still where the loop put them: the terminator is behind
them all. -/
theorem finish_cell (done : Written ring items state) (valid : ring.Valid)
    (nonempty : items ≠ []) {index : Nat}
    (inside : index < (ring.content ++ items).length)
    (recent : (ring.content ++ items).length < index + ring.fixedSize) :
    (state.finish ring).cell ((ring.tail + index) % ring.fixedSize) =
      (ring.content ++ items)[index] := by
  have apart : (ring.tail + index) % ring.fixedSize ≠
      (ring.tail + (ring.content ++ items).length) % ring.fixedSize :=
    mod_ne inside recent
  have place : (ring.head + state.count) % ring.fixedSize =
      (ring.tail + (ring.content ++ items).length) % ring.fixedSize := by
    rw [valid.head_add, List.length_append, length_content, done.count]
  have inArray : (ring.tail + index) % ring.fixedSize < ring.fixedSize :=
    Nat.mod_lt _ (by have := valid.twoLe; omega)
  have elsewhere : state.pos + 1 ≠ (ring.tail + index) % ring.fixedSize := by
    have pos := done.pos_cases valid nonempty
    omega
  simp only [Writing.finish, cell]
  rw [List.getD_eq_getElem?_getD, List.getElem?_set_ne elsewhere,
    ← List.getD_eq_getElem?_getD]
  exact done.window index inside (by omega)

/-- When the loop saw the ring run full, the new content is the last `size - 1`
items. -/
theorem finish_content_of_maxed (done : Written ring items state) (valid : ring.Valid)
    (nonempty : items ≠ []) (maxed : state.maxed = true)
    (enough : ring.fixedSize ≤ (ring.content ++ items).length + 1) :
    (state.finish ring).content =
      BoundedQueue.keepLast (ring.fixedSize - 1) (ring.content ++ items) := by
  have twoLe := valid.twoLe
  have finalValid := done.finish_valid valid
  have tail : (state.finish ring).tail = (ring.tail +
      ((ring.content ++ items).length + 1)) % ring.fixedSize := by
    simp only [Writing.finish, maxed, if_true]
    rw [Nat.add_assoc, valid.head_add, done.count, List.length_append,
      length_content]
    congr 1
  have full : (state.finish ring).length = ring.fixedSize - 1 := by
    have headLt := finalValid.headLt
    have next : (state.finish ring).tail =
        ((state.finish ring).head + 1) % ring.fixedSize := by
      simp only [Writing.finish, maxed, if_true]
      rw [Nat.mod_add_mod]
    have shape := finalValid.length_cases
    have size : (state.finish ring).fixedSize = ring.fixedSize := rfl
    rcases mod_cases (show (state.finish ring).head + 1 <
        ring.fixedSize + ring.fixedSize by omega) with ⟨_, here⟩ | ⟨_, here⟩ <;>
      rw [here] at next <;> omega
  apply List.ext_getElem
  · simp only [length_content, full, BoundedQueue.length_keepLast]
    omega
  · intro index left right
    simp only [length_content, full] at left
    rw [getElem_content]
    simp only [BoundedQueue.keepLast, List.getElem_drop]
    rw [← done.finish_cell valid nonempty _ (by omega)]
    congr 1
    change ((state.finish ring).tail + index) % ring.fixedSize = _
    rw [tail, Nat.mod_add_mod,
      show ring.tail + ((ring.content ++ items).length + 1) + index =
        ring.tail + ((ring.content ++ items).length - (ring.fixedSize - 1) + index) +
          ring.fixedSize by omega,
      Nat.add_mod_right]

/-- When everything fits, the new content is the old one and the items. -/
theorem finish_content_of_fits (done : Written ring items state) (valid : ring.Valid)
    (nonempty : items ≠ []) (unmaxed : state.maxed = false)
    (fits : (ring.content ++ items).length < ring.fixedSize) :
    (state.finish ring).content = ring.content ++ items := by
  have finalValid := done.finish_valid valid
  have tail : (state.finish ring).tail = ring.tail := by
    simp [Writing.finish, unmaxed]
  have head : (state.finish ring).head =
      (ring.tail + (ring.content ++ items).length) % ring.fixedSize := by
    simp only [Writing.finish]
    rw [valid.head_add, done.count, List.length_append, length_content]
  have length : (state.finish ring).length = (ring.content ++ items).length := by
    have tailLt := valid.tailLt
    have shape := finalValid.length_cases
    have size : (state.finish ring).fixedSize = ring.fixedSize := rfl
    rcases mod_cases (show ring.tail + (ring.content ++ items).length <
        ring.fixedSize + ring.fixedSize by omega) with ⟨_, here⟩ | ⟨_, here⟩ <;>
      rw [here] at head <;> omega
  apply List.ext_getElem
  · simp only [length_content, length]
  · intro index left right
    rw [getElem_content, ← done.finish_cell valid nonempty right (by omega)]
    change (state.finish ring).cell
      (((state.finish ring).tail + index) % ring.fixedSize) = _
    rw [tail]

/-- Even when `maxed` failed to notice an overrun, nothing but stored items lies
between tail and head. -/
theorem mem_of_mem_finish_content (done : Written ring items state)
    (valid : ring.Valid) (nonempty : items ≠ [])
    (honest : state.maxed = true → ring.fixedSize ≤ (ring.content ++ items).length + 1)
    {item : α} (member : item ∈ (state.finish ring).content) :
    item ∈ ring.content ++ items := by
  have twoLe := valid.twoLe
  by_cases maxed : state.maxed = true
  · rw [done.finish_content_of_maxed valid nonempty maxed (honest maxed)] at member
    exact List.mem_of_mem_drop member
  · have tail : (state.finish ring).tail = ring.tail := by
      simp [Writing.finish, maxed]
    obtain ⟨index, inside, found⟩ := List.getElem_of_mem member
    have turns := Nat.div_add_mod (ring.content ++ items).length ring.fixedSize
    have partLt := Nat.mod_lt (ring.content ++ items).length
      (show ring.fixedSize > 0 by omega)
    have part : (state.finish ring).length =
        (ring.content ++ items).length % ring.fixedSize := by
      have head : (state.finish ring).head = (ring.tail +
          (ring.content ++ items).length % ring.fixedSize) % ring.fixedSize := by
        simp only [Writing.finish]
        rw [valid.head_add, done.count, Nat.add_mod_mod, List.length_append,
          length_content]
      have tailLt := valid.tailLt
      have shape := (done.finish_valid valid).length_cases
      have size : (state.finish ring).fixedSize = ring.fixedSize := rfl
      rcases mod_cases (show ring.tail + (ring.content ++ items).length %
          ring.fixedSize < ring.fixedSize + ring.fixedSize by omega)
        with ⟨_, here⟩ | ⟨_, here⟩ <;> rw [here] at head <;> omega
    simp only [length_content, part] at inside
    -- the newest item whose position is this one
    have newest := @finish_cell _ _ _ _ _ done valid nonempty (index +
      ring.fixedSize * ((ring.content ++ items).length / ring.fixedSize))
      (by omega) (by omega)
    rw [getElem_content] at found
    change (state.finish ring).cell
      (((state.finish ring).tail + index) % ring.fixedSize) = _ at found
    rw [← Nat.add_assoc, Nat.add_mul_mod_self_left, ← tail, found] at newest
    rw [newest]
    exact List.getElem_mem _

end Written

/-- A C string the loop can walk: its terminator comes after 1 to 65535 items. -/
structure Storable [Zero α] (items : List α) : Prop where
  nonempty : items ≠ []
  noEnd : ∀ item ∈ items, item ≠ endItem
  short : items.length < 2 ^ 16

/-- Writing a string runs the loop over all of it. -/
theorem Storable.write_eq [Zero α] [DecidableEq α] {items : List α}
    (storable : Storable items) (ring : CircularBuffer α) :
    ring.write items = some (Writing.finish ring (Writing.loop ring items
      { buffer := ring.buffer, maxed := ring.maxed })) := by
  have whole : items.takeWhile (· ≠ endItem) = items :=
    List.takeWhile_eq_self_iff.mpr fun item member => by
      simpa using storable.noEnd item member
  simp only [write, whole, storable.short, if_true]

/-- The loop over a storable string ends in its invariant. -/
theorem Storable.written [Zero α] [DecidableEq α] {items : List α}
    (storable : Storable items) {ring : CircularBuffer α} (valid : ring.Valid) :
    Written ring items (Writing.loop ring items
      { buffer := ring.buffer, maxed := ring.maxed }) :=
  valid.written_nil.loop valid storable.noEnd

/-- When the flag is set, the ring really has no free cell left. -/
theorem Written.size_le_of_maxed [Zero α] {ring : CircularBuffer α} {items : List α}
    {state : Writing α} (done : Written ring items state) (valid : ring.Valid)
    (maxed : state.maxed = true) :
    ring.fixedSize ≤ (ring.content ++ items).length + 1 := by
  rw [List.length_append, length_content]
  rcases done.maxed.mp maxed with before | ⟨count, early, filled⟩
  · have full := valid.maxedFull before
    have shape := valid.length_cases
    omega
  · have room := valid.size_le_of_fills filled
    omega

end BleRepeater.CircularBuffer
