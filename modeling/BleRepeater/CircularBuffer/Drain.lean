import BleRepeater.CircularBuffer.ConsumeLine

/-!
# Draining the log

`printAvailableLogging` takes lines from the log buffer until it is empty, and prints them.
As long as `consume_line` takes a line from the front of the content, the content shrinks.
Once it does not, text that was consumed before is in front of the tail again, and the loop
takes more than there was, or never ends.
-/

namespace BleRepeater.CircularBuffer

open Transition

/-! ## The loop -/

/-- `SERIAL_LOG_BUFFER_LEN`. -/
def serialLogBufferLen : UInt16 := 160

/-- `serialLogBuffer`, over the cells that it is given. -/
def serialLogBuffer (cells : List UInt8) : CircularBuffer UInt8 :=
  new cells 3000

/-- The `line_size` that is given to `consume_line`. -/
def logLineSize : UInt16 := serialLogBufferLen - 1

/-- What `printf` is given. -/
inductive Printed where
  | bufferMaxed (len : Nat)
  | line (text : List UInt8)
  deriving DecidableEq

/-- What a drain has taken and printed, and what it leaves. -/
structure Drained where
  taken : List (List UInt8) := []
  printed : List Printed := []
  ring : CircularBuffer UInt8

/-- An index of the array `line`. -/
def insideLine (index : Int) : Bool :=
  decide (0 ≤ index) && decide (index < serialLogBufferLen.toNat)

/-- The line without its newline, given what `consume_line` took.  It is `none` when an index
lies outside of the array. -/
def terminateLine (line : List UInt8) : Option (List UInt8) :=
  if insideLine ((line.length : Int) - 1) then
    if line.getLast? = some newline then some line.dropLast
    else if insideLine line.length then some line
    else none
  else none

/-- The loop of `printAvailableLogging`, for as many turns as there is fuel. -/
def drainLoop : Nat → CircularBuffer UInt8 → Option Drained
  | 0, _ => none
  | fuel + 1, ring =>
      if ring.empty then
        some { ring }
      else do
        let (line, ring) ← ring.consumeLine logLineSize
        let text ← terminateLine line
        let rest ← drainLoop fuel ring
        return {
          taken := line :: rest.taken
          -- `%s` stops at a terminator in the text
          printed := .line (text.takeWhile (· ≠ endItem)) :: rest.printed
          ring := rest.ring }

/-- `printAvailableLogging`, with nothing written in between. -/
def printAvailableLogging (fuel : Nat) (ring : CircularBuffer UInt8) : Option Drained :=
  if ring.full then do
    let (line, ring) ← ring.consumeLine logLineSize
    let rest ← drainLoop fuel ring
    return {
      taken := line :: rest.taken
      printed := .bufferMaxed line.length :: rest.printed
      ring := rest.ring.clearIfEmpty }
  else do
    let rest ← drainLoop fuel ring
    return { rest with ring := rest.ring.clearIfEmpty }

/-- The drain ends with an empty buffer, has stayed inside of `line`, and has taken what was
there. -/
def DrainsOnce (ring : CircularBuffer UInt8) : Prop :=
  ∃ fuel drained, printAvailableLogging fuel ring = some drained ∧
    drained.ring.empty = true ∧ drained.taken.flatten = ring.content

/-! ## Going round the end -/

/-- A line is taken from wrapped content. -/
structure Turns (ring : CircularBuffer UInt8) (line : List UInt8)
    (after : CircularBuffer UInt8) : Prop where
  valid : after.Valid
  size : after.fixedSize = ring.fixedSize
  head : after.head = ring.head
  /-- The line goes to the end of the array, or what is missing there is still to come. -/
  covers : ring.fixedSize - ring.tail ≤ line.length ∨
    ring.head < after.tail ∧
      ring.fixedSize - ring.tail ≤ line.length + (ring.fixedSize - after.tail)

theorem turns_of_advance {ring : CircularBuffer UInt8} (valid : ring.Valid)
    (wrapped : ring.head < ring.tail) {line : List UInt8} {count : Nat}
    (length : line.length = count) : Turns ring line (ring.advance count) := by
  have tailLt := valid.tailLt
  refine ⟨valid.advance count, rfl, rfl, ?_⟩
  by_cases further : ring.tail + count < ring.fixedSize
  · right
    have tail : (ring.advance count).tail = ring.tail + count := Nat.mod_eq_of_lt further
    omega
  · left
    omega

/-- Whatever the cells hold, `consume_line` passes over no part of wrapped content. -/
theorem turns_of_consumeLine {ring after : CircularBuffer UInt8} {lineSize : UInt16}
    {line : List UInt8} (valid : ring.Valid) (wrapped : ring.head < ring.tail)
    (result : ring.consumeLine lineSize = some (line, after)) : Turns ring line after := by
  have tailLt := valid.tailLt
  have headLt := valid.headLt
  have cells := valid.cells
  have consumable := Valid.consumable_of_wrapped wrapped
  have wraps := Valid.wraps_iff.mpr wrapped
  have sliced : ∀ count, count ≤ ring.fixedSize - ring.tail →
      (ring.slice ring.tail count).length = count := by
    intro count _
    simp only [slice, List.length_take, List.length_drop]
    omega
  -- a line shorter than the piece up to the end of the array
  have short : ∀ lineEnd, ring.consumable ≠ min lineSize.toNat ring.consumable →
      ring.lastPiece lineSize
        (ring.slice ring.tail (min lineSize.toNat ring.consumable))
        (ring.tail + min lineSize.toNat ring.consumable) ring.head
        (min (lineSize.toNat - min lineSize.toNat ring.consumable) ring.head) lineEnd =
          (line, after) → Turns ring line after := by
    intro lineEnd more same
    have fits : min lineSize.toNat ring.consumable = lineSize.toNat := by omega
    have length := sliced lineSize.toNat (by omega)
    have occupied : ring.empty = false := by
      simp only [empty, beq_eq_false_iff_ne, ne_eq]
      omega
    have turned : ring.head ≤ ring.tail + lineSize.toNat := by omega
    rw [fits, Nat.sub_self, Nat.zero_min, lastPiece_zero, length] at same
    simp only [occupied, turned, decide_true, Bool.not_false, Bool.and_true, if_true,
      ite_self] at same
    cases same
    split
    · exact turns_of_advance valid wrapped length
    · have inside : lineSize.toNat < ring.fixedSize := by omega
      have behind : ring.head < lineSize.toNat := by omega
      have covered : ring.fixedSize - ring.tail ≤
          (ring.slice ring.tail lineSize.toNat).length +
            (ring.fixedSize - lineSize.toNat) := by omega
      exact ⟨valid.retail inside, rfl, rfl, Or.inr ⟨behind, covered⟩⟩
  simp only [consumeLine, wraps, if_true] at result
  split at result
  · cases result
  · cases result
    simp only [List.length_nil, Nat.zero_add, List.nil_append]
    rw [if_pos (by omega)]
    exact turns_of_advance valid wrapped (sliced _ (by omega))
  · split at result
    · have piece := sliced (min lineSize.toNat ring.consumable) (by omega)
      split at result
      · cases result
      · cases result
        refine ⟨valid.retail (Nat.mod_lt _ (by omega)), rfl, rfl, Or.inl ?_⟩
        rw [List.length_append]
        omega
      · cases result
        exact ⟨valid.retail (by omega), rfl, rfl, Or.inl (by omega)⟩
    · rename_i more
      split at result
      · cases result
      · exact short _ more (Option.some.inj result)
      · exact short _ more (Option.some.inj result)

/-! ## The unfinished line -/

/-- The text behind the last newline in the piece of content up to the end of the array. -/
def unfinished (ring : CircularBuffer UInt8) : List UInt8 :=
  (ring.content.take ring.consumable).rtakeWhile fun item => item != newline

/-- The states in which a drain works.  When the content goes round the end of the array and
leaves a line unfinished there, a newline or a terminator must be in the spare cell; with
the terminator, a line that is too long must not be longer than the content behind the
turn, and when nothing is behind the turn, no stale newline may be found at the start. -/
def DrainReady (ring : CircularBuffer UInt8) (lineSize : UInt16) : Prop :=
  ring.head < ring.tail → ring.unfinished ≠ [] →
    ring.cell ring.fixedSize = newline ∨
      ring.cell ring.fixedSize = endItem ∧
        (lineSize.toNat < ring.unfinished.length → lineSize.toNat ≤ ring.head) ∧
        (ring.head = 0 → ring.unfinished.length < lineSize.toNat →
          (strchr newline ring.buffer).isFound = false)

/-- Dropping items in front of the unfinished ones leaves those. -/
theorem rtakeWhile_drop {α : Type} {list : List α} {wanted : α → Bool} {count : Nat}
    (early : count + (list.rtakeWhile wanted).length ≤ list.length) :
    (list.drop count).rtakeWhile wanted = list.rtakeWhile wanted := by
  induction list using List.reverseRecOn with
  | nil => simp
  | append_singleton items item ih =>
      rw [List.rtakeWhile_concat] at early ⊢
      split at early
      · rename_i here
        simp only [List.length_append, List.length_cons, List.length_nil] at early
        rw [List.drop_append_of_le_length (by omega), List.rtakeWhile_concat, if_pos here,
          if_pos here, ih (by omega)]
      · rename_i other
        rw [if_neg other]
        simp only [List.length_append, List.length_cons, List.length_nil] at early
        by_cases all : count ≤ items.length
        · rw [List.drop_append_of_le_length all, List.rtakeWhile_concat, if_neg other]
        · rw [List.drop_eq_nil_of_le (by simp; omega), List.rtakeWhile_nil]

/-- The first of the items looked for is in front of the unfinished ones. -/
theorem idxOf_lt_unfinished {items : List UInt8} (member : newline ∈ items) :
    items.idxOf newline + 1 + (items.rtakeWhile fun item => item != newline).length ≤
      items.length := by
  have split : items.rdropWhile (fun item => item != newline) ++
      items.rtakeWhile (fun item => item != newline) = items :=
    List.rdropWhile_append_rtakeWhile
  have behind : newline ∉ items.rtakeWhile fun item => item != newline := by
    intro inside
    have other := List.mem_rtakeWhile_imp inside
    simp at other
  have inFront : newline ∈ items.rdropWhile fun item => item != newline := by
    rw [← split] at member
    exact (List.mem_append.mp member).resolve_right behind
  have first := List.idxOf_lt_length_of_mem inFront
  have same : items.idxOf newline =
      (items.rdropWhile fun item => item != newline).idxOf newline := by
    conv_lhs => rw [← split]
    rw [List.idxOf_append, if_pos inFront]
  have total := congrArg List.length split
  rw [List.length_append] at total
  omega

theorem scan_single_absent {cell : UInt8} :
    strchr newline [cell] = .absent ↔ cell = endItem := by
  have apart : (endItem : UInt8) ≠ newline := by decide
  by_cases here : cell = newline
  · subst here
    decide
  · by_cases stop : cell = endItem <;> simp [strchr, here, stop, apart, Scan.after]

theorem scan_single_overrun {cell : UInt8} :
    strchr newline [cell] = .overrun ↔ ¬ (cell = newline ∨ cell = endItem) := by
  rw [strchr_overrun_iff, List.forall_mem_singleton, not_or]

namespace Lines

variable {ring : CircularBuffer UInt8} {lineSize : UInt16}

/-- Without a newline up to the turn, the scan from the tail comes to the spare cell. -/
theorem scan_spare (lines : Lines ring) (wrapped : ring.head < ring.tail)
    (none : newline ∉ ring.content.take ring.consumable) :
    strchr newline (ring.buffer.drop ring.tail) =
      (strchr newline [ring.cell ring.fixedSize]).after ring.consumable := by
  have tailLt := lines.valid.tailLt
  have consumable := Valid.consumable_of_wrapped wrapped
  have last : ring.tail + ring.consumable = ring.fixedSize := by omega
  rw [lines.scan_further (Nat.le_refl _) none, last,
    lines.valid.drop_eq_cons (Nat.le_refl _),
    List.drop_eq_nil_of_le (by rw [lines.valid.cells])]

/-- Content in one piece is always ready. -/
theorem lineReady_of_flat (lines : Lines ring) (some : ring.length ≠ 0)
    (flat : ring.tail ≤ ring.head) : LineReady ring lineSize := by
  have shape := lines.valid.length_cases
  have notWrapped : ¬ ring.head < ring.tail := by omega
  refine ⟨?_, fun _ wrapped => absurd wrapped notWrapped,
    fun _ wrapped => absurd wrapped notWrapped⟩
  by_cases member : newline ∈ ring.content.take ring.consumable
  · rw [lines.scan_stops member]
    simp
  · rw [lines.scan_flat flat (by omega) member]
    simp

/-- A newline up to the turn makes the state ready. -/
theorem lineReady_of_newline (lines : Lines ring)
    (member : newline ∈ ring.content.take ring.consumable) : LineReady ring lineSize := by
  have scan := lines.scan_stops member
  refine ⟨by simp [scan], ?_, ?_⟩
  · intro absent
    rw [scan] at absent
    cases absent
  · intro absent
    rw [scan] at absent
    cases absent

/-- Without a newline up to the turn, all of the piece is unfinished. -/
theorem unfinished_of_none (none : newline ∉ ring.content.take ring.consumable) :
    ring.unfinished = ring.content.take ring.consumable := by
  rw [unfinished, List.rtakeWhile_eq_self_iff]
  intro item member
  have other : item ≠ newline := by
    rintro rfl
    exact none member
  simpa using other

/-- Without a newline up to the turn, a state is ready for a line if and only if it is ready
for a drain. -/
theorem lineReady_iff_of_none (lines : Lines ring) (wrapped : ring.head < ring.tail)
    (none : newline ∉ ring.content.take ring.consumable) :
    LineReady ring lineSize ↔ DrainReady ring lineSize := by
  have tailLt := lines.valid.tailLt
  have consumable := Valid.consumable_of_wrapped wrapped
  have available := lines.valid.consumable_le
  have scan := lines.scan_spare wrapped none
  have length : ring.unfinished.length = ring.fixedSize - ring.tail := by
    rw [unfinished_of_none none, List.length_take, length_content]
    omega
  have some : ring.unfinished ≠ [] := by
    intro nothing
    rw [nothing, List.length_nil] at length
    omega
  have absent_iff : strchr newline (ring.buffer.drop ring.tail) = .absent ↔
      ring.cell ring.fixedSize = endItem := by
    rw [scan, Scan.after_eq_absent, scan_single_absent]
  have overrun_iff : strchr newline (ring.buffer.drop ring.tail) ≠ .overrun ↔
      ring.cell ring.fixedSize = newline ∨ ring.cell ring.fixedSize = endItem := by
    rw [scan, ne_eq, Scan.after_eq_overrun, scan_single_overrun]
    tauto
  constructor
  · intro ready _ _
    refine (overrun_iff.mp ready.terminated).imp id fun spare => ⟨spare, ?_, ?_⟩
    · intro short
      exact ready.shortLine (absent_iff.mpr spare) wrapped (by omega)
    · intro atStart long
      exact ready.longLine (absent_iff.mpr spare) wrapped atStart (by omega)
  · intro ready
    have ends := ready wrapped some
    have spare : ring.cell ring.fixedSize = endItem →
        (lineSize.toNat < ring.unfinished.length → lineSize.toNat ≤ ring.head) ∧
        (ring.head = 0 → ring.unfinished.length < lineSize.toNat →
          (strchr newline ring.buffer).isFound = false) := by
      intro terminator
      rcases ends with newline' | ⟨_, rest⟩
      · rw [terminator] at newline'
        cases newline'
      · exact rest
    refine ⟨overrun_iff.mpr (ends.imp id And.left), ?_, ?_⟩
    · intro absent _ short
      exact (spare (absent_iff.mp absent)).1 (by omega)
    · intro absent _ atStart long
      exact (spare (absent_iff.mp absent)).2 atStart (by omega)

/-- Items taken in front of the turn leave the rest of the piece. -/
theorem piece_advance (lines : Lines ring) (wrapped : ring.head < ring.tail) {count : Nat}
    (further : count < ring.consumable) :
    (ring.advance count).head < (ring.advance count).tail ∧
      (ring.advance count).content.take (ring.advance count).consumable =
        (ring.content.take ring.consumable).drop count := by
  have tailLt := lines.valid.tailLt
  have consumable := Valid.consumable_of_wrapped wrapped
  have available := lines.valid.consumable_le
  have tail : (ring.advance count).tail = ring.tail + count :=
    Nat.mod_eq_of_lt (by omega)
  have still : (ring.advance count).head < (ring.advance count).tail := by
    change ring.head < _
    omega
  have rest : (ring.advance count).consumable = ring.consumable - count := by
    rw [Valid.consumable_of_wrapped still, tail]
    change ring.fixedSize - _ = _
    omega
  refine ⟨still, ?_⟩
  rw [rest, lines.valid.content_advance (by omega), List.drop_take]

/-- Without a newline up to the turn, a line that ends in front of it is full. -/
theorem full_of_short (lines : Lines ring) (wrapped : ring.head < ring.tail) {count : Nat}
    (taken : TakesPrefix ring lineSize count)
    (absent : strchr newline (ring.buffer.drop ring.tail) = .absent)
    (short : count < ring.consumable) : lineSize.toNat < ring.consumable := by
  have valid := lines.valid
  have wraps := Valid.wraps_iff.mpr wrapped
  have available := taken.available
  have result := taken.result
  by_contra long
  have whole : min lineSize.toNat ring.consumable = ring.consumable := by omega
  have piece : (ring.slice ring.tail ring.consumable).length = ring.consumable := by
    have consumableLe := valid.consumable_le
    rw [valid.slice_tail (Nat.le_refl _), List.length_take, length_content]
    omega
  simp only [consumeLine, absent, whole, if_true, wraps] at result
  split at result
  · cases result
  · have length := congrArg List.length (Prod.mk.inj (Option.some.inj result)).1
    rw [List.length_append, List.length_take, length_content] at length
    omega
  · have length := congrArg List.length (Prod.mk.inj (Option.some.inj result)).1
    rw [List.length_take, length_content] at length
    omega

/-- A line ends at the first newline at the latest. -/
theorem count_le_idxOf {count : Nat} (taken : TakesPrefix ring lineSize count)
    (member : newline ∈ ring.content.take ring.consumable) :
    count ≤ (ring.content.take ring.consumable).idxOf newline + 1 := by
  by_contra late
  have inside := List.idxOf_lt_length_of_mem member
  have found := List.getElem_idxOf inside
  have available := taken.available
  rw [List.getElem_take] at found
  apply taken.oneLine
  rw [List.dropLast_eq_take, List.take_take]
  refine List.mem_iff_getElem.mpr
    ⟨(ring.content.take ring.consumable).idxOf newline, ?_, ?_⟩
  · simp only [List.length_take, length_content] at inside ⊢
    omega
  · rw [List.getElem_take]
    exact found

/-- A state is ready for a drain if and only if it is ready for a line and the state after
that line is ready for a drain. -/
theorem drainReady_iff (lines : Lines ring)
    (some : ring.length ≠ 0) {count : Nat} (taken : TakesPrefix ring lineSize count) :
    DrainReady ring lineSize ↔
      LineReady ring lineSize ∧ DrainReady (ring.advance count) lineSize := by
  have valid := lines.valid
  by_cases wrapped : ring.head < ring.tail
  · have consumable := Valid.consumable_of_wrapped wrapped
    have consumableLe := valid.consumable_le
    have piece : (ring.content.take ring.consumable).length = ring.consumable := by
      rw [List.length_take, length_content]
      omega
    by_cases member : newline ∈ ring.content.take ring.consumable
    · have first := idxOf_lt_unfinished member
      have early := count_le_idxOf taken member
      have ready : LineReady ring lineSize := lines.lineReady_of_newline member
      change _ + 1 + ring.unfinished.length ≤ _ at first
      by_cases further : count < ring.consumable
      · obtain ⟨still, rest⟩ := lines.piece_advance wrapped further
        have same : (ring.advance count).unfinished = ring.unfinished := by
          rw [unfinished, rest]
          exact rtakeWhile_drop (by
            change count + ring.unfinished.length ≤ _
            omega)
        have unmoved : DrainReady (ring.advance count) lineSize ↔
            DrainReady ring lineSize := by
          simp only [DrainReady, same, still, wrapped]
          rfl
        rw [unmoved]
        exact ⟨fun drains => ⟨ready, drains⟩, And.right⟩
      · have nothing : ring.unfinished = [] := List.length_eq_zero_iff.mp (by omega)
        have turned : (ring.advance count).tail = 0 := by
          have whole : count = ring.consumable := by omega
          change (ring.tail + count) % ring.fixedSize = 0
          rw [whole, tail_consumable valid, if_pos (Valid.wraps_iff.mpr wrapped)]
        exact iff_of_true (fun _ some => absurd nothing some)
          ⟨ready, fun behind => absurd behind (by omega)⟩
    · rw [lines.lineReady_iff_of_none wrapped member, iff_self_and]
      intro drains behind some
      by_cases further : count < ring.consumable
      · obtain ⟨still, rest⟩ := lines.piece_advance wrapped further
        have whole := unfinished_of_none member
        have length : ring.unfinished.length = ring.consumable := by rw [whole, piece]
        have left : (ring.advance count).unfinished.length = ring.consumable - count := by
          have none : newline ∉ (ring.advance count).content.take
              (ring.advance count).consumable := by
            rw [rest]
            exact fun inside => member (List.mem_of_mem_drop inside)
          rw [unfinished_of_none none, rest, List.length_drop, piece]
        have occupied : ring.unfinished ≠ [] := by
          intro nothing
          rw [nothing, List.length_nil] at length
          omega
        refine (drains wrapped occupied).imp id fun ⟨spare, short, long⟩ => ⟨spare, ?_, ?_⟩
        · intro more
          exact short (by omega)
        · intro atStart _
          have absent : strchr newline (ring.buffer.drop ring.tail) = .absent := by
            rw [lines.scan_spare wrapped member, Scan.after_eq_absent, scan_single_absent]
            exact spare
          have full := lines.full_of_short wrapped taken absent further
          have inFront := short (by omega)
          change ring.head = 0 at atStart
          omega
      · have turned : (ring.advance count).tail ≤ (ring.advance count).head := by
          have available := taken.available
          have headLt := valid.headLt
          have tailLt := valid.tailLt
          change (ring.tail + count) % ring.fixedSize ≤ ring.head
          rcases valid.length_cases with shape | shape <;>
            rcases mod_cases (show ring.tail + count < ring.fixedSize + ring.fixedSize by
              omega) with ⟨_, here⟩ | ⟨_, here⟩ <;> omega
        omega
  · have flat : ring.tail ≤ ring.head := by omega
    have available := taken.available
    have still : ¬ (ring.advance count).head < (ring.advance count).tail := by
      have shape := valid.length_cases
      have headLt := valid.headLt
      have tail : (ring.advance count).tail = ring.tail + count :=
        Nat.mod_eq_of_lt (by omega)
      change ¬ ring.head < _
      omega
    exact iff_of_true (fun turned => absurd turned wrapped)
      ⟨lines.lineReady_of_flat some flat, fun turned => absurd turned still⟩

/-- A state that is ready for a drain is ready for a line. -/
theorem lineReady_of_drainReady (lines : Lines ring) (some : ring.length ≠ 0)
    (ready : DrainReady ring lineSize) : LineReady ring lineSize := by
  by_cases wrapped : ring.head < ring.tail
  · by_cases member : newline ∈ ring.content.take ring.consumable
    · exact lines.lineReady_of_newline member
    · exact (lines.lineReady_iff_of_none wrapped member).mpr ready
  · exact lines.lineReady_of_flat some (by omega)

end Lines

/-! ## Drains -/

theorem Valid.length_ne_zero {ring : CircularBuffer UInt8} (valid : ring.Valid)
    (some : ring.empty = false) : ring.length ≠ 0 := by
  rw [← length_content, ne_eq, List.length_eq_zero_iff, ← valid.empty_iff]
  simp [some]

theorem logLineSize_toNat : logLineSize.toNat = 159 := rfl

/-- A line that fits leaves the indices inside of the array. -/
theorem terminateLine_isSome {line : List UInt8} (some : line ≠ [])
    (fits : line.length ≤ logLineSize.toNat) : (terminateLine line).isSome := by
  have positive := List.length_pos_iff.mpr some
  have size : serialLogBufferLen.toNat = 160 := rfl
  rw [logLineSize_toNat] at fits
  have last : insideLine ((line.length : Int) - 1) = true := by
    simp only [insideLine, size, Bool.and_eq_true, decide_eq_true_eq]
    omega
  have behind : insideLine line.length = true := by
    simp only [insideLine, size, Bool.and_eq_true, decide_eq_true_eq]
    omega
  unfold terminateLine
  rw [if_pos last, if_pos behind]
  split <;> rfl

theorem drainLoop_empty {fuel : Nat} {ring : CircularBuffer UInt8} {drained : Drained}
    (nothing : ring.empty = true) (done : drainLoop fuel ring = some drained) :
    drained = { ring } := by
  cases fuel with
  | zero => cases done
  | succ fuel =>
      rw [drainLoop, if_pos nothing] at done
      exact (Option.some.inj done).symm

/-- One turn of the loop. -/
theorem drainLoop_turn {fuel : Nat} {ring : CircularBuffer UInt8} {drained : Drained}
    (some' : ring.empty = false) (done : drainLoop fuel ring = some drained) :
    ∃ less line after rest, fuel = less + 1 ∧
      ring.consumeLine logLineSize = some (line, after) ∧
      drainLoop less after = some rest ∧ drained.ring = rest.ring ∧
      drained.taken.flatten = line ++ rest.taken.flatten := by
  cases fuel with
  | zero => cases done
  | succ fuel =>
      rw [drainLoop, if_neg (by simp [some'])] at done
      simp only [Option.bind_eq_bind, Option.bind_eq_some_iff] at done
      obtain ⟨⟨line, after⟩, result, text, _, rest, further, same⟩ := done
      cases same
      exact ⟨fuel, line, after, rest, rfl, result, further, rfl, List.flatten_cons⟩

/-- Whatever the cells hold, a drain of wrapped content goes to the end of the array. -/
theorem length_drainLoop {fuel : Nat} {ring : CircularBuffer UInt8} {drained : Drained}
    (valid : ring.Valid) (wrapped : ring.head < ring.tail)
    (done : drainLoop fuel ring = some drained) :
    ring.fixedSize - ring.tail ≤ drained.taken.flatten.length := by
  induction fuel generalizing ring drained with
  | zero => cases done
  | succ fuel ih =>
      have occupied : ring.empty = false := by
        simp only [empty, beq_eq_false_iff_ne, ne_eq]
        omega
      obtain ⟨less, line, after, rest, same, result, further, _, taken⟩ :=
        drainLoop_turn occupied done
      cases same
      have turns := turns_of_consumeLine valid wrapped result
      rw [taken, List.length_append]
      rcases turns.covers with reached | ⟨still, covered⟩
      · omega
      · have later := ih turns.valid (by rw [turns.head]; exact still) further
        rw [turns.size] at later
        omega

/-- A line is taken from content that is not empty: either it is a prefix and the state is
ready for it, or it is not. -/
theorem Lines.takesPrefix_of_result {ring after : CircularBuffer UInt8} {line : List UInt8}
    (lines : Lines ring) (ready : LineReady ring logLineSize)
    (result : ring.consumeLine logLineSize = some (line, after)) :
    ∃ count, TakesPrefix ring logLineSize count ∧ line = ring.content.take count ∧
      after = ring.advance count := by
  obtain ⟨count, taken⟩ := lines.takesPrefix_of_ready (by decide) ready
  cases result.symm.trans taken.result
  exact ⟨count, taken, rfl, rfl⟩

theorem length_take_prefix {ring : CircularBuffer UInt8} {lineSize : UInt16} {count : Nat}
    (taken : TakesPrefix ring lineSize count) : (ring.content.take count).length = count := by
  have available := taken.available
  rw [List.length_take, length_content]
  omega

/-- One line taken in a state from which the rest is drained. -/
theorem Lines.drainReady_of_line {ring after : CircularBuffer UInt8} {line : List UInt8}
    {fuel : Nat} {rest : Drained} (lines : Lines ring) (some' : ring.length ≠ 0)
    (result : ring.consumeLine logLineSize = some (line, after))
    (further : drainLoop fuel after = some rest)
    (fits : line.length + rest.taken.flatten.length ≤ ring.length)
    (later : Lines after → rest.taken.flatten.length ≤ after.length →
      DrainReady after logLineSize) : DrainReady ring logLineSize := by
  have ready : LineReady ring logLineSize := by
    by_contra unready
    rcases lines.takes_more result unready with more | ⟨valid, wrapped, more⟩
    · omega
    · have passes := length_drainLoop valid wrapped further
      omega
  obtain ⟨count, taken, rfl, rfl⟩ := lines.takesPrefix_of_result ready result
  have length := length_take_prefix taken
  have shorter := lines.valid.length_advance taken.available
  exact (lines.drainReady_iff some' taken).mpr
    ⟨ready, later (lines.advance taken.available) (by omega)⟩

/-- A loop that takes no more than there is starts in a state that is ready. -/
theorem Lines.drainReady_of_drainLoop {fuel : Nat} {ring : CircularBuffer UInt8}
    {drained : Drained} (lines : Lines ring) (done : drainLoop fuel ring = some drained)
    (fits : drained.taken.flatten.length ≤ ring.length) : DrainReady ring logLineSize := by
  induction fuel generalizing ring drained with
  | zero => cases done
  | succ fuel ih =>
      by_cases nothing : ring.empty = true
      · intro wrapped
        simp only [empty, beq_iff_eq] at nothing
        omega
      · have some' := lines.valid.length_ne_zero (by simpa using nothing)
        obtain ⟨less, line, after, rest, same, result, further, _, taken⟩ :=
          drainLoop_turn (by simpa using nothing) done
        cases same
        rw [taken, List.length_append] at fits
        exact lines.drainReady_of_line some' result further fits
          fun next less => ih next further less

/-- From a state that is ready, a loop that ends has taken everything. -/
theorem Lines.takes_of_drainLoop {fuel : Nat} {ring : CircularBuffer UInt8}
    {drained : Drained} (lines : Lines ring) (ready : DrainReady ring logLineSize)
    (done : drainLoop fuel ring = some drained) :
    drained.ring.empty = true ∧ drained.taken.flatten = ring.content ∧
      Lines drained.ring := by
  induction fuel generalizing ring drained with
  | zero => cases done
  | succ fuel ih =>
      by_cases nothing : ring.empty = true
      · cases drainLoop_empty nothing done
        exact ⟨nothing, (lines.valid.empty_iff.mp nothing).symm, lines⟩
      · have some' := lines.valid.length_ne_zero (by simpa using nothing)
        obtain ⟨less, line, after, rest, same, result, further, left, taken⟩ :=
          drainLoop_turn (by simpa using nothing) done
        cases same
        obtain ⟨count, takes, rfl, rfl⟩ := lines.takesPrefix_of_result
          (lines.lineReady_of_drainReady some' ready) result
        have next := (lines.drainReady_iff some' takes).mp ready
        obtain ⟨ends, all, last⟩ := ih (lines.advance takes.available) next.2 further
        rw [left]
        refine ⟨ends, ?_, last⟩
        rw [taken, all, lines.valid.content_advance takes.available,
          List.take_append_drop]

/-- From a state that is ready, the loop ends. -/
theorem Lines.drainLoop_isSome {fuel : Nat} {ring : CircularBuffer UInt8}
    (lines : Lines ring) (enough : ring.length < fuel)
    (ready : DrainReady ring logLineSize) : (drainLoop fuel ring).isSome := by
  induction fuel generalizing ring with
  | zero => omega
  | succ fuel ih =>
      by_cases nothing : ring.empty = true
      · rw [drainLoop, if_pos nothing]
        rfl
      · have some' := lines.valid.length_ne_zero (by simpa using nothing)
        obtain ⟨count, taken⟩ := lines.takesPrefix_of_ready (by decide)
          (lines.lineReady_of_drainReady some' ready)
        have positive := taken.progress some'
        have shorter := lines.valid.length_advance taken.available
        have length := length_take_prefix taken
        have nonempty : ring.content.take count ≠ [] :=
          List.ne_nil_of_length_pos (by omega)
        have fits : (ring.content.take count).length ≤ logLineSize.toNat := by
          rw [length]
          exact taken.fits
        have next := (lines.drainReady_iff some' taken).mp ready
        obtain ⟨rest, further⟩ := Option.isSome_iff_exists.mp
          (ih (lines.advance taken.available) (by omega) next.2)
        obtain ⟨text, cut⟩ := Option.isSome_iff_exists.mp (terminateLine_isSome nonempty fits)
        rw [drainLoop, if_neg nothing, taken.result]
        simp only [Option.bind_eq_bind, Option.bind_some, cut, further]
        rfl

/-- `clear_if_empty` at the end of a drain makes nothing empty that was not. -/
theorem empty_clearIfEmpty (ring : CircularBuffer UInt8) :
    ring.clearIfEmpty.empty = ring.empty := by
  unfold clearIfEmpty
  by_cases nothing : ring.head = ring.tail <;> simp [empty, nothing]

theorem Lines.clearIfEmpty {ring : CircularBuffer UInt8} (lines : Lines ring) :
    Lines ring.clearIfEmpty := by
  have valid := lines.valid.clearIfEmpty
  by_cases nothing : ring.empty = true
  · rw [clearIfEmpty_eq, if_pos nothing] at valid ⊢
    refine ⟨valid, ?_, ?_, ?_⟩
    · simp [content, length]
    · exact fun away => absurd rfl away
    · exact fun _ => Or.inl rfl
  · rw [clearIfEmpty_eq, if_neg nothing] at valid ⊢
    exact ⟨valid, lines.noEnd, lines.headEnd, lines.spareEnd⟩

/-- What `printAvailableLogging` does before its loop, when the buffer is full. -/
theorem printAvailableLogging_full {fuel : Nat} {ring : CircularBuffer UInt8}
    {drained : Drained} (full : ring.full = true)
    (done : printAvailableLogging fuel ring = some drained) :
    ∃ line after rest, ring.consumeLine logLineSize = some (line, after) ∧
      drainLoop fuel after = some rest ∧ drained.ring = rest.ring.clearIfEmpty ∧
      drained.taken.flatten = line ++ rest.taken.flatten := by
  rw [printAvailableLogging, if_pos full] at done
  simp only [Option.bind_eq_bind, Option.bind_eq_some_iff] at done
  obtain ⟨⟨line, after⟩, result, rest, further, same⟩ := done
  cases same
  exact ⟨line, after, rest, result, further, rfl, List.flatten_cons⟩

theorem printAvailableLogging_loop {fuel : Nat} {ring : CircularBuffer UInt8}
    {drained : Drained} (room : ring.full = false)
    (done : printAvailableLogging fuel ring = some drained) :
    ∃ rest, drainLoop fuel ring = some rest ∧ drained.ring = rest.ring.clearIfEmpty ∧
      drained.taken = rest.taken := by
  rw [printAvailableLogging, if_neg (by simp [room])] at done
  simp only [Option.bind_eq_bind, Option.bind_eq_some_iff] at done
  obtain ⟨rest, further, same⟩ := done
  cases same
  exact ⟨rest, further, rfl, rfl⟩

namespace Lines

variable {ring : CircularBuffer UInt8}

/-- A full buffer is not empty. -/
theorem length_ne_zero_of_full (lines : Lines ring) (full : ring.full = true) :
    ring.length ≠ 0 := by
  have behind := lines.valid.maxedFull full
  apply lines.valid.length_ne_zero
  simp only [empty, beq_eq_false_iff_ne, ne_eq]
  omega

/-- From a state that is ready, a drain that ends has taken everything. -/
theorem takes_of_printAvailableLogging {fuel : Nat} {drained : Drained}
    (lines : Lines ring) (ready : DrainReady ring logLineSize)
    (done : printAvailableLogging fuel ring = some drained) :
    drained.ring.empty = true ∧ drained.taken.flatten = ring.content ∧
      Lines drained.ring := by
  cases full : ring.full with
  | true =>
      obtain ⟨line, after, rest, result, further, last, taken⟩ :=
        printAvailableLogging_full full done
      have some' := lines.length_ne_zero_of_full full
      obtain ⟨count, takes, rfl, rfl⟩ := lines.takesPrefix_of_result
        (lines.lineReady_of_drainReady some' ready) result
      have next := (lines.drainReady_iff some' takes).mp ready
      obtain ⟨ends, all, kept⟩ :=
        (lines.advance takes.available).takes_of_drainLoop next.2 further
      rw [last, empty_clearIfEmpty, taken, all,
        lines.valid.content_advance takes.available, List.take_append_drop]
      exact ⟨ends, rfl, kept.clearIfEmpty⟩
  | false =>
      obtain ⟨rest, further, last, taken⟩ := printAvailableLogging_loop full done
      obtain ⟨ends, all, kept⟩ := lines.takes_of_drainLoop ready further
      rw [last, empty_clearIfEmpty, taken]
      exact ⟨ends, all, kept.clearIfEmpty⟩

/-- From a state that is ready, a drain ends. -/
theorem printAvailableLogging_isSome (lines : Lines ring)
    (ready : DrainReady ring logLineSize) :
    (printAvailableLogging (ring.length + 1) ring).isSome := by
  cases full : ring.full with
  | true =>
      have some' := lines.length_ne_zero_of_full full
      obtain ⟨count, taken⟩ := lines.takesPrefix_of_ready (by decide)
        (lines.lineReady_of_drainReady some' ready)
      have shorter := lines.valid.length_advance taken.available
      have next := (lines.drainReady_iff some' taken).mp ready
      have enough : (ring.advance count).length < ring.length + 1 := by omega
      obtain ⟨rest, further⟩ := Option.isSome_iff_exists.mp
        ((lines.advance taken.available).drainLoop_isSome enough next.2)
      rw [printAvailableLogging, if_pos full, taken.result]
      simp only [Option.bind_eq_bind, Option.bind_some, further]
      rfl
  | false =>
      obtain ⟨rest, further⟩ := Option.isSome_iff_exists.mp
        (lines.drainLoop_isSome (Nat.lt_succ_self _) ready)
      rw [printAvailableLogging, if_neg (by simp [full]), further]
      rfl

/-- A drain that takes no more than there is starts in a state that is ready. -/
theorem drainReady_of_printAvailableLogging {fuel : Nat} {drained : Drained}
    (lines : Lines ring) (done : printAvailableLogging fuel ring = some drained)
    (fits : drained.taken.flatten.length ≤ ring.length) : DrainReady ring logLineSize := by
  cases full : ring.full with
  | true =>
      obtain ⟨line, after, rest, result, further, _, taken⟩ :=
        printAvailableLogging_full full done
      rw [taken, List.length_append] at fits
      exact lines.drainReady_of_line (lines.length_ne_zero_of_full full) result further fits
        fun next less => next.drainReady_of_drainLoop further less
  | false =>
      obtain ⟨rest, further, _, taken⟩ := printAvailableLogging_loop full done
      rw [taken] at fits
      exact lines.drainReady_of_drainLoop further fits

/-- A drain works exactly from the states that are ready. -/
theorem drainsOnce_iff (lines : Lines ring) :
    DrainsOnce ring ↔ DrainReady ring logLineSize := by
  constructor
  · intro ⟨fuel, drained, done, _, all⟩
    refine lines.drainReady_of_printAvailableLogging done ?_
    rw [all, length_content]
  · intro ready
    obtain ⟨drained, done⟩ := Option.isSome_iff_exists.mp
      (lines.printAvailableLogging_isSome ready)
    obtain ⟨ends, all, _⟩ := lines.takes_of_printAvailableLogging ready done
    exact ⟨_, drained, done, ends, all⟩

end Lines

/-! ## Runs -/

/-- What happens to the log buffer. -/
inductive LogOp where
  | write (items : List UInt8)
  | drain
  deriving DecidableEq

/-- One call that returns. -/
inductive LogStep : CircularBuffer UInt8 → LogOp → CircularBuffer UInt8 → Prop where
  | write {ring after : CircularBuffer UInt8} {items : List UInt8} :
      Storable items → ring.write items = some after → LogStep ring (.write items) after
  | drain {ring : CircularBuffer UInt8} {fuel : Nat} {drained : Drained} :
      printAvailableLogging fuel ring = some drained → LogStep ring .drain drained.ring

/-- Drains are only made in states that are ready for them. -/
def ReadyToDrain (ring : CircularBuffer UInt8) : LogOp → Prop
  | .write _ => True
  | .drain => DrainReady ring logLineSize

/-- Each call keeps the invariant of the cells. -/
theorem Lines.logStep {ring after : CircularBuffer UInt8} {op : LogOp} (lines : Lines ring)
    (step : Guarded ReadyToDrain LogStep ring op after) : Lines after := by
  obtain ⟨ready, step⟩ := step
  cases step with
  | write storable done => exact lines.write storable done
  | drain done => exact (lines.takes_of_printAvailableLogging ready done).2.2

/-- The loop of `write` stays in front of the spare cell. -/
theorem spare_loop {ring : CircularBuffer UInt8} (valid : ring.Valid) (items : List UInt8)
    (state : Writing UInt8) :
    (Writing.loop ring items state).buffer.getD ring.fixedSize endItem =
      state.buffer.getD ring.fixedSize endItem := by
  induction items generalizing state with
  | nil => rfl
  | cons item items ih =>
      have before : (ring.head + state.count) % ring.fixedSize < ring.fixedSize :=
        Nat.mod_lt _ (by have := valid.twoLe; omega)
      rw [Writing.loop]
      split
      · rfl
      · rw [ih, Writing.put, List.getD_eq_getElem?_getD, List.getElem?_set_ne (by omega),
          ← List.getD_eq_getElem?_getD]

/-- A terminator in the spare cell stays there. -/
theorem Valid.spare_write {ring after : CircularBuffer UInt8} (valid : ring.Valid)
    {items : List UInt8} (storable : Storable items) (done : ring.write items = some after)
    (spare : ring.cell ring.fixedSize = endItem) : after.cell after.fixedSize = endItem := by
  rw [storable.write_eq, Option.some.injEq] at done
  subst done
  have kept := spare_loop valid items { buffer := ring.buffer, maxed := ring.maxed }
  change _ = ring.cell ring.fixedSize at kept
  rw [spare] at kept
  simp only [Writing.finish, cell]
  rw [List.getD_eq_getElem?_getD] at kept ⊢
  rw [List.getElem?_set]
  split
  · split <;> rfl
  · exact kept

/-- The last texts written stay in the log, as far as there is room. -/
theorem exists_writes {texts : List (List UInt8)} (storable : ∀ text ∈ texts, Storable text)
    {ring : CircularBuffer UInt8} (queued : Queued ring)
    (spare : ring.cell ring.fixedSize = endItem) :
    ∃ after, Run (Guarded ReadyToDrain LogStep) ring (texts.map .write) after ∧
      Queued after ∧ after.fixedSize = ring.fixedSize ∧
      after.cell after.fixedSize = endItem ∧
      after.head = (ring.head + texts.flatten.length) % ring.fixedSize ∧
      after.content =
        BoundedQueue.keepLast (ring.fixedSize - 1) (ring.content ++ texts.flatten) := by
  induction texts generalizing ring with
  | nil =>
      have lengthLt := queued.valid.length_lt
      refine ⟨ring, .nil ring, queued, rfl, spare, ?_, ?_⟩
      · exact (Nat.mod_eq_of_lt queued.valid.headLt).symm
      · rw [List.flatten_nil, List.append_nil, BoundedQueue.keepLast_of_length_le]
        rw [length_content]
        omega
  | cons text texts ih =>
      have first := storable text (by simp)
      have done := first.write_eq ring
      obtain ⟨next, size, content⟩ := queued.write first done
      have head := (first.written queued.valid).count
      obtain ⟨after, run, last, sizes, spares, heads, contents⟩ :=
        ih (fun other member => storable other (by simp [member])) next
          (queued.valid.spare_write first done spare)
      refine ⟨after, .cons ⟨trivial, .write first done⟩ run, last, sizes.trans size, spares,
        ?_, ?_⟩
      · rw [heads, size, List.flatten_cons, List.length_append]
        simp only [Writing.finish]
        rw [head, Nat.mod_add_mod, Nat.add_assoc]
      · rw [contents, content, size, BoundedQueue.keepLast_append, List.flatten_cons,
          List.append_assoc]

/-- After any run from a fresh buffer in which every drain was made in a ready state,
`printAvailableLogging` ends and takes everything once exactly in the ready states. -/
theorem drainsOnce_iff_drainReady {cells : List UInt8} {ops : List LogOp}
    {ring : CircularBuffer UInt8} (room : cells.length = 3001)
    (run : Run (Guarded ReadyToDrain LogStep) (serialLogBuffer cells) ops ring) :
    DrainsOnce ring ↔ DrainReady ring logLineSize := by
  have lines : Lines ring :=
    run.invariant (fun lines step => lines.logStep step)
      (new_lines (by decide) (by decide) room)
  exact lines.drainsOnce_iff

/-- A line and the start of the next are drained from a fresh buffer. -/
theorem drainsOnce_iff_drainReady_flat :
    ∃ ring, Run (Guarded ReadyToDrain LogStep) (serialLogBuffer (List.replicate 3001 0))
      [.write [97, 10, 98]] ring ∧ DrainsOnce ring := by
  have text : Storable ([97, 10, 98] : List UInt8) := ⟨by decide, by simp [endItem], by decide⟩
  have done := text.write_eq (serialLogBuffer (List.replicate 3001 0))
  have first : Guarded ReadyToDrain LogStep _ (.write [97, 10, 98]) _ :=
    ⟨trivial, .write text done⟩
  have run := Run.cons first (.nil _)
  refine ⟨_, run, (drainsOnce_iff_drainReady List.length_replicate run).mpr ?_⟩
  intro wrapped
  exact absurd wrapped (by decide)

/-- Letters without a newline that have gone round the end of the array, up to the tail. -/
theorem not_drainReady_of_letters {ring : CircularBuffer UInt8} {count : Nat}
    (valid : ring.Valid) (content : ring.content = List.replicate count 97)
    (spare : ring.cell ring.fixedSize = endItem) (wrapped : ring.head < ring.tail)
    (long : logLineSize.toNat < ring.consumable) (few : ring.head < logLineSize.toNat) :
    ¬ DrainReady ring logLineSize := by
  intro ready
  have available := valid.consumable_le
  have none : newline ∉ ring.content.take ring.consumable := by
    rw [content]
    intro member
    cases List.eq_of_mem_replicate (List.mem_of_mem_take member)
  have length : ring.unfinished.length = ring.consumable := by
    rw [Lines.unfinished_of_none none, List.length_take, length_content]
    omega
  have some : ring.unfinished ≠ [] := List.ne_nil_of_length_pos (by omega)
  rcases ready wrapped some with newline' | ⟨_, short, _⟩
  · rw [spare] at newline'
    cases newline'
  · have behind := short (by omega)
    omega

/-- Six texts of 502 letters go round the end of the log, so that twelve letters are behind
the turn: a line of 159 leaves the tail at 159, in front of letters that it has taken. -/
theorem drain_revives :
    ∃ ring, Run (Guarded ReadyToDrain LogStep) (serialLogBuffer (List.replicate 3001 0))
      (List.replicate 6 (.write (List.replicate 502 97))) ring ∧ ¬ DrainsOnce ring := by
  have text : Storable (List.replicate 502 (97 : UInt8)) := by
    refine ⟨List.ne_nil_of_length_pos ?_, ?_, ?_⟩
    · rw [List.length_replicate]
      decide
    · intro item member
      rw [List.eq_of_mem_replicate member]
      decide
    · rw [List.length_replicate]
      decide
  have room : (List.replicate 3001 (0 : UInt8)).length = 3001 := List.length_replicate
  have fresh : Queued (serialLogBuffer (List.replicate 3001 0)) :=
    new_queued (by decide) (by decide) room
  have spare : (serialLogBuffer (List.replicate 3001 0)).cell 3000 = endItem := by
    rw [cell, List.getD_eq_getElem?_getD, serialLogBuffer, new, List.getElem?_replicate]
    rfl
  have storable : ∀ other ∈ List.replicate 6 (List.replicate 502 (97 : UInt8)),
      Storable other := by
    intro other member
    rw [List.eq_of_mem_replicate member]
    exact text
  obtain ⟨ring, run, queued, size, spares, head, content⟩ :=
    exists_writes storable fresh spare
  rw [List.map_replicate] at run
  have start : (serialLogBuffer (List.replicate 3001 0)).content = [] := content_new _ _
  have sizes : ring.fixedSize = 3000 := size
  have heads : ring.head = 12 := by
    rw [head, List.flatten_replicate_replicate, List.length_replicate]
    rfl
  have letters : ring.content = List.replicate 2999 97 := by
    rw [content, start, List.nil_append, List.flatten_replicate_replicate,
      BoundedQueue.keepLast, List.length_replicate, List.drop_replicate]
    rfl
  have lines : Lines ring :=
    run.invariant (fun lines step => lines.logStep step)
      (new_lines (by decide) (by decide) room)
  have length : ring.length = 2999 := by
    rw [← length_content, letters, List.length_replicate]
  have shape := queued.valid.length_cases
  have tailLt := queued.valid.tailLt
  have wrapped : ring.head < ring.tail := by omega
  have piece := Valid.consumable_of_wrapped wrapped
  have width := logLineSize_toNat
  refine ⟨ring, run, fun drains => ?_⟩
  exact not_drainReady_of_letters queued.valid letters spares wrapped (by omega) (by omega)
    (lines.drainsOnce_iff.mp drains)

end BleRepeater.CircularBuffer
