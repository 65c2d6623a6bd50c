import BleRepeater.Library.BigEndian
import BleRepeater.Library.OrderedMap
import BleRepeater.CircularBuffer.Queue

/-!
# Taking a line

`consume_line` of `CircularBuffer<char>`.  It looks for the end of the line with
`strchr`, which knows nothing of head and tail: it runs over the raw cells until
it meets the character or a terminator, and beyond the array when there is
neither.
-/

namespace BleRepeater.CircularBuffer

open Transition

/-- `'\n'`. -/
def newline : UInt8 := 10

/-- The outcomes of `strchr`: the offset of the character, `nullptr`, or a scan
that leaves the array. -/
inductive Scan where
  | found (offset : Nat)
  | absent
  | overrun
  deriving DecidableEq

namespace Scan

/-- The outcome as seen from `count` cells further in front. -/
def after (count : Nat) : Scan → Scan
  | found offset => found (offset + count)
  | absent => absent
  | overrun => overrun

/-- Whether the character is there. -/
def isFound : Scan → Bool
  | found _ => true
  | absent => false
  | overrun => false

@[simp] theorem after_eq_absent {count : Nat} {scan : Scan} :
    scan.after count = absent ↔ scan = absent := by
  cases scan <;> simp [after]

@[simp] theorem after_eq_overrun {count : Nat} {scan : Scan} :
    scan.after count = overrun ↔ scan = overrun := by
  cases scan <;> simp [after]

@[simp] theorem after_zero (scan : Scan) : scan.after 0 = scan := by
  cases scan <;> rfl

theorem after_after (first second : Nat) (scan : Scan) :
    (scan.after first).after second = scan.after (first + second) := by
  cases scan <;> simp [after, Nat.add_assoc]

end Scan

/-- `std::strchr`, over the cells that are left of the array. -/
def strchr (target : UInt8) : List UInt8 → Scan
  | [] => .overrun
  | cell :: cells =>
      if cell = target then .found 0
      else if cell = endItem then .absent
      else (strchr target cells).after 1

/-- The end of `consume_line`, once the last piece is known: it starts at
`toConsume`, and `written` items are in the line already. -/
def lastPiece (ring : CircularBuffer UInt8) (lineSize : UInt16) (written : List UInt8)
    (toConsume consumable willConsume : Nat) (lineEnd : Option Nat) :
    List UInt8 × CircularBuffer UInt8 :=
  let lineExtra :=
    match lineEnd with
    | none => willConsume
    | some offset => min willConsume (UInt16.ofNat (offset + 1)).toNat
  let tail :=
    if written.length + lineExtra ≤ consumable then
      (toConsume + lineExtra) % ring.fixedSize
    else if decide (ring.head ≤ toConsume) && !ring.empty then
      match lineEnd with
      | none => written.length + willConsume
      | some _ => lineSize.toNat
    else ring.head
  (written ++ ring.slice toConsume lineExtra, { ring with tail, maxed := false })

/-- `CircularBuffer<char>::consume_line`: the line without its terminator.  It is
`none` when `strchr` leaves the array. -/
def consumeLine (ring : CircularBuffer UInt8) (lineSize : UInt16) :
    Option (List UInt8 × CircularBuffer UInt8) :=
  let consumable := ring.consumable
  let willConsume := min lineSize.toNat consumable
  match strchr newline (ring.buffer.drop ring.tail) with
  | .overrun => none
  | .found lineEnd =>
      some (ring.lastPiece lineSize [] ring.tail consumable willConsume (some lineEnd))
  | .absent =>
      let written := ring.slice ring.tail willConsume
      if consumable = willConsume then
        if ring.wraps then
          match strchr newline ring.buffer with
          | .overrun => none
          | .found lineEnd =>
              let extra := min (lineSize.toNat - willConsume)
                (UInt16.ofNat (lineEnd + 1)).toNat
              some (written ++ ring.slice 0 extra,
                { ring with tail := extra % ring.fixedSize, maxed := false })
          | .absent => some (written, { ring with tail := 0, maxed := false })
        else
          some (written, { ring with tail := ring.head, maxed := false })
      else
        let toConsume := ring.tail + willConsume
        let consumable := ring.head
        let willConsume := min (lineSize.toNat - willConsume) consumable
        match strchr newline (ring.buffer.drop toConsume) with
        | .overrun => none
        | .found lineEnd =>
            some (ring.lastPiece lineSize written toConsume consumable willConsume
              (some lineEnd))
        | .absent =>
            some (ring.lastPiece lineSize written toConsume consumable willConsume none)

/-- A last piece of nothing. -/
theorem lastPiece_zero (ring : CircularBuffer UInt8) (lineSize : UInt16)
    (written : List UInt8) (toConsume consumable : Nat) (lineEnd : Option Nat) :
    ring.lastPiece lineSize written toConsume consumable 0 lineEnd =
      (written, { ring with
        tail :=
          if written.length ≤ consumable then toConsume % ring.fixedSize
          else if decide (ring.head ≤ toConsume) && !ring.empty then
            if lineEnd.isNone then written.length else lineSize.toNat
          else ring.head
        maxed := false }) := by
  cases lineEnd <;> simp [lastPiece, slice]

/-! ## Scanning -/

/-- A scan over cells without a terminator either stops at the first occurrence or
goes on behind them. -/
theorem strchr_append {target : UInt8} {front : List UInt8} (rest : List UInt8)
    (noEnd : ∀ cell ∈ front, cell ≠ endItem) :
    strchr target (front ++ rest) =
      if target ∈ front then .found (front.idxOf target)
      else (strchr target rest).after front.length := by
  induction front with
  | nil => simp
  | cons cell cells ih =>
      have here := noEnd cell (by simp)
      have further := ih fun other member => noEnd other (by simp [member])
      simp only [List.cons_append, strchr]
      by_cases same : cell = target
      · simp [same]
      · rw [if_neg same, if_neg here, further]
        by_cases member : target ∈ cells
        · simp [member, Scan.after, List.idxOf_cons, beq_false_of_ne same]
        · simp [member, Ne.symm same, Scan.after_after]

/-- A scan leaves the array exactly when nothing stops it. -/
theorem strchr_overrun_iff {target : UInt8} {cells : List UInt8} :
    strchr target cells = .overrun ↔ ∀ cell ∈ cells, cell ≠ target ∧ cell ≠ endItem := by
  induction cells with
  | nil => simp [strchr]
  | cons cell cells ih =>
      rw [List.forall_mem_cons, ← ih, strchr]
      by_cases here : cell = target
      · simp [here]
      · by_cases stop : cell = endItem
        · subst stop
          simp [here]
        · simp [here, stop]

/-- A scan over cells with a terminator stays inside. -/
theorem strchr_ne_overrun {target : UInt8} {cells : List UInt8}
    (terminated : endItem ∈ cells) : strchr target cells ≠ .overrun := by
  intro overrun
  exact (strchr_overrun_iff.mp overrun endItem terminated).2 rfl

theorem strchr_endItem {target : UInt8} (notEnd : target ≠ endItem)
    (rest : List UInt8) : strchr target (endItem :: rest) = .absent := by
  simp [strchr, Ne.symm notEnd]

/-- Cutting after the first occurrence, or before, leaves it nowhere but at the end
of the piece. -/
theorem notMem_dropLast_take {target : UInt8} {cells : List UInt8} {count : Nat}
    (first : count ≤ cells.idxOf target + 1) :
    target ∉ (cells.take count).dropLast := by
  intro member
  rw [List.dropLast_eq_take, List.take_take] at member
  obtain ⟨index, inside, found⟩ := List.getElem_of_mem member
  rw [List.getElem_take] at found
  simp only [List.length_take] at inside
  have early : index < cells.findIdx (· == target) := by
    change index < cells.idxOf target
    omega
  have other := List.not_of_lt_findIdx early
  simp [found] at other

/-- A scan finds the character in the first cell, or further on when nothing there stops
it. -/
theorem strchr_cons_found {target cell : UInt8} {cells : List UInt8} {offset : Nat}
    (found : strchr target (cell :: cells) = .found offset) :
    (cell = target ∧ offset = 0) ∨
      (cell ≠ endItem ∧ ∃ later, strchr target cells = .found later ∧ offset = later + 1) := by
  simp only [strchr] at found
  split at found
  · rename_i same
    cases found
    exact Or.inl ⟨same, rfl⟩
  · split at found
    · cases found
    · rename_i other
      cases further : strchr target cells with
      | found later =>
          rw [further] at found
          cases found
          exact Or.inr ⟨other, later, rfl, rfl⟩
      | absent => simp [further, Scan.after] at found
      | overrun => simp [further, Scan.after] at found

/-- Where a scan finds the character, it is. -/
theorem getElem?_of_found {target : UInt8} {cells : List UInt8} {offset : Nat}
    (found : strchr target cells = .found offset) : cells[offset]? = some target := by
  induction cells generalizing offset with
  | nil => simp [strchr] at found
  | cons cell cells ih =>
      obtain ⟨same, rfl⟩ | ⟨_, later, further, rfl⟩ := strchr_cons_found found
      · simp [same]
      · simpa using ih further

/-- A scan that finds the character met no terminator on the way. -/
theorem getElem?_ne_of_found {target : UInt8} {cells : List UInt8} {offset index : Nat}
    (notEnd : target ≠ endItem) (found : strchr target cells = .found offset)
    (before : index ≤ offset) : cells[index]? ≠ some endItem := by
  induction cells generalizing offset index with
  | nil => simp [strchr] at found
  | cons cell cells ih =>
      obtain ⟨same, rfl⟩ | ⟨other, later, further, rfl⟩ := strchr_cons_found found
      · obtain rfl := Nat.le_zero.mp before
        simpa [same] using notEnd
      · cases index with
        | zero => simpa using other
        | succ index => exact ih further (by omega)

/-- A scan that starts later, but not behind the character, finds the same one. -/
theorem strchr_drop_of_found {target : UInt8} {cells : List UInt8} {offset start : Nat}
    (found : strchr target cells = .found offset) (before : start ≤ offset) :
    strchr target (cells.drop start) = .found (offset - start) := by
  induction cells generalizing offset start with
  | nil => simp [strchr] at found
  | cons cell cells ih =>
      cases start with
      | zero => simpa using found
      | succ start =>
          obtain ⟨_, rfl⟩ | ⟨_, later, further, rfl⟩ := strchr_cons_found found
          · omega
          · rw [List.drop_succ_cons, ih further (by omega)]
            congr 1
            omega

/-! ## The cells around the content -/

theorem Valid.drop_eq_cons {ring : CircularBuffer UInt8} (valid : ring.Valid)
    {index : Nat} (inside : index ≤ ring.fixedSize) :
    ring.buffer.drop index = ring.cell index :: ring.buffer.drop (index + 1) := by
  have inArray : index < ring.buffer.length := by
    rw [valid.cells]
    omega
  rw [List.drop_eq_getElem_cons inArray, cell, List.getD_eq_getElem?_getD,
    List.getElem?_eq_getElem inArray, Option.getD_some]

/-- From the tail on: the content that lies in one piece, then the rest of the
array. -/
theorem Valid.drop_tail {ring : CircularBuffer UInt8} (valid : ring.Valid) {count : Nat}
    (inOnePiece : count ≤ ring.consumable) :
    ring.buffer.drop ring.tail =
      ring.content.take count ++ ring.buffer.drop (ring.tail + count) := by
  rw [← valid.slice_tail inOnePiece, slice, ← List.drop_drop, List.take_append_drop]

/-- From the start on: the content behind the turn. -/
theorem Valid.slice_zero {ring : CircularBuffer UInt8} (valid : ring.Valid)
    (wrapped : ring.head < ring.tail) {count : Nat} (inside : count ≤ ring.head) :
    ring.slice 0 count = (ring.content.drop ring.consumable).take count := by
  have cells := valid.cells
  have headLt := valid.headLt
  have tailLt := valid.tailLt
  have consumable := Valid.consumable_of_wrapped wrapped
  have length : ring.length = ring.head + ring.fixedSize - ring.tail := by
    rcases valid.length_cases with shape | shape <;> omega
  rw [slice_eq ring (by omega)]
  apply List.ext_getElem
  · simp only [List.length_map, List.length_range, List.length_take, List.length_drop,
      length_content]
    omega
  · intro index left right
    simp only [List.length_map, List.length_range] at left
    rw [List.getElem_take, List.getElem_drop, getElem_content, List.getElem_map,
      List.getElem_range, consumable,
      show ring.tail + (ring.fixedSize - ring.tail + index) = index + ring.fixedSize by
        omega,
      Nat.add_mod_right, Nat.mod_eq_of_lt (by omega), Nat.zero_add]

/-- What the writes guarantee about the raw cells: the content has no terminator in
it, and the last write left one behind it, at the head or in the spare cell. -/
structure Lines (ring : CircularBuffer UInt8) : Prop where
  valid : ring.Valid
  noEnd : ∀ item ∈ ring.content, item ≠ endItem
  headEnd : ring.head ≠ 0 → ring.cell ring.head = endItem
  spareEnd : ring.head = 0 → ring.tail = 0 ∨ ring.cell ring.fixedSize = endItem

theorem new_lines {cells : List UInt8} {size : Nat} (twoLe : 2 ≤ size)
    (small : size < 2 ^ 16) (room : cells.length = size + 1) :
    Lines (new cells size) where
  valid := new_valid twoLe small room
  noEnd := by simp
  headEnd := fun away => absurd rfl away
  spareEnd := fun _ => Or.inl rfl

namespace Lines

variable {ring : CircularBuffer UInt8}

theorem advance (lines : Lines ring) {count : Nat} (available : count ≤ ring.length) :
    Lines (ring.advance count) where
  valid := lines.valid.advance count
  noEnd := by
    rw [lines.valid.content_advance available]
    intro item member
    exact lines.noEnd item (List.mem_of_mem_drop member)
  headEnd := lines.headEnd
  spareEnd := by
    intro atStart
    rcases lines.spareEnd atStart with tail | spare
    · left
      have atStart : ring.head = 0 := atStart
      have nothing : count = 0 := by
        have shape := lines.valid.length_cases
        omega
      change (ring.tail + count) % ring.fixedSize = 0
      simp [tail, nothing]
    · exact Or.inr spare

theorem write (lines : Lines ring) {items : List UInt8} (storable : Storable items)
    {after : CircularBuffer UInt8} (done : ring.write items = some after) :
    Lines after := by
  rw [storable.write_eq, Option.some.injEq] at done
  subst done
  have valid := lines.valid
  have written := storable.written valid
  obtain ⟨headEnd, spareEnd⟩ := written.finish_terminated valid storable.nonempty
  refine ⟨written.finish_valid valid, ?_, headEnd, fun atStart => Or.inr (spareEnd atStart)⟩
  intro item member
  have stored := written.mem_of_mem_finish_content valid storable.nonempty
    (written.size_le_of_maxed valid) member
  rcases List.mem_append.mp stored with old | new
  · exact lines.noEnd item old
  · exact storable.noEnd item new

/-- The scan from the tail, past content without a newline. -/
theorem scan_further (lines : Lines ring) {count : Nat}
    (inOnePiece : count ≤ ring.consumable)
    (noNewline : newline ∉ ring.content.take count) :
    strchr newline (ring.buffer.drop ring.tail) =
      (strchr newline (ring.buffer.drop (ring.tail + count))).after count := by
  have available := lines.valid.consumable_le
  rw [lines.valid.drop_tail inOnePiece, strchr_append, if_neg noNewline,
    List.length_take, length_content, Nat.min_eq_left (by omega)]
  intro item member
  exact lines.noEnd item (List.mem_of_mem_take member)

/-- The scan from the tail stops at the first newline of the consumable content. -/
theorem scan_stops (lines : Lines ring)
    (member : newline ∈ ring.content.take ring.consumable) :
    strchr newline (ring.buffer.drop ring.tail) =
      .found ((ring.content.take ring.consumable).idxOf newline) := by
  rw [lines.valid.drop_tail (Nat.le_refl _), strchr_append, if_pos member]
  intro item member
  exact lines.noEnd item (List.mem_of_mem_take member)

theorem notMem_of_absent (lines : Lines ring)
    (absent : strchr newline (ring.buffer.drop ring.tail) = .absent) :
    newline ∉ ring.content.take ring.consumable := by
  intro member
  rw [lines.scan_stops member] at absent
  cases absent

/-- Content in one piece behind which the last write left its terminator. -/
theorem scan_flat (lines : Lines ring) (flat : ring.tail ≤ ring.head)
    (away : ring.head ≠ 0) (noNewline : newline ∉ ring.content.take ring.consumable) :
    strchr newline (ring.buffer.drop ring.tail) = .absent := by
  have headLt := lines.valid.headLt
  rw [lines.scan_further (Nat.le_refl _) noNewline, Valid.consumable_of_flat flat,
    show ring.tail + (ring.head - ring.tail) = ring.head by omega,
    lines.valid.drop_eq_cons (by omega), lines.headEnd away,
    strchr_endItem (by decide)]
  rfl

/-- The scan from the start, when the content behind the turn is not empty. -/
theorem scan_start (lines : Lines ring) (wrapped : ring.head < ring.tail)
    (away : ring.head ≠ 0) :
    strchr newline ring.buffer =
      if newline ∈ ring.content.drop ring.consumable then
        .found ((ring.content.drop ring.consumable).idxOf newline)
      else .absent := by
  have headLt := lines.valid.headLt
  have back : ring.slice 0 ring.head = ring.content.drop ring.consumable := by
    rw [lines.valid.slice_zero wrapped (Nat.le_refl _), List.take_of_length_le]
    rw [List.length_drop, length_content, Valid.consumable_of_wrapped wrapped]
    rcases lines.valid.length_cases with shape | shape <;> omega
  have cells : ring.buffer =
      ring.content.drop ring.consumable ++ ring.buffer.drop ring.head := by
    rw [← back, slice, List.drop_zero, List.take_append_drop]
  have noEnd : ∀ item ∈ ring.content.drop ring.consumable, item ≠ endItem :=
    fun item member => lines.noEnd item (List.mem_of_mem_drop member)
  rw [cells, strchr_append _ noEnd, lines.valid.drop_eq_cons (by omega),
    lines.headEnd away, strchr_endItem (by decide)]
  rfl

/-- Without a newline in the consumable content and with wrapped content, the
scan from the tail comes down to the spare cell. -/
theorem spare_of_absent (lines : Lines ring) (wrapped : ring.head < ring.tail)
    (absent : strchr newline (ring.buffer.drop ring.tail) = .absent) :
    ring.cell ring.fixedSize = endItem := by
  have tailLt := lines.valid.tailLt
  have noNewline := lines.notMem_of_absent absent
  have consumable := Valid.consumable_of_wrapped wrapped
  rw [lines.scan_further (Nat.le_refl _) noNewline, Scan.after_eq_absent, consumable,
    show ring.tail + (ring.fixedSize - ring.tail) = ring.fixedSize by omega,
    lines.valid.drop_eq_cons (Nat.le_refl _), strchr] at absent
  split at absent
  · cases absent
  · split at absent
    · assumption
    · rw [List.drop_eq_nil_of_le (by rw [lines.valid.cells])] at absent
      cases absent

end Lines

theorem Valid.retail {ring : CircularBuffer UInt8} (valid : ring.Valid) {tail : Nat}
    (inside : tail < ring.fixedSize) :
    ({ ring with tail, maxed := false } : CircularBuffer UInt8).Valid :=
  ⟨valid.twoLe, valid.small, valid.cells, valid.headLt, inside, by simp⟩

/-! ## Lines as prefixes -/

/-- `consume_line` takes the first `count` items as a line. -/
structure TakesPrefix (ring : CircularBuffer UInt8) (lineSize : UInt16)
    (count : Nat) : Prop where
  result : ring.consumeLine lineSize = some (ring.content.take count, ring.advance count)
  available : count ≤ ring.length
  fits : count ≤ lineSize.toNat
  progress : ring.length ≠ 0 → count ≠ 0
  oneLine : newline ∉ (ring.content.take count).dropLast

/-- What `consume_line` is for: it takes one line, or the part of it that fits,
from the front of the content. -/
def TakesLine (ring : CircularBuffer UInt8) (lineSize : UInt16) : Prop :=
  ∃ line after, ring.consumeLine lineSize = some (line, after) ∧
    line.length ≤ lineSize.toNat ∧
    ring.content = line ++ after.content ∧
    (ring.content ≠ [] → line ≠ []) ∧
    newline ∉ line.dropLast

theorem TakesPrefix.takesLine {ring : CircularBuffer UInt8} {lineSize : UInt16}
    {count : Nat} (taken : TakesPrefix ring lineSize count) (valid : ring.Valid) :
    TakesLine ring lineSize := by
  have available := taken.available
  refine ⟨_, _, taken.result, ?_, ?_, ?_, taken.oneLine⟩
  · exact Nat.le_trans (List.length_take_le ..) taken.fits
  · rw [valid.content_advance available, List.take_append_drop]
  · intro some nothing
    have positive := List.length_pos_iff.mpr some
    have short := congrArg List.length nothing
    have progress := taken.progress
    simp only [List.length_take, length_content, List.length_nil] at positive short
    omega

/-- The states in which `consume_line` works.  The first scan must not leave the
array.  When it finds no newline in content that turns round, a short line must not
be longer than the content behind the turn, and when the head is at the start, a
long line must not meet a stale newline there. -/
structure LineReady (ring : CircularBuffer UInt8) (lineSize : UInt16) : Prop where
  terminated : strchr newline (ring.buffer.drop ring.tail) ≠ .overrun
  shortLine : strchr newline (ring.buffer.drop ring.tail) = .absent →
    ring.head < ring.tail → lineSize.toNat < ring.fixedSize - ring.tail →
    lineSize.toNat ≤ ring.head
  longLine : strchr newline (ring.buffer.drop ring.tail) = .absent →
    ring.head < ring.tail → ring.head = 0 → ring.fixedSize - ring.tail < lineSize.toNat →
    (strchr newline ring.buffer).isFound = false

namespace Lines

variable {ring : CircularBuffer UInt8} {lineSize : UInt16}

/-- A newline may only end a prefix of the first piece of content. -/
theorem oneLine_front {count : Nat} (inOnePiece : count ≤ ring.consumable)
    (first : newline ∈ ring.content.take ring.consumable →
      count ≤ (ring.content.take ring.consumable).idxOf newline + 1) :
    newline ∉ (ring.content.take count).dropLast := by
  have part : ring.content.take count =
      (ring.content.take ring.consumable).take count := by
    rw [List.take_take, Nat.min_eq_left inOnePiece]
  rw [part]
  by_cases member : newline ∈ ring.content.take ring.consumable
  · exact notMem_dropLast_take (first member)
  · intro inside
    exact member (List.mem_of_mem_take (List.dropLast_subset _ inside))

/-- The first scan finds a newline. -/
theorem takesPrefix_of_found (lines : Lines ring) (positive : 1 ≤ lineSize.toNat)
    {lineEnd : Nat} (found : strchr newline (ring.buffer.drop ring.tail) = .found lineEnd) :
    TakesPrefix ring lineSize
      (min (min lineSize.toNat ring.consumable) (UInt16.ofNat (lineEnd + 1)).toNat) := by
  have valid := lines.valid
  have consumableLe := valid.consumable_le
  have narrow : (UInt16.ofNat (lineEnd + 1)).toNat = (lineEnd + 1) % 2 ^ 16 := by
    simp only [UInt16.toNat_ofNat']
  have narrowLe := Nat.mod_le (lineEnd + 1) (2 ^ 16)
  have member : newline ∈ ring.content.take ring.consumable →
      lineEnd = (ring.content.take ring.consumable).idxOf newline := by
    intro member
    rw [lines.scan_stops member] at found
    exact (Scan.found.inj found).symm
  refine ⟨?_, by omega, by omega, ?_, ?_⟩
  · simp only [consumeLine, found, lastPiece, List.length_nil, Nat.zero_add,
      List.nil_append]
    rw [if_pos (by omega), valid.slice_tail (by omega)]
    rfl
  · intro some
    have piece := consumable_ne_zero valid some
    have inArray := (List.getElem?_eq_some_iff.mp (getElem?_of_found found)).1
    rw [List.length_drop, valid.cells] at inArray
    have small := valid.small
    have early : lineEnd + 1 < 2 ^ 16 := by
      by_cases atStart : ring.tail = 0
      · -- the terminator at the head stops the scan before the spare cell
        by_cases inFront : newline ∈ ring.content.take ring.consumable
        · have bound := List.idxOf_lt_length_of_mem inFront
          rw [← member inFront, List.length_take, length_content] at bound
          have lengthLt := valid.length_lt
          omega
        · have flat : ring.tail ≤ ring.head := by omega
          rw [lines.scan_flat flat (by
            have shape := valid.length_cases
            omega) inFront] at found
          cases found
      · omega
    rw [narrow, Nat.mod_eq_of_lt early]
    omega
  · apply oneLine_front (by omega)
    intro inFront
    rw [← member inFront]
    omega

/-- Without a newline in the first piece, a line shorter than that piece is taken
from it; but when it is longer than the content behind the turn, the tail lands on
`lineSize`. -/
theorem consumeLine_short (lines : Lines ring)
    (absent : strchr newline (ring.buffer.drop ring.tail) = .absent)
    (short : lineSize.toNat < ring.consumable) :
    ring.consumeLine lineSize = some (ring.content.take lineSize.toNat,
      if lineSize.toNat ≤ ring.head then ring.advance lineSize.toNat
      else { ring with tail := lineSize.toNat, maxed := false }) := by
  have valid := lines.valid
  have noNewline := lines.notMem_of_absent absent
  have noneInLine : newline ∉ ring.content.take lineSize.toNat := by
    intro member
    rw [← Nat.min_eq_left (Nat.le_of_lt short), ← List.take_take] at member
    exact noNewline (List.mem_of_mem_take member)
  have further := lines.scan_further (Nat.le_of_lt short) noneInLine
  rw [absent, eq_comm, Scan.after_eq_absent] at further
  have fits : min lineSize.toNat ring.consumable = lineSize.toNat := by omega
  have more : ring.consumable ≠ lineSize.toNat := by omega
  have taken : (ring.content.take lineSize.toNat).length = lineSize.toNat := by
    have available := valid.consumable_le
    rw [List.length_take, length_content]
    omega
  simp only [consumeLine, absent, fits, if_neg more, further, lastPiece,
    valid.slice_tail (Nat.le_of_lt short), Nat.sub_self, Nat.zero_min, taken,
    Nat.add_zero]
  have nothing : ring.slice (ring.tail + lineSize.toNat) 0 = [] := by
    simp [slice]
  rw [nothing, List.append_nil]
  by_cases inFront : lineSize.toNat ≤ ring.head
  · rw [if_pos inFront, if_pos inFront]
    rfl
  · rw [if_neg inFront, if_neg inFront]
    have wrapped : ring.head < ring.tail := by
      by_contra flat
      rw [Valid.consumable_of_flat (by omega)] at short
      omega
    have turned : (decide (ring.head ≤ ring.tail + lineSize.toNat) &&
        !ring.empty) = true := by
      have occupied : ring.empty = false := by
        simp only [empty, beq_eq_false_iff_ne, ne_eq]
        omega
      simp only [occupied, Bool.not_false, Bool.and_true, decide_eq_true_eq]
      omega
    rw [if_pos turned]

/-- No newline in content in one piece: all of it, or what fits. -/
theorem takesPrefix_of_flat (lines : Lines ring) (positive : 1 ≤ lineSize.toNat)
    (flat : ring.tail ≤ ring.head)
    (absent : strchr newline (ring.buffer.drop ring.tail) = .absent) :
    TakesPrefix ring lineSize (min lineSize.toNat ring.consumable) := by
  have valid := lines.valid
  have consumableLe := valid.consumable_le
  have consumable := Valid.consumable_of_flat flat
  have notWrapped : ring.wraps = false := by
    rw [← Bool.not_eq_true, Valid.wraps_iff]
    omega
  have noNewline := lines.notMem_of_absent absent
  refine ⟨?_, by omega, by omega, ?_, oneLine_front (by omega) fun member =>
    absurd member noNewline⟩
  · by_cases all : ring.consumable ≤ lineSize.toNat
    · have whole : min lineSize.toNat ring.consumable = ring.consumable := by omega
      simp only [consumeLine, absent, whole, notWrapped, Bool.false_eq_true, if_true,
        if_false, valid.slice_tail (Nat.le_refl _)]
      simp [CircularBuffer.advance, tail_consumable valid, notWrapped]
    · rw [lines.consumeLine_short absent (by omega), if_pos (by omega),
        Nat.min_eq_left (by omega)]
  · intro some
    have piece := consumable_ne_zero valid some
    omega

/-- No newline in the content up to the turn, and a line that is not longer. -/
theorem takesPrefix_of_short (lines : Lines ring) (positive : 1 ≤ lineSize.toNat)
    (absent : strchr newline (ring.buffer.drop ring.tail) = .absent)
    (short : lineSize.toNat < ring.consumable) (inFront : lineSize.toNat ≤ ring.head) :
    TakesPrefix ring lineSize lineSize.toNat := by
  have consumableLe := lines.valid.consumable_le
  have noNewline := lines.notMem_of_absent absent
  refine ⟨?_, by omega, by omega, by omega, oneLine_front (by omega) fun member =>
    absurd member noNewline⟩
  rw [lines.consumeLine_short absent short, if_pos inFront]

/-- Without a newline up to the turn, a line that reaches it goes on at the start of
the array, up to the newline `strchr` finds there. -/
theorem consumeLine_turn (lines : Lines ring) (wrapped : ring.head < ring.tail)
    (absent : strchr newline (ring.buffer.drop ring.tail) = .absent)
    (long : ring.consumable ≤ lineSize.toNat) {lineEnd : Nat}
    (start : strchr newline ring.buffer = .found lineEnd) :
    ring.consumeLine lineSize =
      some (ring.content.take ring.consumable ++ ring.slice 0
          (min (lineSize.toNat - ring.consumable) (UInt16.ofNat (lineEnd + 1)).toNat),
        ring.advance (ring.consumable + min (lineSize.toNat - ring.consumable)
          (UInt16.ofNat (lineEnd + 1)).toNat)) := by
  have valid := lines.valid
  have wraps := Valid.wraps_iff.mpr wrapped
  have whole : min lineSize.toNat ring.consumable = ring.consumable := by omega
  have atTurn : (ring.tail + ring.consumable) % ring.fixedSize = 0 := by
    rw [tail_consumable valid, if_pos wraps]
  simp only [consumeLine, absent, whole, if_true, wraps, start,
    valid.slice_tail (Nat.le_refl _), CircularBuffer.advance]
  rw [← Nat.add_assoc, ← Nat.mod_add_mod, atTurn, Nat.zero_add]

/-- The first newline lies behind the turn. -/
theorem takesPrefix_of_turn (lines : Lines ring) (positive : 1 ≤ lineSize.toNat)
    (wrapped : ring.head < ring.tail) (away : ring.head ≠ 0)
    (absent : strchr newline (ring.buffer.drop ring.tail) = .absent)
    (long : ring.consumable ≤ lineSize.toNat)
    (member : newline ∈ ring.content.drop ring.consumable) :
    TakesPrefix ring lineSize (ring.consumable + min (lineSize.toNat - ring.consumable)
      ((ring.content.drop ring.consumable).idxOf newline + 1)) := by
  have valid := lines.valid
  have small := valid.small
  have headLt := valid.headLt
  have tailLt := valid.tailLt
  have consumable := Valid.consumable_of_wrapped wrapped
  have length : ring.length = ring.consumable + ring.head := by
    rcases valid.length_cases with shape | shape <;> omega
  have start := lines.scan_start wrapped away
  rw [if_pos member] at start
  have bound := List.idxOf_lt_length_of_mem member
  rw [List.length_drop, length_content, length] at bound
  have narrow : (UInt16.ofNat
      ((ring.content.drop ring.consumable).idxOf newline + 1)).toNat =
      (ring.content.drop ring.consumable).idxOf newline + 1 := by
    simp only [UInt16.toNat_ofNat']
    omega
  have result := lines.consumeLine_turn wrapped absent long start
  rw [narrow] at result
  have position : ring.content.idxOf newline = ring.consumable +
      (ring.content.drop ring.consumable).idxOf newline := by
    conv_lhs => rw [← List.take_append_drop ring.consumable ring.content]
    rw [List.idxOf_append, if_neg (lines.notMem_of_absent absent), List.length_take,
      length_content]
    omega
  refine ⟨?_, by omega, by omega, by omega, notMem_dropLast_take (by omega)⟩
  rw [result, valid.slice_zero wrapped (by omega), ← List.take_add]

/-- No newline in the content up to the turn, and a line that reaches it. -/
theorem takesPrefix_of_long (lines : Lines ring) (positive : 1 ≤ lineSize.toNat)
    (wrapped : ring.head < ring.tail)
    (absent : strchr newline (ring.buffer.drop ring.tail) = .absent)
    (long : ring.consumable ≤ lineSize.toNat)
    (noStale : ring.head = 0 → ring.consumable < lineSize.toNat →
      (strchr newline ring.buffer).isFound = false) :
    ∃ count, TakesPrefix ring lineSize count := by
  have valid := lines.valid
  have tailLt := valid.tailLt
  have consumable := Valid.consumable_of_wrapped wrapped
  have wraps := Valid.wraps_iff.mpr wrapped
  have firstPiece : ring.consumeLine lineSize = some (ring.content.take ring.consumable,
      ring.advance ring.consumable) → TakesPrefix ring lineSize ring.consumable :=
    fun result => ⟨result, valid.consumable_le, long, fun _ => by omega,
      oneLine_front (Nat.le_refl _) fun member =>
        absurd member (lines.notMem_of_absent absent)⟩
  cases start : strchr newline ring.buffer with
  | overrun =>
      have inArray : ring.fixedSize < ring.buffer.length := by
        rw [valid.cells]
        omega
      have inside : endItem ∈ ring.buffer := by
        rw [← lines.spare_of_absent wrapped absent, cell, List.getD_eq_getElem?_getD,
          List.getElem?_eq_getElem inArray, Option.getD_some]
        exact List.getElem_mem inArray
      exact absurd start (strchr_ne_overrun inside)
  | absent =>
      have whole : min lineSize.toNat ring.consumable = ring.consumable := by omega
      have atTurn : (ring.tail + ring.consumable) % ring.fixedSize = 0 := by
        rw [tail_consumable valid, if_pos wraps]
      refine ⟨_, firstPiece ?_⟩
      simp only [consumeLine, absent, whole, if_true, wraps, start,
        valid.slice_tail (Nat.le_refl _), CircularBuffer.advance, atTurn]
  | found lineEnd =>
      by_cases atStart : ring.head = 0
      · -- nothing behind the turn: only a line without room for more is right
        have full : lineSize.toNat - ring.consumable = 0 := by
          by_contra room
          have stale := noStale atStart (by omega)
          rw [start] at stale
          cases stale
        refine ⟨_, firstPiece ?_⟩
        rw [lines.consumeLine_turn wrapped absent long start, full, Nat.zero_min,
          Nat.add_zero]
        simp [slice]
      · have member : newline ∈ ring.content.drop ring.consumable := by
          by_contra none
          rw [lines.scan_start wrapped atStart, if_neg none] at start
          cases start
        exact ⟨_, lines.takesPrefix_of_turn positive wrapped atStart absent long member⟩

/-- In a ready state `consume_line` takes a prefix. -/
theorem takesPrefix_of_ready (lines : Lines ring) (positive : 1 ≤ lineSize.toNat)
    (ready : LineReady ring lineSize) : ∃ count, TakesPrefix ring lineSize count := by
  cases scan : strchr newline (ring.buffer.drop ring.tail) with
  | overrun => exact absurd scan ready.terminated
  | found lineEnd => exact ⟨_, lines.takesPrefix_of_found positive scan⟩
  | absent =>
      by_cases flat : ring.tail ≤ ring.head
      · exact ⟨_, lines.takesPrefix_of_flat positive flat scan⟩
      · have wrapped : ring.head < ring.tail := by omega
        have consumable := Valid.consumable_of_wrapped wrapped
        by_cases short : lineSize.toNat < ring.consumable
        · have inFront := ready.shortLine scan wrapped (by omega)
          exact ⟨_, lines.takesPrefix_of_short positive scan short inFront⟩
        · exact lines.takesPrefix_of_long positive wrapped scan (by omega)
            fun atStart more => ready.longLine scan wrapped atStart (by omega)

/-- With the head at the start and a stale newline there, a line that is longer than the
content takes more than the content. -/
theorem consumeLine_stale (lines : Lines ring) (wrapped : ring.head < ring.tail)
    (absent : strchr newline (ring.buffer.drop ring.tail) = .absent)
    (atStart : ring.head = 0) (long : ring.fixedSize - ring.tail < lineSize.toNat)
    (stale : (strchr newline ring.buffer).isFound = true) :
    ∃ line after, ring.consumeLine lineSize = some (line, after) ∧
      ring.length < line.length := by
  have valid := lines.valid
  have tailLt := valid.tailLt
  have consumable := Valid.consumable_of_wrapped wrapped
  cases start : strchr newline ring.buffer with
  | absent => simp [start, Scan.isFound] at stale
  | overrun => simp [start, Scan.isFound] at stale
  | found lineEnd =>
      have there := getElem?_of_found start
      have inArray := (List.getElem?_eq_some_iff.mp there).1
      rw [valid.cells] at inArray
      have spare := lines.spare_of_absent wrapped absent
      have small := valid.small
      have early : lineEnd + 1 < 2 ^ 16 := by
        by_contra late
        have last : lineEnd = ring.fixedSize := by omega
        rw [cell, List.getD_eq_getElem?_getD, ← last, there] at spare
        cases spare
      have narrow : (UInt16.ofNat (lineEnd + 1)).toNat = lineEnd + 1 := by
        simp only [UInt16.toNat_ofNat']
        omega
      have reaches : ring.consumable ≤ lineSize.toNat := by omega
      have result := lines.consumeLine_turn wrapped absent reaches start
      rw [narrow] at result
      refine ⟨_, _, result, ?_⟩
      have before := valid.length_cases
      have cells := valid.cells
      simp only [slice, List.length_append, List.length_take, List.length_drop,
        length_content]
      omega

/-- In a state that is not ready for a line, what is taken and what is then in front of the
end of the array are more than there was. -/
theorem takes_more (lines : Lines ring) {line : List UInt8} {after : CircularBuffer UInt8}
    (result : ring.consumeLine lineSize = some (line, after))
    (unready : ¬ LineReady ring lineSize) :
    ring.length < line.length ∨ after.Valid ∧ after.head < after.tail ∧
      ring.length < line.length + (after.fixedSize - after.tail) := by
  have valid := lines.valid
  have shape := valid.length_cases
  have tailLt := valid.tailLt
  by_contra less
  apply unready
  refine ⟨?_, ?_, ?_⟩
  · intro overrun
    simp [consumeLine, overrun] at result
  · intro absent wrapped short
    by_contra long
    have consumable := Valid.consumable_of_wrapped wrapped
    have available := valid.consumable_le
    rw [lines.consumeLine_short absent (by omega), if_neg long] at result
    cases result
    apply less
    refine Or.inr ⟨valid.retail (by omega), Nat.lt_of_not_le long, ?_⟩
    change ring.length < _ + (ring.fixedSize - lineSize.toNat)
    rw [List.length_take, length_content]
    omega
  · intro absent wrapped atStart long
    rw [Bool.eq_false_iff]
    intro stale
    obtain ⟨taken, rest, same, longer⟩ :=
      lines.consumeLine_stale wrapped absent atStart long stale
    cases same.symm.trans result
    exact less (Or.inl longer)

/-- In a state that is not ready it does not. -/
theorem ready_of_takesLine (lines : Lines ring) (taken : TakesLine ring lineSize) :
    LineReady ring lineSize := by
  obtain ⟨line, after, result, _, split, _, _⟩ := taken
  have total := congrArg List.length split
  rw [List.length_append, length_content, length_content] at total
  by_contra unready
  rcases lines.takes_more result unready with more | ⟨valid, wrapped, more⟩
  · omega
  · have shape := valid.length_cases
    omega

end Lines

/-! ## Runs -/

/-- The operations of a log buffer. -/
inductive LineOp where
  | write (items : List UInt8)
  | consume
  | consumeBlock
  | consumeBlockInto (blockSize : UInt16)
  | consumeLine (lineSize : UInt16)
  deriving DecidableEq

/-- One call that returns. -/
inductive LineStep : CircularBuffer UInt8 → LineOp → CircularBuffer UInt8 → Prop where
  | write {ring after : CircularBuffer UInt8} {items : List UInt8} :
      Storable items → ring.write items = some after →
      LineStep ring (.write items) after
  | consume (ring : CircularBuffer UInt8) : LineStep ring .consume ring.consume.2
  | consumeBlock (ring : CircularBuffer UInt8) :
      LineStep ring .consumeBlock ring.consumeBlock.2
  | consumeBlockInto (ring : CircularBuffer UInt8) (blockSize : UInt16) :
      LineStep ring (.consumeBlockInto blockSize) (ring.consumeBlockInto blockSize).2
  | consumeLine {ring after : CircularBuffer UInt8} {lineSize : UInt16}
      {line : List UInt8} : 1 ≤ lineSize.toNat →
      ring.consumeLine lineSize = some (line, after) →
      LineStep ring (.consumeLine lineSize) after

/-- Lines are only taken in states that are ready for them. -/
def ReadyFor (ring : CircularBuffer UInt8) : LineOp → Prop
  | .consumeLine lineSize => LineReady ring lineSize
  | _ => True

/-- Each call keeps the invariant of the cells. -/
theorem Lines.step {ring after : CircularBuffer UInt8} {op : LineOp} (lines : Lines ring)
    (step : Guarded ReadyFor LineStep ring op after) : Lines after := by
  have valid := lines.valid
  obtain ⟨ready, step⟩ := step
  cases step with
  | write storable done => exact lines.write storable done
  | consume =>
      rw [consume_eq valid]
      split
      · exact lines
      · rename_i some
        have positive := List.length_pos_iff.mpr some
        rw [length_content] at positive
        exact lines.advance positive
  | consumeBlock =>
      rw [consumeBlock_eq valid]
      exact lines.advance valid.consumable_le
  | consumeBlockInto blockSize =>
      rw [consumeBlockInto_eq valid]
      exact lines.advance (Nat.le_trans (Nat.min_le_right ..) valid.consumable_le)
  | consumeLine positive result =>
      obtain ⟨count, taken⟩ := lines.takesPrefix_of_ready positive ready
      rw [taken.result] at result
      cases result
      exact lines.advance taken.available

/-- After any run from a fresh buffer in which every line was taken in a ready state,
`consume_line` takes exactly one line exactly in the ready states. -/
theorem takesLine_iff_ready {size : Nat} {cells : List UInt8} {ops : List LineOp}
    {ring : CircularBuffer UInt8} (twoLe : 2 ≤ size) (small : size < 2 ^ 16)
    (room : cells.length = size + 1)
    (run : Run (Guarded ReadyFor LineStep) (new cells size) ops ring)
    {lineSize : UInt16} (positive : 1 ≤ lineSize.toNat) :
    TakesLine ring lineSize ↔ LineReady ring lineSize := by
  have lines : Lines ring :=
    run.invariant (fun lines step => lines.step step) (new_lines twoLe small room)
  constructor
  · exact lines.ready_of_takesLine
  · intro ready
    obtain ⟨count, taken⟩ := lines.takesPrefix_of_ready positive ready
    exact taken.takesLine lines.valid

/-- From a buffer that holds `a`, `\n` and `b`, a line is taken. -/
theorem takesLine_iff_ready_short :
    TakesLine { new [97, 10, 98, 0, 0, 0, 0] 6 with head := 3 } 5 := by
  have text : Storable ([97, 10, 98] : List UInt8) := ⟨by decide, by simp [endItem], by decide⟩
  have run : Run (Guarded ReadyFor LineStep) (new [0, 0, 0, 0, 0, 0, 0] 6)
      [.write [97, 10, 98]] { new [97, 10, 98, 0, 0, 0, 0] 6 with head := 3 } :=
    .cons ⟨trivial, .write text rfl⟩ (.nil _)
  exact (takesLine_iff_ready (by decide) (by decide) rfl run (by decide)).mpr
    ⟨by decide, by decide, by decide⟩

/-- Six letters around the end of a ring for ten, of which one is behind the turn: a
line of three leaves the tail at 3, in front of letters consumed before. -/
theorem consumeLine_revives :
    Run LineStep (new (List.replicate 11 0) 10)
      [.write [97, 98, 99, 100, 101], .consumeBlock, .write [102, 103, 104, 105, 106, 107]]
      { new [107, 0, 99, 100, 101, 102, 103, 104, 105, 106, 0] 10 with
        head := 1
        tail := 5 } ∧
    ¬ TakesLine
      { new [107, 0, 99, 100, 101, 102, 103, 104, 105, 106, 0] 10 with
        head := 1
        tail := 5 } 3 := by
  constructor
  · have first : Storable ([97, 98, 99, 100, 101] : List UInt8) :=
      ⟨by decide, by simp [endItem], by decide⟩
    have second : Storable ([102, 103, 104, 105, 106, 107] : List UInt8) :=
      ⟨by decide, by simp [endItem], by decide⟩
    exact .cons (.write first (first.write_eq _)) (.cons (.consumeBlock _)
      (.cons (.write second (second.write_eq _)) (.nil _)))
  · rintro ⟨line, after, result, _, split, _⟩
    cases result
    revert split
    decide

end BleRepeater.CircularBuffer
