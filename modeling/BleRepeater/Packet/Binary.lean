import BleRepeater.Library.BigEndian

/-!
# BinaryWriter and BinaryReader

The byte-level codec below every packet.  A writer appends to a vector; a reader
walks a received buffer with a 16-bit position.  A read that does not fit
returns zero (or `nullptr`) and leaves the position where it was.

`Reads` says that a reading program consumes exactly some bytes and yields a
value, whatever surrounds those bytes; the layouts of the packets are composed
from its rules.
-/

namespace BleRepeater

namespace BinaryWriter

/-- `BinaryWriter::write_uint8`. -/
def writeUint8 (vector : Bytes) (value : UInt8) : Bytes :=
  vector ++ [value]

/-- `BinaryWriter::write_uint16`. -/
def writeUint16 (vector : Bytes) (value : UInt16) : Bytes :=
  vector ++ [(value >>> 8).toUInt8, value.toUInt8 &&& 0xFF]

/-- `BinaryWriter::write_uint32`.  The parameter really is a `uint16_t`; the
shifts work on it after the promotion to a 32-bit `int`. -/
def writeUint32 (vector : Bytes) (value : UInt16) : Bytes :=
  vector ++
    [(value.toUInt32 >>> 24).toUInt8 &&& 0xFF,
     (value.toUInt32 >>> 16).toUInt8 &&& 0xFF,
     (value.toUInt32 >>> 8).toUInt8 &&& 0xFF,
     value.toUInt8 &&& 0xFF]

/-- `BinaryWriter::write_uint64`. -/
def writeUint64 (vector : Bytes) (value : UInt64) : Bytes :=
  vector ++
    [(value >>> 56).toUInt8,
     (value >>> 48).toUInt8 &&& 0xFF,
     (value >>> 40).toUInt8 &&& 0xFF,
     (value >>> 32).toUInt8 &&& 0xFF,
     (value >>> 24).toUInt8 &&& 0xFF,
     (value >>> 16).toUInt8 &&& 0xFF,
     (value >>> 8).toUInt8 &&& 0xFF,
     value.toUInt8 &&& 0xFF]

/-- `BinaryWriter::write_data`, both overloads: the first `len` bytes. -/
def writeData (vector data : Bytes) (len : UInt16) : Bytes :=
  vector ++ data.take len.toNat

/-- `BinaryWriter::hexify`. -/
def hexify (nibble : UInt8) : UInt8 :=
  if nibble < 10 then nibble + 48 else nibble + (97 - 10)

/-- `BinaryWriter::write_uint8_hex16`. -/
def writeUint8Hex16 (vector : Bytes) (value : UInt8) : Bytes :=
  vector ++ [hexify (value >>> 4 &&& 0xF)] ++ [hexify (value &&& 0xF)]

/-- `BinaryWriter::write_uint16_hex16`. -/
def writeUint16Hex16 (vector : Bytes) (value : UInt16) : Bytes :=
  writeUint8Hex16 (writeUint8Hex16 vector (value >>> 8).toUInt8) value.toUInt8

/-- The eight bytes `writeUint64` appends. -/
theorem writeUint64_eq_append (vector : Bytes) (value : UInt64) :
    writeUint64 vector value = vector ++ writeUint64 [] value := by
  simp [writeUint64]

theorem writeUint16_eq_append (vector : Bytes) (value : UInt16) :
    writeUint16 vector value = vector ++ writeUint16 [] value := by
  simp [writeUint16]

@[simp] theorem length_writeUint16 (value : UInt16) :
    (writeUint16 [] value).length = 2 := rfl

@[simp] theorem length_writeUint64 (value : UInt64) :
    (writeUint64 [] value).length = 8 := rfl

end BinaryWriter

/-- A received buffer.  Its size travels as a `uint16_t`. -/
structure Buffer where
  bytes : Bytes
  bounded : bytes.length < 2 ^ 16
  deriving DecidableEq

/-- `BinaryReader`: the buffer and the current position. -/
structure BinaryReader where
  buffer : Buffer
  pos : UInt16
  deriving DecidableEq

namespace BinaryReader

/-- The constructor starts reading at `offset`. -/
def new (offset : UInt16) (buffer : Buffer) : BinaryReader :=
  ⟨buffer, offset⟩

/-- `buffer_size`. -/
def bufferSize (reader : BinaryReader) : UInt16 :=
  UInt16.ofNat reader.buffer.bytes.length

/-- `buffer[pos + index]`, read only after the size test. -/
def byteAt (reader : BinaryReader) (index : Nat) : UInt8 :=
  reader.buffer.bytes.getD (reader.pos.toNat + index) 0

/-- `pos += count`. -/
def skip (reader : BinaryReader) (count : Nat) : BinaryReader :=
  { reader with pos := reader.pos + UInt16.ofNat count }

/-- The shape of every read: when `width` bytes do not fit, return `missing`
without moving, else return `value` and move past them.  The comparison is made
on promoted `int`s, so it does not wrap. -/
def guarded {α : Type} (width : Nat) (missing : α) (value : BinaryReader → α) :
    StateM BinaryReader α := fun reader =>
  if reader.pos.toNat + width > reader.bufferSize.toNat then
    (missing, reader)
  else
    (value reader, reader.skip width)

/-- `BinaryReader::read_uint8`. -/
def readUint8 : StateM BinaryReader UInt8 :=
  guarded 1 0 fun reader => reader.byteAt 0

/-- `BinaryReader::read_uint16`. -/
def readUint16 : StateM BinaryReader UInt16 :=
  guarded 2 0 fun reader =>
    (reader.byteAt 0).toUInt16 <<< 8 ||| (reader.byteAt 1).toUInt16

/-- `BinaryReader::read_uint32`. -/
def readUint32 : StateM BinaryReader UInt32 :=
  guarded 4 0 fun reader =>
    ((reader.byteAt 0).toUInt64 <<< 24 |||
      (reader.byteAt 1).toUInt64 <<< 16 |||
      (reader.byteAt 2).toUInt64 <<< 8 |||
      (reader.byteAt 3).toUInt64).toUInt32

/-- `BinaryReader::read_uint64`. -/
def readUint64 : StateM BinaryReader UInt64 :=
  guarded 8 0 fun reader =>
    (reader.byteAt 0).toUInt64 <<< 56 |||
      (reader.byteAt 1).toUInt64 <<< 48 |||
      (reader.byteAt 2).toUInt64 <<< 40 |||
      (reader.byteAt 3).toUInt64 <<< 32 |||
      (reader.byteAt 4).toUInt64 <<< 24 |||
      (reader.byteAt 5).toUInt64 <<< 16 |||
      (reader.byteAt 6).toUInt64 <<< 8 |||
      (reader.byteAt 7).toUInt64

/-- `BinaryReader::read_remainder_len`. -/
def readRemainderLen : StateM BinaryReader UInt16 := fun reader =>
  (reader.bufferSize - reader.pos, reader)

/-- `BinaryReader::read_data`: `none` is `nullptr`, otherwise the `len` bytes the
returned pointer and the caller's length delimit. -/
def readData (len : UInt16) : StateM BinaryReader (Option Bytes) :=
  guarded len.toNat none fun reader =>
    some ((reader.buffer.bytes.drop reader.pos.toNat).take len.toNat)

@[simp] theorem bufferSize_toNat (reader : BinaryReader) :
    reader.bufferSize.toNat = reader.buffer.bytes.length := by
  simpa [bufferSize] using Nat.mod_eq_of_lt reader.buffer.bounded

@[simp] theorem skip_buffer (reader : BinaryReader) (count : Nat) :
    (reader.skip count).buffer = reader.buffer := rfl

/-- The position `reader` stands at, with `bytes` ahead of it. -/
structure At (reader : BinaryReader) (before bytes after : Bytes) : Prop where
  split : reader.buffer.bytes = before ++ bytes ++ after
  position : reader.pos.toNat = before.length

/-- Skipping bytes that are ahead moves them behind the position; the 16-bit
position cannot wrap because the buffer is bounded. -/
theorem At.skip {reader : BinaryReader} {before first second after : Bytes}
    (at_ : reader.At before (first ++ second) after) :
    (reader.skip first.length).At (before ++ first) second after := by
  have bounded := reader.buffer.bounded
  have split := at_.split
  have total := congrArg List.length split
  simp only [List.length_append] at total
  refine ⟨by simpa using split, ?_⟩
  simp only [BinaryReader.skip, UInt16.toNat_add, UInt16.toNat_ofNat',
    at_.position, List.length_append]
  omega

@[simp] theorem skip_zero (reader : BinaryReader) : reader.skip 0 = reader := by
  simp [skip]

theorem skip_skip (reader : BinaryReader) (first second : Nat) :
    (reader.skip first).skip second = reader.skip (first + second) := by
  simp [skip, UInt16.add_assoc]

/-- Skipping everything ahead ends right behind it. -/
theorem At.skip_position {reader : BinaryReader} {before bytes after : Bytes}
    (at_ : reader.At before bytes after) :
    (reader.skip bytes.length).pos.toNat = (before ++ bytes).length := by
  have padded : reader.At before (bytes ++ []) after :=
    ⟨by simpa using at_.split, at_.position⟩
  exact padded.skip.position

/-- `read` consumes exactly `bytes` and yields `value`, whatever lies before and
after them in the buffer. -/
def Reads {α : Type} (read : StateM BinaryReader α) (bytes : Bytes)
    (value : α) : Prop :=
  ∀ (reader : BinaryReader) (before after : Bytes),
    reader.At before bytes after → read reader = (value, reader.skip bytes.length)

namespace Reads

variable {α β : Type}

theorem pure (value : α) : Reads (Pure.pure value) [] value := by
  intro reader before after _
  change (value, reader) = (value, reader.skip 0)
  rw [skip_zero]

/-- What follows a read goes on behind the bytes that were read. -/
theorem bind_apply {read : StateM BinaryReader α} {bytes before after : Bytes} {value : α}
    (reads : Reads read bytes value) (next : α → StateM BinaryReader β)
    {reader : BinaryReader} (at_ : reader.At before bytes after) :
    (read >>= next) reader = next value (reader.skip bytes.length) := by
  change next (read reader).1 (read reader).2 = _
  rw [reads reader before after at_]

/-- Consecutive reads consume consecutive bytes. -/
theorem bind {read : StateM BinaryReader α} {next : α → StateM BinaryReader β}
    {first second : Bytes} {middle : α} {value : β}
    (reads : Reads read first middle) (continues : Reads (next middle) second value) :
    Reads (read >>= next) (first ++ second) value := by
  intro reader before after at_
  have start : reader.At before first (second ++ after) :=
    ⟨by simpa using at_.split, at_.position⟩
  rw [reads.bind_apply next start, continues _ _ after at_.skip, skip_skip,
    List.length_append]

theorem map {read : StateM BinaryReader α} {bytes : Bytes} {value : α}
    (change : α → β) (reads : Reads read bytes value) :
    Reads (change <$> read) bytes (change value) := by
  intro reader before after at_
  change (change (read reader).1, (read reader).2) = _
  rw [reads reader before after at_]

/-- A guarded read whose width is that of the bytes ahead passes its test. -/
theorem guarded {width : Nat} {missing value : α}
    {compute : BinaryReader → α} {bytes : Bytes} (wide : bytes.length = width)
    (computes : ∀ reader before after, BinaryReader.At reader before bytes after →
      compute reader = value) :
    Reads (BinaryReader.guarded width missing compute) bytes value := by
  intro reader before after at_
  have total := congrArg List.length at_.split
  have fits : ¬ reader.pos.toNat + width > reader.bufferSize.toNat := by
    simp only [bufferSize_toNat, at_.position, total, List.length_append]
    omega
  simp only [BinaryReader.guarded, if_neg fits, wide]
  rw [computes reader before after at_]

/-- The bytes ahead are the ones `byteAt` finds. -/
theorem byteAt {reader : BinaryReader} {before bytes after : Bytes}
    (at_ : reader.At before bytes after) (index : Nat)
    (inside : index < bytes.length) :
    reader.byteAt index = bytes[index] := by
  have selected : (before ++ bytes ++ after)[before.length + index]? =
      some bytes[index] := by
    rw [List.append_assoc, List.getElem?_append_right (by omega),
      Nat.add_sub_cancel_left, List.getElem?_append_left inside,
      List.getElem?_eq_getElem inside]
  simp only [BinaryReader.byteAt, at_.position, at_.split,
    List.getD_eq_getElem?_getD, selected, Option.getD_some]

theorem uint8 (value : UInt8) : Reads readUint8 [value] value := by
  refine guarded rfl ?_
  intro reader before after at_
  simpa using byteAt at_ 0 (by simp)

theorem uint16 (value : UInt16) :
    Reads readUint16 (BinaryWriter.writeUint16 [] value) value := by
  refine guarded (by simp) ?_
  intro reader before after at_
  rw [byteAt at_ 0 (by simp), byteAt at_ 1 (by simp)]
  simpa [BinaryWriter.writeUint16] using BigEndian.join16 value

theorem uint64 (value : UInt64) :
    Reads readUint64 (BinaryWriter.writeUint64 [] value) value := by
  refine guarded (by simp) ?_
  intro reader before after at_
  rw [byteAt at_ 0 (by simp), byteAt at_ 1 (by simp),
    byteAt at_ 2 (by simp), byteAt at_ 3 (by simp),
    byteAt at_ 4 (by simp), byteAt at_ 5 (by simp),
    byteAt at_ 6 (by simp), byteAt at_ 7 (by simp)]
  simpa [BinaryWriter.writeUint64] using BigEndian.join64 value

theorem data (bytes : Bytes) (len : UInt16) (wide : bytes.length = len.toNat) :
    Reads (readData len) bytes (some bytes) := by
  refine guarded wide ?_
  intro reader before after at_
  simp [at_.split, at_.position, ← wide]

end Reads

/-- What follows a read goes on where it ends. -/
theorem bind_eq {α β : Type} (read : StateM BinaryReader α)
    (next : α → StateM BinaryReader β) (reader : BinaryReader) :
    (read >>= next) reader = next (read reader).1 (read reader).2 := rfl

/-- A choice between reads ends where the chosen one ends. -/
theorem choice_snd {α : Type} (flag : Bool) (read other : StateM BinaryReader α)
    (reader : BinaryReader) :
    ((if flag then read else other) reader).2 =
      if flag then (read reader).2 else (other reader).2 := by
  cases flag <;> rfl

/-- What is computed from a read does not move the reader. -/
theorem bind_pure_snd {α β : Type} (read : StateM BinaryReader α) (value : α → β)
    (reader : BinaryReader) :
    ((read >>= fun found => pure (value found)) reader).2 = (read reader).2 := rfl

/-! ## Reading near the end -/

/-- Where the reader stands after a read that may not fit. -/
def advance (width place size : Nat) : Nat :=
  if place + width ≤ size then place + width else place

theorem guarded_snd {α : Type} (width : Nat) (missing : α) (value : BinaryReader → α)
    (reader : BinaryReader) :
    (guarded width missing value reader).2.buffer = reader.buffer ∧
      (guarded width missing value reader).2.pos.toNat =
        advance width reader.pos.toNat reader.buffer.bytes.length := by
  have bounded := reader.buffer.bounded
  unfold guarded advance
  rw [bufferSize_toNat]
  split
  · rw [if_neg (by omega)]
    exact ⟨rfl, rfl⟩
  · rw [if_pos (by omega)]
    refine ⟨rfl, ?_⟩
    simp only [BinaryReader.skip, UInt16.toNat_add, UInt16.toNat_ofNat']
    omega

theorem readUint8_inside {reader : BinaryReader}
    (inside : reader.pos.toNat < reader.buffer.bytes.length) :
    readUint8 reader = (reader.byteAt 0, reader.skip 1) := by
  rw [readUint8, guarded, if_neg]
  rw [bufferSize_toNat]
  omega

theorem readUint8_outside {reader : BinaryReader}
    (outside : reader.buffer.bytes.length ≤ reader.pos.toNat) :
    readUint8 reader = (0, reader) := by
  rw [readUint8, guarded, if_pos]
  rw [bufferSize_toNat]
  omega

/-- Whether or not there is a byte, `readUint8` yields what lies at the position. -/
theorem readUint8_value (reader : BinaryReader) :
    (readUint8 reader).1 = reader.buffer.bytes.getD reader.pos.toNat 0 := by
  by_cases inside : reader.pos.toNat < reader.buffer.bytes.length
  · rw [readUint8_inside inside]
    rfl
  · have outside := Nat.le_of_not_lt inside
    rw [readUint8_outside outside]
    simp [List.getD_eq_getElem?_getD, outside]

/-- A byte other than zero has been read from the buffer. -/
theorem readUint8_of_ne {reader : BinaryReader} (nonzero : (readUint8 reader).1 ≠ 0) :
    (readUint8 reader).2.buffer = reader.buffer ∧
      (readUint8 reader).2.pos.toNat = reader.pos.toNat + 1 := by
  by_cases inside : reader.pos.toNat < reader.buffer.bytes.length
  · have bounded := reader.buffer.bounded
    rw [readUint8_inside inside]
    refine ⟨rfl, ?_⟩
    simp only [BinaryReader.skip, UInt16.toNat_add, UInt16.toNat_ofNat']
    omega
  · rw [readUint8_outside (Nat.le_of_not_lt inside)] at nonzero
    exact absurd rfl nonzero

/-- Whatever lies in the buffer, what is read has a property. -/
def Yields {α : Type} (read : StateM BinaryReader α) (property : α → Prop) : Prop :=
  ∀ reader, property (read reader).1

namespace Yields

variable {α β : Type} {property : β → Prop}

theorem pure {value : β} (holds : property value) :
    Yields (Pure.pure value : StateM BinaryReader β) property :=
  fun _ => holds

theorem bind_of {middle : α → Prop} {read : StateM BinaryReader α}
    {next : α → StateM BinaryReader β} (first : Yields read middle)
    (continues : ∀ value, middle value → Yields (next value) property) :
    Yields (read >>= next) property :=
  fun reader => continues (read reader).1 (first reader) (read reader).2

theorem bind {read : StateM BinaryReader α} {next : α → StateM BinaryReader β}
    (continues : ∀ value, Yields (next value) property) : Yields (read >>= next) property :=
  fun reader => continues (read reader).1 (read reader).2

/-- What is read from one position, when the first read fixes what the rest yields. -/
theorem first (middle : α → Prop) (property : β → Prop) {read : StateM BinaryReader α}
    {next : α → StateM BinaryReader β} {reader : BinaryReader}
    (holds : middle (read reader).1)
    (continues : ∀ value, middle value → Yields (next value) property) :
    property ((read >>= next) reader).1 :=
  continues (read reader).1 holds (read reader).2

end Yields

/-- As `Reads`, when the bytes are the last ones of the buffer. -/
def ReadsLast {α : Type} (read : StateM BinaryReader α) (bytes : Bytes)
    (value : α) : Prop :=
  ∀ (reader : BinaryReader) (before : Bytes),
    reader.At before bytes [] → read reader = (value, reader.skip bytes.length)

namespace ReadsLast

variable {α β : Type}

theorem of_reads {read : StateM BinaryReader α} {bytes : Bytes} {value : α}
    (reads : Reads read bytes value) : ReadsLast read bytes value :=
  fun reader before => reads reader before []

/-- The last of consecutive reads consumes the last bytes. -/
theorem bind {read : StateM BinaryReader α} {next : α → StateM BinaryReader β}
    {first second : Bytes} {middle : α} {value : β}
    (reads : Reads read first middle) (continues : ReadsLast (next middle) second value) :
    ReadsLast (read >>= next) (first ++ second) value := by
  intro reader before at_
  have start : reader.At before first (second ++ []) :=
    ⟨by simpa using at_.split, at_.position⟩
  rw [reads.bind_apply next start, continues _ _ at_.skip, skip_skip, List.length_append]

/-- Nothing is read where nothing is left. -/
theorem missing {width : Nat} {missing : α} {value : BinaryReader → α} (wide : 0 < width) :
    ReadsLast (BinaryReader.guarded width missing value) [] missing := by
  intro reader before at_
  have total := congrArg List.length at_.split
  rw [BinaryReader.guarded, if_pos]
  · simp
  · simp only [bufferSize_toNat, at_.position, total, List.append_nil]
    omega

theorem uint8 : ReadsLast readUint8 [] 0 :=
  missing (by decide)

theorem map {read : StateM BinaryReader α} {bytes : Bytes} {value : α} (change : α → β)
    (reads : ReadsLast read bytes value) : ReadsLast (change <$> read) bytes (change value) := by
  intro reader before at_
  change (change (read reader).1, (read reader).2) = _
  rw [reads reader before at_]

/-- What follows a read of nothing reads on from the end. -/
theorem bind_nil {read : StateM BinaryReader α} {next : α → StateM BinaryReader β}
    {middle : α} {value : β} (reads : ReadsLast read [] middle)
    (continues : ReadsLast (next middle) [] value) :
    ReadsLast (read >>= next) [] value := by
  intro reader before at_
  have first := reads reader before at_
  rw [List.length_nil, skip_zero] at first
  change next (read reader).1 (read reader).2 = _
  rw [first]
  exact continues reader before at_

end ReadsLast

end BinaryReader

end BleRepeater
