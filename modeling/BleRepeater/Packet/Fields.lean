import BleRepeater.Packet.Binary

/-!
# Fields

Fields of all kinds, written one after the other and read back in the same order.  Every
read consumes what the write has appended, and all but one restore the value:
`write_uint32` takes its argument as a `uint16_t`, and drops the upper half of it.
-/

namespace BleRepeater

open BinaryWriter BinaryReader

/-- What `BinaryWriter` can write and `BinaryReader` can read. -/
inductive Field where
  | uint8 (value : UInt8)
  | uint16 (value : UInt16)
  | uint32 (value : UInt32)
  | uint64 (value : UInt64)
  | data (bytes : Bytes)
  deriving DecidableEq

namespace Field

/-- The number of bytes that a field takes. -/
def size : Field → Nat
  | uint8 _ => 1
  | uint16 _ => 2
  | uint32 _ => 4
  | uint64 _ => 8
  | data bytes => bytes.length

/-- The size of fields in a row. -/
def totalSize (fields : List Field) : Nat :=
  (fields.map size).sum

/-- Write a field.  The call converts the argument of `write_uint32` to its parameter
type. -/
def write (vector : Bytes) : Field → Bytes
  | uint8 value => writeUint8 vector value
  | uint16 value => writeUint16 vector value
  | uint32 value => writeUint32 vector value.toUInt16
  | uint64 value => writeUint64 vector value
  | data bytes => writeData vector bytes (UInt16.ofNat bytes.length)

/-- Read a field of the same kind, and of the same length; `none` is the `nullptr` of
`read_data`. -/
def read : Field → StateM BinaryReader (Option Field)
  | uint8 _ => (fun value => some (uint8 value)) <$> readUint8
  | uint16 _ => (fun value => some (uint16 value)) <$> readUint16
  | uint32 _ => (fun value => some (uint32 value)) <$> readUint32
  | uint64 _ => (fun value => some (uint64 value)) <$> readUint64
  | data bytes => (Option.map data) <$> readData (UInt16.ofNat bytes.length)

/-- Write the fields in order. -/
def writeAll (vector : Bytes) (fields : List Field) : Bytes :=
  fields.foldl write vector

/-- Read the fields in order. -/
def readAll : List Field → StateM BinaryReader (List (Option Field))
  | [] => pure []
  | field :: fields => do
      let first ← field.read
      let rest ← readAll fields
      return first :: rest

/-- What comes back of a field. -/
def restored : Field → Field
  | uint32 value => uint32 value.toUInt16.toUInt32
  | field => field

/-! ## One field -/

theorem write_eq_append (vector : Bytes) (field : Field) :
    field.write vector = vector ++ field.write [] := by
  cases field <;> simp [write, writeUint8, writeUint16, writeUint32, writeUint64, writeData]

theorem length_write (field : Field) (short : field.size < 2 ^ 16) :
    (field.write []).length = field.size := by
  cases field with
  | data bytes =>
      have whole : (UInt16.ofNat bytes.length).toNat = bytes.length :=
        Nat.mod_eq_of_lt short
      rw [write, writeData, List.nil_append, List.length_take, whole, Nat.min_self, size]
  | _ => simp [write, writeUint8, writeUint16, writeUint32, writeUint64, size]

/-- The four bytes of a `uint32_t` are read back, so what is lost is lost in the write. -/
theorem reads_uint32 (value : UInt16) :
    Reads readUint32 (writeUint32 [] value) value.toUInt32 := by
  refine Reads.guarded (by simp [writeUint32]) ?_
  intro reader before after at_
  have wide : (writeUint32 [] value).length = 4 := rfl
  rw [Reads.byteAt at_ 0 (by omega), Reads.byteAt at_ 1 (by omega),
    Reads.byteAt at_ 2 (by omega), Reads.byteAt at_ 3 (by omega)]
  simpa [writeUint32] using BigEndian.join32 value.toUInt32

/-- A read consumes what the write has appended. -/
theorem reads_write (field : Field) (short : field.size < 2 ^ 16) :
    Reads field.read (field.write []) (some field.restored) := by
  cases field with
  | uint8 value => exact (Reads.uint8 value).map fun value => some (Field.uint8 value)
  | uint16 value => exact (Reads.uint16 value).map fun value => some (Field.uint16 value)
  | uint32 value =>
      exact (reads_uint32 value.toUInt16).map fun value => some (Field.uint32 value)
  | uint64 value => exact (Reads.uint64 value).map fun value => some (Field.uint64 value)
  | data bytes =>
      have whole : (UInt16.ofNat bytes.length).toNat = bytes.length :=
        Nat.mod_eq_of_lt short
      have written : (Field.data bytes).write [] = bytes := by
        simp [write, writeData, whole]
      rw [written]
      exact (Reads.data bytes _ whole.symm).map (Option.map Field.data)

/-- A field comes back as it was, unless it is a `uint32_t` of more than 16 bits. -/
theorem restored_eq_iff (field : Field) :
    field.restored = field ↔ ∀ value, field = uint32 value → value.toNat < 2 ^ 16 := by
  cases field with
  | uint32 value =>
      simp only [restored, uint32.injEq, forall_eq']
      rw [← UInt32.toNat_inj, UInt16.toNat_toUInt32, UInt32.toNat_toUInt16]
      exact ⟨fun same => by omega, Nat.mod_eq_of_lt⟩
  | _ => simp [restored]

/-! ## Fields in a row -/

theorem writeAll_cons (vector : Bytes) (field : Field) (fields : List Field) :
    writeAll vector (field :: fields) = writeAll (field.write vector) fields := rfl

theorem writeAll_eq_append (vector : Bytes) (fields : List Field) :
    writeAll vector fields = vector ++ writeAll [] fields := by
  induction fields generalizing vector with
  | nil => simp [writeAll]
  | cons field fields ih =>
      rw [writeAll_cons, writeAll_cons, ih, ih (field.write []), write_eq_append,
        List.append_assoc]

theorem length_writeAll (fields : List Field) (short : totalSize fields < 2 ^ 16) :
    (writeAll [] fields).length = totalSize fields := by
  induction fields with
  | nil => rfl
  | cons field fields ih =>
      simp only [totalSize, List.map_cons, List.sum_cons] at short ih ⊢
      rw [writeAll_cons, writeAll_eq_append, List.length_append,
        length_write field (by omega), ih (by omega)]

theorem reads_writeAll (fields : List Field) (short : totalSize fields < 2 ^ 16) :
    Reads (readAll fields) (writeAll [] fields)
      (fields.map fun field => some field.restored) := by
  induction fields with
  | nil => exact Reads.pure []
  | cons field fields ih =>
      simp only [totalSize, List.map_cons, List.sum_cons] at short ih
      rw [writeAll_cons, writeAll_eq_append]
      exact (field.reads_write (by omega)).bind
        ((ih (by omega)).map fun rest => some field.restored :: rest)

/-- The buffer that writing the fields makes. -/
def writtenBuffer (fields : List Field) (short : totalSize fields ≤ 65535) : Buffer :=
  ⟨writeAll [] fields, by rw [length_writeAll fields (by omega)]; omega⟩

/-- Reading the fields back yields the same values, and ends at the end of the buffer. -/
def ReadBack (fields : List Field) (short : totalSize fields ≤ 65535) : Prop :=
  (readAll fields (BinaryReader.new 0 (writtenBuffer fields short))).1 = fields.map some ∧
    (readAll fields (BinaryReader.new 0 (writtenBuffer fields short))).2.pos.toNat =
      (writtenBuffer fields short).bytes.length

/-- Fields of at most 65535 bytes are read back as they were written exactly when none of
them is a `uint32_t` of more than 16 bits. -/
theorem readBack_iff (fields : List Field) (short : totalSize fields ≤ 65535) :
    ReadBack fields short ↔ ∀ value, uint32 value ∈ fields → value.toNat < 2 ^ 16 := by
  have start : (BinaryReader.new 0 (writtenBuffer fields short)).At []
      (writeAll [] fields) [] := ⟨by simp [BinaryReader.new, writtenBuffer], rfl⟩
  have reads := reads_writeAll fields (by omega) _ [] [] start
  have ends : ((BinaryReader.new 0 (writtenBuffer fields short)).skip
      (writeAll [] fields).length).pos.toNat = (writtenBuffer fields short).bytes.length :=
    start.skip_position
  rw [ReadBack, reads, and_iff_left ends, List.map_inj_left]
  simp only [Option.some.injEq, restored_eq_iff]
  exact ⟨fun each value member => each _ member value rfl,
    fun small field member value same => small value (same ▸ member)⟩

/-- One field of every kind. -/
theorem readBack_iff_kinds :
    ReadBack [uint8 200, uint16 40000, uint32 65535, uint64 (2 ^ 63), data [1, 2, 3]]
      (by decide) :=
  (readBack_iff _ _).mpr (by simp)

/-- The upper half of a `uint32_t` does not come back. -/
theorem uint32_narrowed : ¬ ∀ fields short, ReadBack fields short := by
  intro always
  have same := (always [uint32 65536] (by decide)).1
  revert same
  decide

end Field

end BleRepeater
