import BleRepeater.Library.Run
import BleRepeater.Packet.Types

/-!
# Reading stays in the buffer

The calls of `BinaryReader` once more, now with every access to the buffer checked: an index
outside of it is a fault.  No call ever faults, from any position, so neither does a reader
constructor, which is made of calls.
-/

namespace BleRepeater.BinaryReader

open Transition

/-! ## Calls -/

/-- The calls of `BinaryReader`. -/
inductive Call where
  | readUint8
  | readUint16
  | readUint32
  | readUint64
  | readRemainderLen
  | readData (len : UInt16)

namespace Call

/-- What a call returns. -/
abbrev Result : Call → Type
  | readUint8 => UInt8
  | readUint16 => UInt16
  | readUint32 => UInt32
  | readUint64 => UInt64
  | readRemainderLen => UInt16
  | readData _ => Option Bytes

/-- What a call returns, and the reader after it. -/
def perform : (call : Call) → StateM BinaryReader call.Result
  | readUint8 => BinaryReader.readUint8
  | readUint16 => BinaryReader.readUint16
  | readUint32 => BinaryReader.readUint32
  | readUint64 => BinaryReader.readUint64
  | readRemainderLen => BinaryReader.readRemainderLen
  | readData len => BinaryReader.readData len

/-- How far a call moves the position when its bytes fit. -/
def width : Call → Nat
  | readUint8 => 1
  | readUint16 => 2
  | readUint32 => 4
  | readUint64 => 8
  | readRemainderLen => 0
  | readData len => len.toNat

/-- What a call returns when its bytes do not fit: zero, or `nullptr`.  The length of the
remainder is computed either way. -/
def missing (reader : BinaryReader) : (call : Call) → call.Result
  | readUint8 => 0
  | readUint16 => 0
  | readUint32 => 0
  | readUint64 => 0
  | readRemainderLen => reader.bufferSize - reader.pos
  | readData _ => none

/-- What a call makes of the bytes that it touches. -/
def value (reader : BinaryReader) : (call : Call) → Bytes → call.Result
  | readUint8, bytes => bytes.getD 0 0
  | readUint16, bytes => (bytes.getD 0 0).toUInt16 <<< 8 ||| (bytes.getD 1 0).toUInt16
  | readUint32, bytes =>
      ((bytes.getD 0 0).toUInt64 <<< 24 ||| (bytes.getD 1 0).toUInt64 <<< 16 |||
        (bytes.getD 2 0).toUInt64 <<< 8 ||| (bytes.getD 3 0).toUInt64).toUInt32
  | readUint64, bytes =>
      (bytes.getD 0 0).toUInt64 <<< 56 ||| (bytes.getD 1 0).toUInt64 <<< 48 |||
        (bytes.getD 2 0).toUInt64 <<< 40 ||| (bytes.getD 3 0).toUInt64 <<< 32 |||
        (bytes.getD 4 0).toUInt64 <<< 24 ||| (bytes.getD 5 0).toUInt64 <<< 16 |||
        (bytes.getD 6 0).toUInt64 <<< 8 ||| (bytes.getD 7 0).toUInt64
  | readRemainderLen, _ => reader.bufferSize - reader.pos
  | readData _, bytes => some bytes

end Call

/-- A call with its accesses checked: what it returns, the reader after it, and the indices
that it touches.  For `read_data` these are the ones that the returned pointer and the length
delimit. -/
structure Access (call : Call) where
  result : call.Result
  reader : BinaryReader
  touched : List Nat

/-- `buffer[index]`, unless that is outside of the buffer. -/
def load (reader : BinaryReader) (index : Nat) : Option UInt8 :=
  reader.buffer.bytes[index]?

/-- A call that faults when it touches an index outside of the buffer. -/
def Call.access (call : Call) (reader : BinaryReader) : Option (Access call) :=
  if reader.pos.toNat + call.width > reader.bufferSize.toNat then
    some ⟨call.missing reader, reader, []⟩
  else do
    let touched := List.range' reader.pos.toNat call.width
    let bytes ← touched.mapM reader.load
    return ⟨call.value reader bytes, reader.skip call.width, touched⟩

/-- A call does not fault and does what the model says.  Where its bytes fit, it touches only
indices from the position to the end of the buffer and moves the position by its width; where
they do not, it touches nothing, returns zero or `nullptr`, and does not move. -/
structure Call.StaysInside (call : Call) (reader : BinaryReader) : Prop where
  checked : ∃ access, call.access reader = some access ∧
    call.perform reader = (access.result, access.reader) ∧
    ∀ index ∈ access.touched, reader.pos.toNat ≤ index ∧ index < reader.buffer.bytes.length
  moves : reader.pos.toNat + call.width ≤ reader.buffer.bytes.length →
    (call.perform reader).2.pos.toNat = reader.pos.toNat + call.width
  fails : reader.buffer.bytes.length < reader.pos.toNat + call.width →
    call.perform reader = (call.missing reader, reader)

/-- What `read_data(read_remainder_len())` returns lies in the buffer: it is what is left of
it from the position on. -/
def RemainderInside (reader : BinaryReader) : Prop :=
  ∀ bytes after, (readRemainderLen >>= readData) reader = (some bytes, after) →
    reader.pos.toNat + bytes.length = reader.buffer.bytes.length ∧
      bytes = reader.buffer.bytes.drop reader.pos.toNat

variable {reader : BinaryReader}

/-- Loading indices inside the buffer, one after the other, yields that part of it. -/
theorem load_range {start count : Nat} (inside : start + count ≤ reader.buffer.bytes.length) :
    (List.range' start count).mapM reader.load =
      some ((reader.buffer.bytes.drop start).take count) := by
  induction count generalizing start with
  | zero => simp
  | succ count ih =>
      have room : start < reader.buffer.bytes.length := by omega
      have here : reader.load start = some reader.buffer.bytes[start] :=
        List.getElem?_eq_getElem room
      rw [List.range'_succ, List.mapM_cons, here, ih (by omega),
        List.drop_eq_getElem_cons room, List.take_succ_cons]
      rfl

/-- A byte among those ahead is the one that `byteAt` finds. -/
theorem getD_ahead {width index : Nat} (inside : index < width) :
    ((reader.buffer.bytes.drop reader.pos.toNat).take width).getD index 0 =
      reader.byteAt index := by
  simp only [byteAt, List.getD_eq_getElem?_getD, List.getElem?_take, if_pos inside,
    List.getElem?_drop]

theorem Call.perform_missing (call : Call)
    (outside : reader.buffer.bytes.length < reader.pos.toNat + call.width) :
    call.perform reader = (call.missing reader, reader) := by
  rw [← bufferSize_toNat] at outside
  cases call with
  | readRemainderLen => rfl
  | _ => exact if_pos outside

theorem Call.perform_fits (call : Call)
    (inside : reader.pos.toNat + call.width ≤ reader.buffer.bytes.length) :
    call.perform reader =
      (call.value reader ((reader.buffer.bytes.drop reader.pos.toNat).take call.width),
        reader.skip call.width) := by
  have fits : ¬ reader.pos.toNat + call.width > reader.bufferSize.toNat := by
    rw [bufferSize_toNat]
    omega
  cases call with
  | readRemainderLen =>
      change (reader.bufferSize - reader.pos, reader) = (_, reader.skip 0)
      rw [skip_zero]
      rfl
  | readData len => exact if_neg fits
  | _ =>
      refine (if_neg fits).trans (Prod.ext ?_ rfl)
      simp only [value, width]
      repeat rw [getD_ahead (by omega)]

theorem Call.access_eq (call : Call) (reader : BinaryReader) :
    ∃ touched, call.access reader =
        some ⟨(call.perform reader).1, (call.perform reader).2, touched⟩ ∧
      ∀ index ∈ touched, reader.pos.toNat ≤ index ∧ index < reader.buffer.bytes.length := by
  by_cases inside : reader.pos.toNat + call.width ≤ reader.buffer.bytes.length
  · refine ⟨List.range' reader.pos.toNat call.width, ?_, ?_⟩
    · rw [access, if_neg (by rw [bufferSize_toNat]; omega)]
      dsimp only
      rw [load_range inside, call.perform_fits inside]
      rfl
    · intro index member
      rw [List.mem_range'_1] at member
      omega
  · refine ⟨[], ?_, by simp⟩
    rw [access, if_pos (by rw [bufferSize_toNat]; omega), call.perform_missing (by omega)]

theorem Call.staysInside (call : Call) (reader : BinaryReader) : call.StaysInside reader where
  checked := by
    obtain ⟨touched, accessed, inside⟩ := call.access_eq reader
    exact ⟨_, accessed, rfl, inside⟩
  moves := by
    intro inside
    have bounded := reader.buffer.bounded
    rw [call.perform_fits inside]
    simp only [skip, UInt16.toNat_add, UInt16.toNat_ofNat']
    omega
  fails := call.perform_missing

theorem remainderInside (reader : BinaryReader) : reader.RemainderInside := by
  intro bytes after read
  have bounded := reader.buffer.bounded
  have position := reader.pos.toNat_lt
  change readData (reader.bufferSize - reader.pos) reader = (some bytes, after) at read
  by_cases inside : reader.pos.toNat + (reader.bufferSize - reader.pos).toNat ≤
      reader.buffer.bytes.length
  · have found := (Call.readData (reader.bufferSize - reader.pos)).perform_fits inside
    have same : some bytes = some ((reader.buffer.bytes.drop reader.pos.toNat).take
        (reader.bufferSize - reader.pos).toNat) :=
      congrArg Prod.fst (read.symm.trans found)
    have left : (reader.bufferSize - reader.pos).toNat =
        reader.buffer.bytes.length - reader.pos.toNat := by
      rw [UInt16.toNat_sub, bufferSize_toNat] at inside ⊢
      omega
    rw [Option.some.inj same, left]
    simp only [List.length_take, List.length_drop]
    constructor
    · omega
    · exact List.take_of_length_le (by simp)
  · have missed := (Call.readData (reader.bufferSize - reader.pos)).perform_missing
      (Nat.lt_of_not_le inside)
    cases congrArg Prod.fst (read.symm.trans missed)

/-! ## Runs of calls -/

/-- One call of a sequence. -/
def CallStep (before : BinaryReader) (call : Call) (after : BinaryReader) : Prop :=
  (call.perform before).2 = after

theorem buffer_perform (call : Call) (reader : BinaryReader) :
    (call.perform reader).2.buffer = reader.buffer := by
  by_cases inside : reader.pos.toNat + call.width ≤ reader.buffer.bytes.length
  · rw [call.perform_fits inside]
    rfl
  · rw [call.perform_missing (Nat.lt_of_not_le inside)]

/-- The calls that a reading program makes from one position, each with the reader that it
finds. -/
inductive Makes : {α : Type} → StateM BinaryReader α → BinaryReader →
    List (Call × BinaryReader) → Prop where
  | pure {α : Type} (value : α) (reader : BinaryReader) : Makes (Pure.pure value) reader []
  | call (call : Call) (reader : BinaryReader) :
      Makes call.perform reader [(call, reader)]
  | bind {α β : Type} {read : StateM BinaryReader α} {next : α → StateM BinaryReader β}
      {reader : BinaryReader} {first second : List (Call × BinaryReader)} :
      Makes read reader first → Makes (next (read reader).1) (read reader).2 second →
      Makes (read >>= next) reader (first ++ second)

/-- From every position, a program does nothing to the buffer but make calls. -/
def MadeOfCalls {α : Type} (read : StateM BinaryReader α) : Prop :=
  ∀ reader, ∃ made, Makes read reader made

namespace MadeOfCalls

variable {α β : Type}

theorem pure (value : α) : MadeOfCalls (Pure.pure value : StateM BinaryReader α) :=
  fun reader => ⟨_, .pure value reader⟩

theorem call (call : Call) : MadeOfCalls call.perform :=
  fun reader => ⟨_, .call call reader⟩

theorem bind {read : StateM BinaryReader α} {next : α → StateM BinaryReader β}
    (first : MadeOfCalls read) (rest : ∀ value, MadeOfCalls (next value)) :
    MadeOfCalls (read >>= next) := by
  intro reader
  obtain ⟨made, makes⟩ := first reader
  obtain ⟨later, makesLater⟩ := rest (read reader).1 (read reader).2
  exact ⟨_, makes.bind makesLater⟩

theorem base (type : UInt8) : MadeOfCalls (Base.read type) :=
  (call .readUint8).bind fun _ => (call .readUint64).bind fun _ =>
    (call .readUint8).bind fun _ => pure _

theorem packetBase (type version : UInt8) : MadeOfCalls (PacketBase.read type version) := by
  refine (base type).bind fun _ => (call .readUint64).bind fun _ => ?_
  dsimp only
  split
  · exact (call .readUint64).bind fun _ => pure _
  · exact pure _

theorem passAlong (type version : UInt8) (hasPayload : Bool) :
    MadeOfCalls (PacketPassAlong.read type version hasPayload) := by
  refine (packetBase type version).bind fun _ => ?_
  split
  · refine (call .readRemainderLen).bind fun len => (call (.readData len)).bind fun payload => ?_
    cases payload with
    | some payload => exact pure _
    | none => exact pure _
  · exact pure _

theorem announce (type version : UInt8) : MadeOfCalls (Announce.read type version) :=
  (passAlong type version false).bind fun _ => (call .readUint8).bind fun len =>
    (call (.readData len.toUInt16)).bind fun _ => pure _

theorem string (len : UInt16) : MadeOfCalls (Message.readString len) :=
  (call (.readData len)).bind fun _ => pure _

theorem message (type version : UInt8) : MadeOfCalls (Message.read type version) :=
  (packetBase type version).bind fun _ => (call .readUint8).bind fun _ =>
    (call .readUint64).bind fun _ =>
      (call .readUint8).bind fun idLen => (string idLen.toUInt16).bind fun _ =>
        (call .readUint8).bind fun nicknameLen => (string nicknameLen.toUInt16).bind fun _ =>
          (call .readUint16).bind fun contentLen => (string contentLen).bind fun _ => pure _

end MadeOfCalls

/-- The calls of a program are a run, and each finds the reader that the ones before it
leave. -/
theorem Makes.run {α : Type} {read : StateM BinaryReader α}
    {made : List (Call × BinaryReader)} (makes : Makes read reader made) :
    Run CallStep reader (made.map Prod.fst) (read reader).2 ∧
      ∀ earlier call found later, made = earlier ++ (call, found) :: later →
        Run CallStep reader (earlier.map Prod.fst) found := by
  induction makes with
  | pure value reader =>
      refine ⟨.nil reader, ?_⟩
      intro earlier call found later split
      cases earlier <;> cases split
  | call call reader =>
      refine ⟨.cons rfl (.nil _), ?_⟩
      intro earlier other found later split
      cases earlier with
      | nil =>
          cases split
          exact .nil _
      | cons _ earlier => cases earlier <;> cases split
  | bind first second firstRun secondRun =>
      refine ⟨by rw [List.map_append]; exact firstRun.1.append secondRun.1, ?_⟩
      intro earlier call found later split
      rcases List.append_eq_append_iff.mp split with
        ⟨between, rfl, rest⟩ | ⟨between, rfl, rest⟩
      · have reached := secondRun.2 between call found later rest
        simpa using firstRun.1.append reached
      · cases between with
        | nil =>
            have reached := secondRun.2 [] call found later rest.symm
            simpa using firstRun.1.append reached
        | cons entry between =>
            cases rest
            exact firstRun.2 earlier call found between rfl

/-- After every sequence of calls, from every offset, on every buffer, every call stays inside
the buffer that the reader was made with, and so does the remainder; hence so do all calls
that the reader constructors make there. -/
theorem reads_stayInside (offset : UInt16) (buffer : Buffer) :
    ∀ calls reader, Run CallStep (new offset buffer) calls reader →
      reader.buffer = buffer ∧ (∀ call : Call, call.StaysInside reader) ∧
        reader.RemainderInside ∧
        ∀ type version hasPayload,
          (∃ made, Makes (Message.read type version) reader made ∧
            ∀ entry ∈ made, entry.2.buffer = buffer ∧ entry.1.StaysInside entry.2) ∧
          (∃ made, Makes (Announce.read type version) reader made ∧
            ∀ entry ∈ made, entry.2.buffer = buffer ∧ entry.1.StaysInside entry.2) ∧
          ∃ made, Makes (PacketPassAlong.read type version hasPayload) reader made ∧
            ∀ entry ∈ made, entry.2.buffer = buffer ∧ entry.1.StaysInside entry.2 := by
  intro calls reader run
  have keeps : ∀ {calls reader}, Run CallStep (new offset buffer) calls reader →
      reader.buffer = buffer := by
    intro calls reader run
    have kept : ∀ {before : BinaryReader} {call after}, before.buffer = buffer →
        CallStep before call after → after.buffer = buffer := by
      intro before call after kept step
      rw [← step, buffer_perform, kept]
    exact run.invariant kept rfl
  have constructor_ : ∀ {α : Type} {read : StateM BinaryReader α}, MadeOfCalls read →
      ∃ made, Makes read reader made ∧
        ∀ entry ∈ made, entry.2.buffer = buffer ∧ entry.1.StaysInside entry.2 := by
    intro α read composed
    obtain ⟨made, makes⟩ := composed reader
    refine ⟨made, makes, ?_⟩
    rintro ⟨call, found⟩ member
    obtain ⟨earlier, later, split⟩ := List.append_of_mem member
    exact ⟨keeps (run.append (makes.run.2 earlier call found later split)),
      call.staysInside found⟩
  exact ⟨keeps run, fun call => call.staysInside reader, remainderInside reader,
    fun type version hasPayload => ⟨constructor_ (MadeOfCalls.message type version),
      constructor_ (MadeOfCalls.announce type version),
      constructor_ (MadeOfCalls.passAlong type version hasPayload)⟩⟩

/-- Three bytes: the second is read, four more do not fit, and one is left. -/
theorem reads_stayInside_three :
    ∃ reader, Run CallStep (new 1 ⟨[7, 8, 9], by decide⟩) [.readUint8, .readData 4] reader ∧
      reader.pos = 2 ∧ (Call.readData 4).StaysInside reader ∧ reader.RemainderInside := by
  have run : Run CallStep (new 1 ⟨[7, 8, 9], by decide⟩) [.readUint8, .readData 4] _ :=
    .cons rfl (.cons rfl (.nil _))
  obtain ⟨_, calls, remainder, _⟩ := reads_stayInside 1 ⟨[7, 8, 9], by decide⟩ _ _ run
  exact ⟨_, run, rfl, calls (.readData 4), remainder⟩

end BleRepeater.BinaryReader
