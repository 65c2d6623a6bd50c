import BleRepeater.Packet.RoundTrip

/-!
# What the readers build

A message or an announce that a reader constructor builds can be encoded again, and the
encoding is no longer than a buffer can be: what the strings take up has been read from one
buffer, unless the buffer was so short that not even the fixed fields fitted.
-/

namespace BleRepeater

open BinaryReader BinaryWriter

/-! ## How far a reader is -/

namespace BinaryReader

/-- A reader that stands behind at least `count` bytes, unless fewer than eight bytes are
ahead of it. -/
def Behind (count : Nat) (reader : BinaryReader) : Prop :=
  reader.pos.toNat + 8 ≤ reader.buffer.bytes.length → count ≤ reader.pos.toNat

/-- Whatever is read from behind `count` bytes has a property. -/
def YieldsBehind {α : Type} (count : Nat) (read : StateM BinaryReader α)
    (property : α → Prop) : Prop :=
  ∀ reader, reader.Behind count → property (read reader).1

/-- A read moves behind the bytes it takes; where they do not fit, there is no room left. -/
theorem Behind.guarded {α : Type} {count width : Nat} {missing : α}
    {value : BinaryReader → α} {reader : BinaryReader} (behind : reader.Behind count)
    (taken : ¬ reader.pos.toNat + width > reader.bufferSize.toNat ∨ width ≤ 8) :
    (BinaryReader.guarded width missing value reader).2.Behind (count + width) := by
  obtain ⟨buffer, place⟩ := guarded_snd width missing value reader
  intro room
  rw [buffer, place] at room
  rw [place]
  rw [bufferSize_toNat] at taken
  unfold advance at room ⊢
  split at room
  · rw [if_pos (by assumption)]
    have := behind (by omega)
    omega
  · omega

namespace YieldsBehind

variable {α β : Type} {count : Nat} {property : β → Prop}

theorem pure {value : β} (holds : property value) :
    YieldsBehind count (Pure.pure value : StateM BinaryReader β) property :=
  fun _ _ => holds

/-- What is computed from a read. -/
theorem bind_pure {middle : α → Prop} {read : StateM BinaryReader α} {value : α → β}
    (first : YieldsBehind count read middle)
    (holds : ∀ found, middle found → property (value found)) :
    YieldsBehind count (read >>= fun found => Pure.pure (value found)) property :=
  fun reader behind => holds _ (first reader behind)

/-- A read of a fixed field, whether or not it fits. -/
theorem bind_guarded {width : Nat} {missing : α} {value : BinaryReader → α}
    {next : α → StateM BinaryReader β} (narrow : width ≤ 8)
    (continues : ∀ found, YieldsBehind (count + width) (next found) property) :
    YieldsBehind count (BinaryReader.guarded width missing value >>= next) property :=
  fun _ behind => continues _ _ (behind.guarded (Or.inr narrow))

theorem bind_readUint8 {next : UInt8 → StateM BinaryReader β}
    (continues : ∀ found, YieldsBehind (count + 1) (next found) property) :
    YieldsBehind count (readUint8 >>= next) property :=
  bind_guarded (by decide) continues

theorem bind_readUint16 {next : UInt16 → StateM BinaryReader β}
    (continues : ∀ found, YieldsBehind (count + 2) (next found) property) :
    YieldsBehind count (readUint16 >>= next) property :=
  bind_guarded (by decide) continues

theorem bind_readUint64 {next : UInt64 → StateM BinaryReader β}
    (continues : ∀ found, YieldsBehind (count + 8) (next found) property) :
    YieldsBehind count (readUint64 >>= next) property :=
  bind_guarded (by decide) continues

end YieldsBehind

/-- A string that has been read is as long as asked for and lies in the buffer, or there is
none and the reader has not moved. -/
theorem readString_cases (len : UInt16) (reader : BinaryReader) :
    (Message.readString len reader).1.length = len.toNat ∧
        reader.pos.toNat + len.toNat ≤ reader.buffer.bytes.length ∧
        (Message.readString len reader).2 = (readData len reader).2 ∨
      Message.readString len reader = ([], reader) := by
  have outcome : Message.readString len reader =
      ((readData len reader).1.getD [], (readData len reader).2) := rfl
  rw [outcome]
  unfold readData guarded
  rw [bufferSize_toNat]
  by_cases fits : reader.pos.toNat + len.toNat ≤ reader.buffer.bytes.length
  · rw [if_neg (by omega)]
    refine Or.inl ⟨?_, fits, rfl⟩
    rw [Option.getD_some, List.length_take, List.length_drop]
    omega
  · rw [if_pos (by omega)]
    exact Or.inr rfl

theorem length_readString_le (len : UInt16) (reader : BinaryReader) :
    (Message.readString len reader).1.length ≤ len.toNat := by
  rcases readString_cases len reader with ⟨length, _⟩ | missing
  · exact length.le
  · simp [missing]

/-- A read of a string moves behind it. -/
theorem YieldsBehind.bind_readString {β : Type} {count : Nat} {property : β → Prop}
    {len : UInt16} {next : Bytes → StateM BinaryReader β}
    (continues : ∀ found : Bytes, found.length ≤ len.toNat →
      YieldsBehind (count + found.length) (next found) property) :
    YieldsBehind count (Message.readString len >>= next) property := by
  intro reader behind
  rw [bind_eq]
  refine continues _ (length_readString_le len reader) _ ?_
  rcases readString_cases len reader with ⟨length, inside, moved⟩ | missing
  · rw [length, moved]
    refine behind.guarded (Or.inl ?_)
    rw [bufferSize_toNat]
    omega
  · rw [missing]
    exact behind

/-- A string at the end of a read, with what has been read, fits a buffer. -/
theorem YieldsBehind.bind_readString_last {β : Type} {count : Nat} {property : β → Prop}
    {len : UInt16} {value : Bytes → β}
    (holds : ∀ found : Bytes, found.length ≤ len.toNat →
      (8 ≤ found.length → count + found.length < 2 ^ 16) → property (value found)) :
    YieldsBehind count (Message.readString len >>= fun found => Pure.pure (value found))
      property := by
  intro reader behind
  rw [bind_eq]
  refine holds _ (length_readString_le len reader) ?_
  intro long
  have bounded := reader.buffer.bounded
  rcases readString_cases len reader with ⟨length, inside, _⟩ | missing
  · have := behind (by omega)
    omega
  · simp [missing] at long

end BinaryReader

/-! ## Fixed fields -/

/-- The bytes of the fixed fields, in front of those of the class. -/
def PacketBase.head (packet : PacketBase) : Bytes :=
  packet.toBase.fields ++ packet.writePacketPayload []

theorem PacketBase.length_head (packet : PacketBase) :
    packet.head.length = if packet.hasPacketRecipient then 26 else 18 := by
  unfold head writePacketPayload
  rw [List.length_append]
  split
  · rw [writeUint64_eq_append, List.length_append]
    rfl
  · rfl

theorem PacketBase.length_head_le (packet : PacketBase) : packet.head.length ≤ 26 := by
  rw [length_head]
  split <;> decide

/-- The fixed fields, as a reader finds them. -/
theorem BinaryReader.YieldsBehind.bind_packetBase {β : Type} {count : Nat}
    {property : β → Prop} {type version : UInt8} {next : PacketBase → StateM BinaryReader β}
    (continues : ∀ packet : PacketBase, packet.packetType = type → packet.RecipientFlagged →
      YieldsBehind (count + packet.head.length) (next packet) property) :
    YieldsBehind count (PacketBase.read type version >>= next) property := by
  unfold PacketBase.read Base.read
  simp only [bind_assoc, pure_bind]
  refine bind_readUint8 fun packetTtl => bind_readUint64 fun packetTimestamp =>
    bind_readUint8 fun packetFlags => bind_readUint64 fun packetSenderId => ?_
  split
  · rename_i flagged
    simp only [bind_assoc, pure_bind]
    refine bind_readUint64 fun packetRecipientId => ?_
    let packet : PacketBase :=
      { packetType := type, packetTtl, packetTimestamp, packetFlags, packetSenderId,
        packetRecipientId }
    have recipient : packet.hasPacketRecipient = true := flagged
    have ahead := continues packet rfl (by simp [PacketBase.RecipientFlagged, recipient])
    rw [packet.length_head, if_pos recipient] at ahead
    exact ahead
  · rename_i unflagged
    rw [pure_bind]
    let packet : PacketBase :=
      { packetType := type, packetTtl, packetTimestamp, packetFlags, packetSenderId }
    have recipient : ¬ packet.hasPacketRecipient = true := unflagged
    have ahead := continues packet rfl fun _ => rfl
    rw [packet.length_head, if_neg recipient] at ahead
    exact ahead

/-! ## Messages -/

namespace Message

/-- The bytes of a message. -/
def encoding (message : Message) : Bytes :=
  [1, message.packetType] ++ (message.toPacketBase.head ++ message.body)

theorem length_encoding (message : Message) :
    message.encoding.length = message.toPacketBase.head.length +
      message.messageId.length + message.senderNickname.length +
        message.content.length + 15 := by
  simp only [encoding, body, shortString, List.length_append, List.length_cons,
    List.length_nil, length_writeUint64, length_writeUint16]
  omega

/-- A message as a reader builds it: of its own type, with strings that fit their lengths,
no recipient without the flag and no sender peer, and short enough for a buffer. -/
structure AsRead (message : Message) : Prop where
  type : message.packetType = typeMessage
  fits : message.Fits
  senderPeer : message.senderPeer = none
  bounded : message.encoding.length < 2 ^ 16

theorem AsRead.encodable {message : Message} (asRead : message.AsRead)
    (noSenderPeer : message.hasSenderPeerID = false) : message.Encodable :=
  ⟨asRead.fits.recipient, noSenderPeer, asRead.fits.messageId, asRead.fits.senderNickname,
    asRead.fits.content⟩

/-- What the reader constructor builds behind the version and type bytes is short enough to
be sent. -/
theorem asRead_read (version : UInt8) :
    YieldsBehind 2 (Message.read typeMessage version) AsRead := by
  unfold Message.read
  refine YieldsBehind.bind_packetBase fun packet type recipient => ?_
  refine .bind_readUint8 fun messageFlags => .bind_readUint64 fun messageTimestamp => ?_
  refine .bind_readUint8 fun idLen => .bind_readString fun messageId idFits => ?_
  refine .bind_readUint8 fun nicknameLen => .bind_readString fun senderNickname
    nicknameFits => ?_
  refine .bind_readUint16 fun contentLen => .bind_readString_last fun content contentFits
    room => ?_
  have idShort : messageId.length ≤ 255 := by
    have := idLen.toNat_lt
    simp only [UInt8.toNat_toUInt16] at idFits
    omega
  have nicknameShort : senderNickname.length ≤ 255 := by
    have := nicknameLen.toNat_lt
    simp only [UInt8.toNat_toUInt16] at nicknameFits
    omega
  have contentShort : content.length ≤ 65535 := by
    have := contentLen.toNat_lt
    omega
  refine ⟨type, ⟨recipient, idShort, nicknameShort, contentShort⟩, rfl, ?_⟩
  rw [length_encoding]
  dsimp only
  have head := packet.length_head_le
  -- with less than eight bytes of content everything is short, else all fields fitted
  by_cases long : 8 ≤ content.length
  · have := room long
    omega
  · omega

end Message

end BleRepeater
