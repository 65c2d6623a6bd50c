import BleRepeater.Packet.Types

/-!
# Decoding undoes encoding

Each packet class gets the bytes its writer produces and the fact that its
reader constructor consumes exactly those bytes and rebuilds the object.
-/

namespace BleRepeater

open BinaryWriter BinaryReader

/-- The `uint8_t` prefix of a short string is its true length. -/
theorem lengthByte_toNat (data : Bytes) (short : data.length ≤ 255) :
    (lengthByte data).toUInt16.toNat = data.length := by
  simp only [lengthByte, UInt8.toNat_toUInt16, UInt8.toNat_ofNat']
  omega

/-- A string behind a one-byte length. -/
def shortString (data : Bytes) : Bytes :=
  [lengthByte data] ++ data

theorem writeData_lengthByte (vector data : Bytes) (short : data.length ≤ 255) :
    writeData (writeUint8 vector (lengthByte data)) data (lengthByte data).toUInt16 =
      vector ++ shortString data := by
  simp [writeData, writeUint8, shortString, lengthByte_toNat data short]

namespace Announce

/-- The payload of an announce whose name fits its length byte. -/
theorem writePacketPayload_eq (announce : Announce)
    (short : announce.name.length ≤ 255) (vector : Bytes) :
    announce.writePacketPayload vector =
      vector ++ announce.toPacketBase.writePacketPayload [] ++
        shortString announce.name := by
  simp only [writePacketPayload, PacketPassAlong.writePacketPayload,
    announce.noPayload, Bool.false_eq_true, if_false]
  rw [writeData_lengthByte _ _ short, PacketBase.writePacketPayload_eq_append]

/-- The reader constructor rebuilds an announce from its encoding. -/
theorem reads (announce : Announce) (version : UInt8)
    (flagged : announce.RecipientFlagged) (short : announce.name.length ≤ 255) :
    Reads (read announce.packetType version)
      (announce.toBase.fields ++ announce.toPacketBase.writePacketPayload [] ++
        shortString announce.name)
      { announce with payload := [] } := by
  have whole : ({ announce with payload := [] } : Announce) =
      { announce.toPacketBase with
        hasPayload := false
        noPayload := rfl
        name := (some announce.name).getD [] } := by
    cases announce with
    | mk passAlong name noPayload =>
        cases passAlong
        simp only at noPayload
        subst noPayload
        rfl
  have name := (Reads.data announce.name _ (lengthByte_toNat _ short).symm).map
    fun nameData => ({ announce.toPacketBase with
      hasPayload := false
      noPayload := rfl
      name := nameData.getD [] } : Announce)
  rw [whole, shortString]
  have passAlong := (PacketBase.reads_fields announce.toPacketBase version flagged).map
    fun packet => ({ packet with hasPayload := false } : PacketPassAlong)
  exact passAlong.bind ((Reads.uint8 (lengthByte announce.name)).bind name)

/-- The bytes of an announce after the version and type bytes. -/
def body (announce : Announce) : Bytes :=
  announce.toBase.fields ++ announce.toPacketBase.writePacketPayload [] ++
    shortString announce.name

theorem writePacket_eq (announce : Announce) (short : announce.name.length ≤ 255) :
    (Packet.announce announce).writePacket [] =
      some ([1, announce.packetType] ++ announce.body) := by
  simp only [Packet.writePacket, Packet.base, Base.writePacket_eq]
  change some (announce.writePacketPayload _) = _
  rw [announce.writePacketPayload_eq short, body]
  simp

end Announce

namespace Message

/-- The limits under which no length prefix of a message is clamped and the
recipient is recoverable. -/
structure Encodable (message : Message) : Prop where
  recipient : message.RecipientFlagged
  noSenderPeer : message.hasSenderPeerID = false
  messageId : message.messageId.length ≤ 255
  senderNickname : message.senderNickname.length ≤ 255
  content : message.content.length ≤ 65535

/-- The bytes of a message after the `PacketBase` payload. -/
def body (message : Message) : Bytes :=
  [message.messageFlags] ++ (writeUint64 [] message.messageTimestamp ++
    (shortString message.messageId ++ (shortString message.senderNickname ++
      (writeUint16 [] (UInt16.ofNat message.content.length) ++ message.content))))

theorem contentLength_toNat (message : Message) (short : message.content.length ≤ 65535) :
    (UInt16.ofNat message.content.length).toNat = message.content.length := by
  simp only [UInt16.toNat_ofNat']
  omega

theorem writePacketPayload_eq (message : Message) (encodable : message.Encodable)
    (vector : Bytes) :
    message.writePacketPayload vector =
      some (vector ++ message.toPacketBase.writePacketPayload [] ++ message.body) := by
  have clamp : min 65535 message.content.length = message.content.length := by
    have := encodable.content
    omega
  simp only [writePacketPayload, encodable.noSenderPeer, Bool.false_eq_true, if_false,
    clamp]
  rw [writeData_lengthByte _ _ encodable.senderNickname,
    writeData_lengthByte _ _ encodable.messageId, writeData,
    contentLength_toNat message encodable.content, List.take_length,
    writeUint16_eq_append, writeUint64_eq_append,
    PacketBase.writePacketPayload_eq_append]
  simp [body, writeUint8]

theorem writePacket_eq (message : Message) (encodable : message.Encodable) :
    (Packet.message message).writePacket [] =
      some ([1, message.packetType] ++ (message.toBase.fields ++
        message.toPacketBase.writePacketPayload [] ++ message.body)) := by
  simp only [Packet.writePacket, Packet.base, Base.writePacket_eq]
  change message.writePacketPayload _ = _
  rw [message.writePacketPayload_eq encodable]
  simp

/-- The limits under which no length prefix of a message is clamped and the recipient is
recoverable, whether or not there is a sender peer. -/
structure Fits (message : Message) : Prop where
  recipient : message.RecipientFlagged
  messageId : message.messageId.length ≤ 255
  senderNickname : message.senderNickname.length ≤ 255
  content : message.content.length ≤ 65535

theorem Encodable.fits {message : Message} (encodable : message.Encodable) : message.Fits :=
  ⟨encodable.recipient, encodable.messageId, encodable.senderNickname, encodable.content⟩

/-- The reader constructor rebuilds a message from its encoding.  The sender peer
is a pointer and never travels. -/
theorem reads (message : Message) (version : UInt8) (fits : message.Fits) :
    Reads (read message.packetType version)
      (message.toBase.fields ++ message.toPacketBase.writePacketPayload [] ++
        message.body)
      { message with senderPeer := none } := by
  have idLen := (lengthByte_toNat _ fits.messageId).symm
  have senderLen := (lengthByte_toNat _ fits.senderNickname).symm
  have contentLen := (contentLength_toNat message fits.content).symm
  have content := ((Reads.data message.content _ contentLen).map
    fun data => data.getD []).map fun content =>
      ({ message with senderPeer := none, content } : Message)
  have sender := (Reads.data message.senderNickname _ senderLen).map
    fun data => data.getD []
  have messageId := (Reads.data message.messageId _ idLen).map
    fun data => data.getD []
  refine (PacketBase.reads_fields message.toPacketBase version
    fits.recipient).bind ?_
  refine (Reads.uint8 message.messageFlags).bind ?_
  refine (Reads.uint64 message.messageTimestamp).bind ?_
  simp only [shortString, List.append_assoc]
  refine (Reads.uint8 (lengthByte message.messageId)).bind ?_
  refine messageId.bind ?_
  refine (Reads.uint8 (lengthByte message.senderNickname)).bind ?_
  refine sender.bind ?_
  refine (Reads.uint16 (UInt16.ofNat message.content.length)).bind ?_
  exact content

/-- A message as its encoding has it: strings are cut where their lengths end, the recipient
travels only under its flag, and the sender peer is no field of its own. -/
def onWire (message : Message) : Message :=
  { message with
    packetRecipientId := if message.hasPacketRecipient then message.packetRecipientId else 0
    messageId := message.messageId.take 255
    senderNickname := message.senderNickname.take 255
    content := message.content.take 65535
    senderPeer := none }

theorem fits_onWire (message : Message) : message.onWire.Fits := by
  refine ⟨?_, by simp [onWire], by simp [onWire], by simp [onWire]⟩
  intro unflagged
  have unflagged : message.hasPacketRecipient = false := unflagged
  simp [onWire, unflagged]

theorem lengthByte_take (data : Bytes) : lengthByte (data.take 255) = lengthByte data := by
  simp [lengthByte]

theorem writeData_take (vector data : Bytes) :
    writeData (writeUint8 vector (lengthByte data)) data (lengthByte data).toUInt16 =
      vector ++ shortString (data.take 255) := by
  have whole := writeData_lengthByte vector (data.take 255) (by simp)
  rw [lengthByte_take] at whole
  rw [← whole]
  have short : (lengthByte data).toUInt16.toNat ≤ 255 := by
    simp only [UInt8.toNat_toUInt16]
    have := (lengthByte data).toNat_lt
    omega
  rw [writeData, writeData, List.take_take, Nat.min_eq_left short]

theorem writeContent_take (vector content : Bytes) :
    writeData (writeUint16 vector (UInt16.ofNat (min 65535 content.length))) content
        (UInt16.ofNat (min 65535 content.length)) =
      vector ++ writeUint16 [] (UInt16.ofNat (content.take 65535).length) ++
        content.take 65535 := by
  have clamped : (UInt16.ofNat (min 65535 content.length)).toNat = min 65535 content.length := by
    simp only [UInt16.toNat_ofNat']
    omega
  have cut : content.take (min 65535 content.length) = content.take 65535 := by
    by_cases short : content.length ≤ 65535
    · rw [Nat.min_eq_right short, List.take_length, List.take_of_length_le short]
    · rw [Nat.min_eq_left (by omega)]
  rw [writeData, clamped, cut, writeUint16_eq_append, List.length_take]

theorem writePacketBase_onWire (message : Message) :
    message.onWire.toPacketBase.writePacketPayload [] =
      message.toPacketBase.writePacketPayload [] := by
  have flag : message.onWire.hasPacketRecipient = message.hasPacketRecipient := rfl
  unfold PacketBase.writePacketPayload
  rw [flag]
  split
  · rename_i flagged
    simp [onWire, flagged]
  · rfl

/-- Every encoding of a message starts with that of the message as it has it. -/
theorem writePacket_onWire {message : Message} {bytes : Bytes}
    (written : (Packet.message message).writePacket [] = some bytes) :
    ∃ tail, bytes = [1, message.packetType] ++ (message.onWire.toBase.fields ++
      message.onWire.toPacketBase.writePacketPayload [] ++ message.onWire.body) ++ tail := by
  simp only [Packet.writePacket, Packet.base, Base.writePacket_eq] at written
  change message.writePacketPayload _ = _ at written
  simp only [writePacketPayload, writeContent_take, writeData_take] at written
  rw [writeUint64_eq_append, PacketBase.writePacketPayload_eq_append,
    ← writePacketBase_onWire] at written
  have core : [1, message.packetType] ++ (message.onWire.toBase.fields ++
      message.onWire.toPacketBase.writePacketPayload [] ++ message.onWire.body) =
      [1, message.packetType] ++ message.toBase.fields ++
        message.onWire.toPacketBase.writePacketPayload [] ++ [message.messageFlags] ++
        writeUint64 [] message.messageTimestamp ++ shortString (message.messageId.take 255) ++
        shortString (message.senderNickname.take 255) ++
        writeUint16 [] (UInt16.ofNat (message.content.take 65535).length) ++
        message.content.take 65535 := by
    simp [body, onWire]
  simp only [writeUint8, List.nil_append, ← core] at written
  split at written
  · split at written
    · cases written
    · rename_i peer _
      cases written
      exact ⟨[16] ++ writeUint64 [] peer.id, by rw [writeUint64_eq_append]; simp⟩
  · cases written
    exact ⟨[], by simp⟩

end Message

/-- Reading a whole packet as `processWrite` does: version, type, then the
reader constructor `read` of the class. -/
def readPacket {α : Type} (read : UInt8 → UInt8 → StateM BinaryReader α) :
    StateM BinaryReader (UInt8 × UInt8 × α) := do
  let version ← readUint8
  let type ← readUint8
  let object ← read type version
  return (version, type, object)

/-- `packet` encodes to bytes from which `read` rebuilds `object`, ending exactly
at the end of the bytes, whenever their number fits the 16-bit buffer size. -/
def DecodesTo {α : Type} (packet : Packet)
    (read : UInt8 → UInt8 → StateM BinaryReader α) (object : α) : Prop :=
  ∃ bytes, packet.writePacket [] = some bytes ∧
    ∀ bounded : bytes.length < 2 ^ 16, ∃ reader,
      readPacket read (BinaryReader.new 0 ⟨bytes, bounded⟩) =
        ((1, packet.base.packetType, object), reader) ∧
      reader.pos.toNat = bytes.length

/-- A packet whose reader constructor consumes exactly what follows the version
and type bytes decodes to the object that constructor yields. -/
theorem decodesTo_of_reads {α : Type} {packet : Packet}
    {read : UInt8 → UInt8 → StateM BinaryReader α} {object : α} {rest : Bytes}
    (written : packet.writePacket [] = some ([1, packet.base.packetType] ++ rest))
    (reads : Reads (read packet.base.packetType 1) rest object) :
    DecodesTo packet read object := by
  refine ⟨_, written, ?_⟩
  intro bounded
  have whole : Reads (readPacket read) ([1] ++ ([packet.base.packetType] ++ rest))
      (1, packet.base.packetType, object) :=
    (Reads.uint8 1).bind ((Reads.uint8 packet.base.packetType).bind
      (reads.map fun object => (1, packet.base.packetType, object)))
  have start : (BinaryReader.new 0 ⟨_, bounded⟩).At []
      ([1, packet.base.packetType] ++ rest) [] :=
    ⟨by simp [BinaryReader.new], rfl⟩
  exact ⟨_, whole _ [] [] start, start.skip_position⟩

/-- The encoding of an announce always fits the 16-bit buffer size. -/
theorem Announce.writePacket_bounded (announce : Announce)
    (short : announce.name.length ≤ 255) {bytes : Bytes}
    (written : (Packet.announce announce).writePacket [] = some bytes) :
    bytes.length < 2 ^ 16 := by
  rw [announce.writePacket_eq short, Option.some.injEq] at written
  subst written
  simp only [Announce.body, Base.fields, shortString, PacketBase.writePacketPayload,
    List.length_append, List.length_cons, List.length_nil, length_writeUint64]
  split
  · rw [writeUint64_eq_append, List.length_append, length_writeUint64,
      length_writeUint64]
    omega
  · rw [length_writeUint64]
    omega

/-- Decoding undoes encoding, for every message and every announce. -/
theorem decode_undoes_encode :
    (∀ message : Message, message.Encodable →
      DecodesTo (.message message) Message.read { message with senderPeer := none }) ∧
    (∀ announce : Announce, announce.RecipientFlagged → announce.name.length ≤ 255 →
      DecodesTo (.announce announce) Announce.read { announce with payload := [] } ∧
      ∀ bytes, (Packet.announce announce).writePacket [] = some bytes →
        bytes.length < 2 ^ 16) := by
  constructor
  · intro message encodable
    exact decodesTo_of_reads (message.writePacket_eq encodable) (message.reads 1 encodable.fits)
  · intro announce flagged short
    exact ⟨decodesTo_of_reads (announce.writePacket_eq short)
      (announce.reads 1 flagged short), fun bytes => announce.writePacket_bounded short⟩

/-- A short message and an anonymous announce survive the trip. -/
theorem decode_undoes_encode_samples :
    DecodesTo (.message { packetTtl := 7, messageTimestamp := 3, content := [104, 105] })
      Message.read { packetTtl := 7, messageTimestamp := 3, content := [104, 105] } ∧
    DecodesTo (.announce Announce.new) Announce.read Announce.new :=
  ⟨decode_undoes_encode.1 { packetTtl := 7, messageTimestamp := 3, content := [104, 105] }
      ⟨fun _ => rfl, by decide, by decide, by decide, by decide⟩,
    (decode_undoes_encode.2 Announce.new (fun _ => rfl) (by decide)).1⟩

end BleRepeater
