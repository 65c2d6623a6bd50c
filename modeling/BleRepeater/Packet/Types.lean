import BleRepeater.Packet.Binary

/-!
# The packet classes

`Base`, `PacketBase`, `PacketPassAlong`, `Announce` and `Message`, with the
fields the repeater reads, their reader constructors and their writers.  The
class hierarchy is the structure hierarchy: `toPacketPassAlong` of an `Announce`
is what is left of it when it is assigned to an object of the base class.

Writing a message dereferences its sender peer when the flags ask for it, so a
writer returns `none` where the code would follow a null pointer.
-/

namespace BleRepeater

open BinaryWriter BinaryReader

/-- `enum PacketType`. -/
def typeUnknown : UInt8 := 0
def typeAnnounce : UInt8 := 0x41
def typeMessage : UInt8 := 0x42

/-- `packet_flag_has_recipient`. -/
def packetFlagHasRecipient : UInt8 := 0x01

/-- `class Peer`, as far as the repeater uses it. -/
structure Peer where
  id : UInt64 := 0
  name : Bytes := []
  maxTtl : UInt8 := 0
  deriving DecidableEq

/-- `class Base`. -/
structure Base where
  packetType : UInt8 := 0
  packetTtl : UInt8 := 0
  packetTimestamp : UInt64 := 0
  packetFlags : UInt8 := 0
  deriving DecidableEq

/-- `class PacketBase`. -/
structure PacketBase extends Base where
  packetSenderId : UInt64 := 0
  packetRecipientId : UInt64 := 0
  deriving DecidableEq

/-- `class PacketPassAlong`. -/
structure PacketPassAlong extends PacketBase where
  payload : Bytes := []
  hasPayload : Bool := false
  deriving DecidableEq

/-- `class Announce`.  Both of its constructors pass `false` for `hasPayload`,
which nothing changes afterwards. -/
structure Announce extends PacketPassAlong where
  name : Bytes := []
  noPayload : hasPayload = false := by rfl
  deriving DecidableEq

/-- `class Message`. -/
structure Message extends PacketBase where
  messageFlags : UInt8 := 0
  messageTimestamp : UInt64 := 0
  messageId : Bytes := []
  senderNickname : Bytes := []
  content : Bytes := []
  senderPeer : Option Peer := none
  deriving DecidableEq

/-- An object behind a `Base *`, by its dynamic type. -/
inductive Packet where
  | passAlong (packet : PacketPassAlong)
  | announce (packet : Announce)
  | message (packet : Message)
  deriving DecidableEq

/-! ## Base -/

namespace Base

/-- `Base::Base(type, reader)`. -/
def read (type : UInt8) : StateM BinaryReader Base := do
  let packetTtl ← readUint8
  let packetTimestamp ← readUint64
  let packetFlags ← readUint8
  return { packetType := type, packetTtl, packetTimestamp, packetFlags }

/-- `Base::getPacketTimestampMs`. -/
def packetTimestampMs (base : Base) : UInt64 :=
  base.packetTimestamp / 1000

/-- `Base::writePacket`, given the virtual `writePacketPayload` of the object. -/
def writePacket (base : Base) (writePacketPayload : Bytes → Option Bytes)
    (vector : Bytes) : Option Bytes :=
  let vector := writeUint8 vector 1 -- version
  let vector := writeUint8 vector base.packetType
  let vector := writeUint8 vector base.packetTtl
  let vector := writeUint64 vector base.packetTimestamp
  let vector := writeUint8 vector base.packetFlags
  writePacketPayload vector

/-- What `writePacket` puts between the type byte and the payload. -/
def fields (base : Base) : Bytes :=
  [base.packetTtl] ++ (writeUint64 [] base.packetTimestamp ++ [base.packetFlags])

theorem reads_fields (base : Base) :
    Reads (read base.packetType) base.fields base := by
  have flags := (Reads.uint8 base.packetFlags).map fun packetFlags =>
    ({ base with packetFlags } : Base)
  exact (Reads.uint8 base.packetTtl).bind
    ((Reads.uint64 base.packetTimestamp).bind flags)

theorem writePacket_eq (base : Base)
    (writePacketPayload : Bytes → Option Bytes) (vector : Bytes) :
    base.writePacket writePacketPayload vector =
      writePacketPayload (vector ++ [1, base.packetType] ++ base.fields) := by
  simp only [writePacket, fields, writeUint8]
  rw [writeUint64_eq_append]
  simp

end Base

/-! ## PacketBase -/

namespace PacketBase

/-- `PacketBase::hasPacketRecipient`. -/
def hasPacketRecipient (packet : PacketBase) : Bool :=
  packet.packetFlags &&& packetFlagHasRecipient != 0

/-- `PacketBase::PacketBase(type, version, reader)`. -/
def read (type _version : UInt8) : StateM BinaryReader PacketBase := do
  let base ← Base.read type
  let packetSenderId ← readUint64
  let packet : PacketBase := { base with packetSenderId }
  if packet.hasPacketRecipient then
    let packetRecipientId ← readUint64
    return { packet with packetRecipientId }
  else
    return packet

/-- `PacketBase::writePacketPayload`. -/
def writePacketPayload (packet : PacketBase) (vector : Bytes) : Bytes :=
  let vector := writeUint64 vector packet.packetSenderId
  if packet.hasPacketRecipient then
    writeUint64 vector packet.packetRecipientId
  else
    vector

/-- The recipient travels only under its flag; without the flag it is zero in
every object a reader builds. -/
def RecipientFlagged (packet : PacketBase) : Prop :=
  packet.hasPacketRecipient = false → packet.packetRecipientId = 0

theorem writePacketPayload_eq_append (packet : PacketBase) (vector : Bytes) :
    packet.writePacketPayload vector =
      vector ++ packet.writePacketPayload [] := by
  unfold writePacketPayload
  rw [writeUint64_eq_append]
  split
  · rw [writeUint64_eq_append (vector ++ _), writeUint64_eq_append (writeUint64 [] _)]
    simp
  · rfl

theorem reads_fields (packet : PacketBase) (version : UInt8)
    (flagged : packet.RecipientFlagged) :
    Reads (read packet.packetType version)
      (packet.toBase.fields ++ packet.writePacketPayload []) packet := by
  refine (Base.reads_fields packet.toBase).bind ?_
  unfold writePacketPayload
  by_cases recipient : packet.hasPacketRecipient
  · rw [if_pos recipient, writeUint64_eq_append]
    refine (Reads.uint64 packet.packetSenderId).bind ?_
    have flag : hasPacketRecipient
        { packet.toBase with packetSenderId := packet.packetSenderId } = true :=
      recipient
    simp only [flag, if_true]
    exact (Reads.uint64 packet.packetRecipientId).map fun packetRecipientId =>
      ({ packet with packetRecipientId } : PacketBase)
  · rw [if_neg recipient]
    have unflagged : packet.hasPacketRecipient = false := by simpa using recipient
    have flag : hasPacketRecipient
        { packet.toBase with packetSenderId := packet.packetSenderId } = false :=
      unflagged
    have zero := flagged unflagged
    rw [← List.append_nil (writeUint64 [] packet.packetSenderId)]
    refine (Reads.uint64 packet.packetSenderId).bind ?_
    simp only [flag, Bool.false_eq_true, if_false]
    have same : ({ packet.toBase with
        packetSenderId := packet.packetSenderId } : PacketBase) = packet := by
      cases packet
      simp_all
    rw [same]
    exact Reads.pure packet

end PacketBase

/-! ## PacketPassAlong and Announce -/

namespace PacketPassAlong

/-- `PacketPassAlong::PacketPassAlong(type, version, hasPayload, reader)`. -/
def read (type version : UInt8) (hasPayload : Bool) :
    StateM BinaryReader PacketPassAlong := do
  let packet ← PacketBase.read type version
  if hasPayload then
    let payloadLen ← readRemainderLen
    match ← readData payloadLen with
    | some payload => return { packet with hasPayload, payload }
    | none => return { packet with hasPayload }
  else
    return { packet with hasPayload }

/-- `PacketPassAlong::writePacketPayload`. -/
def writePacketPayload (packet : PacketPassAlong) (vector : Bytes) : Bytes :=
  let vector := packet.toPacketBase.writePacketPayload vector
  if packet.hasPayload then
    writeData vector packet.payload (UInt16.ofNat packet.payload.length)
  else
    vector

end PacketPassAlong

/-- A length byte: `static_cast<uint8_t>(std::min(255, size))`. -/
def lengthByte (data : Bytes) : UInt8 :=
  UInt8.ofNat (min 255 data.length)

namespace Announce

/-- `Announce::Announce()`. -/
def new : Announce :=
  { packetType := typeAnnounce }

/-- `Announce::Announce(type, version, reader)`. -/
def read (type version : UInt8) : StateM BinaryReader Announce := do
  let packet ← PacketPassAlong.read type version false
  let nameLen ← readUint8
  let nameData ← readData nameLen.toUInt16
  return { packet with
    hasPayload := false
    noPayload := rfl
    name := nameData.getD [] }

/-- `Announce::writePacketPayload`. -/
def writePacketPayload (announce : Announce) (vector : Bytes) : Bytes :=
  let vector := announce.toPacketPassAlong.writePacketPayload vector
  let nameLen := lengthByte announce.name
  let vector := writeUint8 vector nameLen
  writeData vector announce.name nameLen.toUInt16

end Announce

/-! ## Message -/

namespace Message

/-- `Message::hasSenderPeerID`. -/
def hasSenderPeerID (message : Message) : Bool :=
  message.messageFlags &&& 0x10 != 0

/-- A length-prefixed string as the reader constructors take it: `""` where
`read_data` returned `nullptr`. -/
def readString (len : UInt16) : StateM BinaryReader Bytes := do
  let data ← readData len
  return data.getD []

/-- `Message::Message(type, version, reader)`. -/
def read (type version : UInt8) : StateM BinaryReader Message := do
  let packet ← PacketBase.read type version
  let messageFlags ← readUint8
  let messageTimestamp ← readUint64
  let messageIdLen ← readUint8
  let messageId ← readString messageIdLen.toUInt16
  let senderNicknameLen ← readUint8
  let senderNickname ← readString senderNicknameLen.toUInt16
  let contentLen ← readUint16
  let content ← readString contentLen
  return { packet with
    messageFlags, messageTimestamp, messageId, senderNickname, content }

/-- `Message::writePacketPayload`; `none` is the null dereference in
`getSenderPeer()->getId()`. -/
def writePacketPayload (message : Message) (vector : Bytes) : Option Bytes :=
  let vector := message.toPacketBase.writePacketPayload vector
  let vector := writeUint8 vector message.messageFlags
  let vector := writeUint64 vector message.messageTimestamp
  let idLen := lengthByte message.messageId
  let vector := writeUint8 vector idLen
  let vector := writeData vector message.messageId idLen.toUInt16
  let senderLen := lengthByte message.senderNickname
  let vector := writeUint8 vector senderLen
  let vector := writeData vector message.senderNickname senderLen.toUInt16
  let contentLen := UInt16.ofNat (min 65535 message.content.length)
  let vector := writeUint16 vector contentLen
  let vector := writeData vector message.content contentLen
  if message.hasSenderPeerID then
    match message.senderPeer with
    | none => none
    | some peer => some (writeUint64 (writeUint8 vector 16) peer.id)
  else
    some vector

end Message

/-! ## Virtual dispatch -/

namespace Packet

/-- The `Base` part of any packet. -/
def base : Packet → Base
  | .passAlong packet => packet.toBase
  | .announce packet => packet.toBase
  | .message packet => packet.toBase

/-- The override of `writePacketPayload` that the dynamic type selects. -/
def writePacketPayload : Packet → Bytes → Option Bytes
  | .passAlong packet, vector => some (packet.writePacketPayload vector)
  | .announce packet, vector => some (packet.writePacketPayload vector)
  | .message packet, vector => packet.writePacketPayload vector

/-- `packet->writePacket(vector)`: every override only calls the one of its base
class, down to `Base::writePacket`. -/
def writePacket (packet : Packet) (vector : Bytes) : Option Bytes :=
  packet.base.writePacket packet.writePacketPayload vector

end Packet

end BleRepeater
