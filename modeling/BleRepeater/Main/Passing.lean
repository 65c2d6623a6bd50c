import BleRepeater.Ble.Clock
import BleRepeater.Ble.Handing
import BleRepeater.Main.RelayAnnounce
import BleRepeater.Main.RelayMessage
import BleRepeater.Packet.Room

/-!
# Passing packets on

Whatever a repeater stores or sends reads, at the next repeater, as what it is: a message as
the same message, and an announce as the same fields of the base class.
-/

namespace BleRepeater

open BinaryReader BinaryWriter Transition Tracker ProtocolProcessor Repeater

/-! ## What is read -/

/-- What a repeater keeps of an announce. -/
structure PacketPassAlong.AsRead (packet : PacketPassAlong) : Prop where
  type : packet.packetType = typeAnnounce
  recipient : packet.RecipientFlagged
  payload : packet.payload = []
  noPayload : packet.hasPayload = false

/-- An announce as the reader constructor builds it. -/
structure Announce.AsRead (announce : Announce) : Prop where
  kept : announce.toPacketPassAlong.AsRead
  name : announce.name.length ≤ 255

/-- A packet as the reader constructors build it. -/
def Packet.AsRead : Packet → Prop
  | .passAlong packet => packet.AsRead
  | .announce packet => packet.AsRead
  | .message packet => packet.AsRead

/-- A packet as it is stored: an announce goes into an object of its base class. -/
def Packet.asStored : Packet → Packet
  | .passAlong packet => .passAlong packet
  | .announce packet => .passAlong packet.toPacketPassAlong
  | .message packet => .message packet

@[simp] theorem Packet.asStored_asStored (object : Packet) :
    object.asStored.asStored = object.asStored := by
  cases object <;> rfl

theorem asRead_readAnnounce {count : Nat} (version : UInt8) :
    YieldsBehind count (Announce.read typeAnnounce version) Announce.AsRead := by
  unfold Announce.read PacketPassAlong.read
  simp only [bind_assoc, Bool.false_eq_true, if_false, pure_bind]
  refine .bind_packetBase fun packet type recipient => .bind_readUint8 fun nameLen => ?_
  intro reader _
  refine ⟨⟨type, recipient, rfl, rfl⟩, ?_⟩
  have length : ((readData nameLen.toUInt16 reader).1.getD []).length ≤ _ :=
    length_readString_le nameLen.toUInt16 reader
  have bound := nameLen.toNat_lt
  simp only [UInt8.toNat_toUInt16] at length
  exact length.trans (by omega)

/-- What is kept of a received packet. -/
inductive ProtocolProcessor.Received.AsRead : Received → Prop where
  | ignored : AsRead .ignored
  | announce {packet : Announce} : packet.AsRead → AsRead (.announce packet)
  | message {packet : Message} : packet.AsRead → AsRead (.message packet)

theorem asRead_receive : YieldsBehind 0 receive Received.AsRead := by
  unfold receive
  refine .bind_readUint8 fun version => ?_
  split
  · exact .pure .ignored
  · refine .bind_readUint8 fun type => ?_
    split
    · rename_i announces
      subst announces
      exact .bind_pure (asRead_readAnnounce version) fun _ => .announce
    · split
      · rename_i speaks
        subst speaks
        exact .bind_pure (Message.asRead_read version) fun _ => .message
      · exact .pure .ignored

theorem asRead_received {offset : UInt16} {buffer : Buffer} {object : Packet}
    (kept : (received offset buffer).kept = some object) :
    object.AsRead ∧ object.asStored = object := by
  have asRead : (received offset buffer).AsRead :=
    asRead_receive (BinaryReader.new offset buffer) fun _ => Nat.zero_le _
  cases found : received offset buffer with
  | ignored =>
      rw [found] at kept
      cases kept
  | announce announce =>
      rw [found] at kept asRead
      cases kept
      cases asRead with
      | announce asRead => exact ⟨asRead.kept, rfl⟩
  | message message =>
      rw [found] at kept asRead
      cases kept
      cases asRead with
      | message asRead => exact ⟨asRead, rfl⟩

/-! ## What is sent -/

/-- A buffer that holds nothing but what a packet class reads. -/
theorem received_of_reads {bytes : Bytes} {found : Received}
    (reads : ReadsLast receive bytes found) (bounded : bytes.length < 2 ^ 16) :
    received 0 ⟨bytes, bounded⟩ = found := by
  have start : (BinaryReader.new 0 ⟨bytes, bounded⟩).At [] bytes [] :=
    ⟨by simp [BinaryReader.new], rfl⟩
  rw [received, reads _ [] start]

theorem readsLast_announce {rest : Bytes} {announce : Announce}
    (reads : ReadsLast (Announce.read typeAnnounce 1) rest announce) :
    ReadsLast receive ([1] ++ ([typeAnnounce] ++ rest)) (.announce announce) := by
  refine ReadsLast.bind (Reads.uint8 1) ?_
  rw [if_neg (by decide)]
  refine ReadsLast.bind (Reads.uint8 typeAnnounce) ?_
  rw [if_pos rfl]
  exact reads.map Received.announce

theorem readsLast_message {rest : Bytes} {message : Message}
    (reads : ReadsLast (Message.read typeMessage 1) rest message) :
    ReadsLast receive ([1] ++ ([typeMessage] ++ rest)) (.message message) := by
  refine ReadsLast.bind (Reads.uint8 1) ?_
  rw [if_neg (by decide)]
  refine ReadsLast.bind (Reads.uint8 typeMessage) ?_
  rw [if_neg (by decide), if_pos rfl]
  exact reads.map Received.message

/-- A packet that some bytes are, for the repeater that receives them. -/
def Bears (bytes : Bytes) (object : Packet) : Prop :=
  ∃ bounded : bytes.length < 2 ^ 16, (received 0 ⟨bytes, bounded⟩).kept = some object

theorem bears_message {message : Message} (asRead : message.AsRead) {bytes : Bytes}
    (written : (Packet.message message).writePacket [] = some bytes) :
    Bears bytes (.message message) := by
  have clear : message.hasSenderPeerID = false := by
    have writable := writePacket_message_isSome.mp (Option.isSome_iff_exists.mpr ⟨_, written⟩)
    rw [asRead.senderPeer] at writable
    simpa using writable
  have encodable := asRead.encodable clear
  have same : ({ message with senderPeer := none } : Message) = message := by
    rw [← asRead.senderPeer]
  rw [message.writePacket_eq encodable, Option.some.injEq] at written
  subst written
  have reads := message.reads 1 encodable.fits
  rw [same, asRead.type] at reads
  have bounded := asRead.bounded
  unfold Message.encoding at bounded
  rw [asRead.type] at bounded ⊢
  have found := received_of_reads (readsLast_message (.of_reads reads)) bounded
  exact ⟨bounded, congrArg Received.kept found⟩

theorem length_announce_head (packet : PacketBase) (rest : Bytes) :
    ([1] ++ ([packet.packetType] ++ (packet.toBase.fields ++ packet.writePacketPayload [] ++
      rest))).length ≤ 28 + rest.length := by
  have head := packet.length_head_le
  rw [PacketBase.head, List.length_append] at head
  simp only [List.length_append, List.length_cons, List.length_nil]
  omega

theorem bears_announce {announce : Announce} (asRead : announce.AsRead) {bytes : Bytes}
    (written : (Packet.announce announce).writePacket [] = some bytes) :
    Bears bytes (.passAlong announce.toPacketPassAlong) := by
  have same : ({ announce with payload := [] } : Announce) = announce := by
    rw [← asRead.kept.payload]
  rw [announce.writePacket_eq asRead.name, Option.some.injEq] at written
  subst written
  have short : (shortString announce.name).length ≤ 256 := by
    have := asRead.name
    simp only [shortString, List.length_append, List.length_cons, List.length_nil]
    omega
  have bound := length_announce_head announce.toPacketBase (shortString announce.name)
  have bounded := lt_of_le_of_lt (bound.trans (Nat.add_le_add_left short 28))
    (by decide : 28 + 256 < 2 ^ 16)
  have reads := announce.reads 1 asRead.kept.recipient asRead.name
  rw [same, asRead.kept.type] at reads
  rw [asRead.kept.type] at bounded ⊢
  have found := received_of_reads (readsLast_announce (.of_reads reads)) bounded
  exact ⟨bounded, congrArg Received.kept found⟩

theorem bears_passAlong {packet : PacketPassAlong} (asRead : packet.AsRead) {bytes : Bytes}
    (written : (Packet.passAlong packet).writePacket [] = some bytes) :
    Bears bytes (.passAlong packet) := by
  let announce : Announce := { packet with noPayload := asRead.noPayload }
  have sliced := writePacket_sliced announce
  have reads := @readsLast_sliced announce 1 asRead.recipient asRead.payload
  rw [show announce.packetType = typeAnnounce from asRead.type] at sliced reads
  rw [Option.some.inj (written.symm.trans sliced)]
  have bound := length_announce_head packet.toPacketBase []
  rw [List.append_nil, asRead.type] at bound
  have bounded := lt_of_le_of_lt bound (by decide : 28 + 0 < 2 ^ 16)
  have found := received_of_reads (readsLast_announce reads) bounded
  exact ⟨bounded, congrArg Received.kept found⟩

/-- What is written of a packet is, for the repeater that receives it, the packet as it is
stored. -/
theorem bears_of_written {object : Packet} (asRead : object.AsRead) {bytes : Bytes}
    (written : object.writePacket [] = some bytes) : Bears bytes object.asStored := by
  cases object with
  | passAlong packet => exact bears_passAlong asRead written
  | announce announce => exact bears_announce asRead written
  | message message => exact bears_message asRead written

theorem bears_unique {bytes : Bytes} {left right : Packet} (first : Bears bytes left)
    (second : Bears bytes right) : left = right := by
  obtain ⟨_, first⟩ := first
  obtain ⟨_, second⟩ := second
  exact Option.some.inj (first.symm.trans second)

/-! ## What a repeater makes itself -/

theorem length_messageContentString (timestampMs : UInt64) (lifeCheck smokeSeen : Bool) :
    (messageContentString timestampMs lifeCheck smokeSeen).length ≤ 29 := by
  have alive : stillAliveString.length = 12 := rfl
  have seen : smokeSeenString.length = 11 := rfl
  cases lifeCheck <;> cases smokeSeen <;>
    simp [messageContentString, writeUint8, writeUint16Hex16, writeUint8Hex16, writeData,
      alive, seen]

theorem length_ownName (localAddress : Bytes) : (ownName localAddress).length = 13 := by
  simp [ownName, packetServiceName, writeUint8Hex16]

theorem length_messageIdString (sender timestampMs : UInt64) :
    (messageIdString sender timestampMs).length = 13 := by
  simp [messageIdString, writeUint8, writeUint32, writeUint64]

theorem asRead_pinMessage (platform : Platform) (timestampMs : UInt64)
    (lifeCheck smokeSeen : Bool) :
    (pinMessage platform timestampMs lifeCheck smokeSeen).AsRead := by
  have content := length_messageContentString timestampMs lifeCheck smokeSeen
  have name := length_ownName platform.localAddress
  have id := length_messageIdString (senderOfAddress platform.localAddress) timestampMs
  have head :=
    (pinMessage platform timestampMs lifeCheck smokeSeen).toPacketBase.length_head_le
  refine ⟨rfl, ⟨fun _ => rfl, id.le.trans (by decide), name.le.trans (by decide),
    content.trans (by decide)⟩, rfl, ?_⟩
  rw [Message.length_encoding]
  dsimp only [pinMessage] at head ⊢
  omega

/-- The own announce is an announce as it is read, at any time. -/
theorem asRead_of_announceKept {platform : Platform} {tracker : Tracker}
    (kept : tracker.AnnounceKept platform) : tracker.announce.object.AsRead := by
  rcases kept with fresh | ⟨timestamp, set⟩
  · rw [fresh]
    exact ⟨⟨rfl, fun _ => rfl, rfl, rfl⟩, Nat.zero_le _⟩
  · rw [set]
    have name := length_ownName platform.localAddress
    exact ⟨⟨rfl, fun _ => rfl, rfl, rfl⟩, name.le.trans (by decide)⟩

/-! ## What an event brings -/

namespace Repeater

/-- What an event may add to the stored objects. -/
def Event.Brings (platform : Platform) (repeater : Repeater) (object : Packet) : Event → Prop
  | .handlePinActivity uptime _ => (repeater.smokeSeen || repeater.lifeCheck) = true ∧
      object = .message (pinMessageOf platform repeater uptime)
  | .processWrite _ _ _ _ offset buffer => (received offset buffer).kept = some object
  | _ => False

variable {platform : Platform} {before after : Repeater} {event : Event}

/-- What is stored after an operation was stored before or is carried by it. -/
theorem holds_of_operation {before after : Tracker} {operation : Operation}
    (step : OperationStep platform before operation after) {address : Address}
    {place : Place} {object : Packet} (holds : after.Holds address place object)
    (stored : place ≠ .announce) :
    before.Holds address place object ∨ operation.Carries object := by
  cases effect_of_step step with
  | relists _ relists =>
      obtain ⟨other, there, same⟩ := relists.holds holds
      rw [same stored]
      exact Or.inl there
  | stores _ carries _ stores =>
      rcases stores.added holds with old | ⟨rfl, rfl⟩
      · exact Or.inl old
      · rw [holds.object_eq stores.here]
        exact Or.inr carries
  | cleans _ cleans => exact Or.inl (cleans.holds holds).1

/-- Operations that handle one object store nothing else. -/
theorem holds_of_handles {address fresh : Address} {kept : Option Packet} {place : Place}
    {object : Packet} {start finish : Tracker} {operations : List Operation}
    (run : Run (Guarded (Handles fresh kept) (OperationStep platform)) start operations finish)
    (holds : finish.Holds address place object) (stored : place ≠ .announce) :
    start.Holds address place object ∨ kept = some object := by
  induction run with
  | nil => exact Or.inl holds
  | cons head _ ih =>
      obtain ⟨handles, step⟩ := head
      rcases ih holds with middle | same
      · exact (holds_of_operation step middle stored).imp_right (handles.carries object)
      · exact Or.inr same

/-- What is stored after an event was stored before, or the event brings it. -/
theorem holds_or_brings (separate : before.tracker.Separate)
    (step : EventStep platform before event after) {address : Address} {place : Place}
    {object : Packet} (holds : after.tracker.Holds address place object)
    (stored : place ≠ .announce) :
    before.tracker.Holds address place object ∨ event.Brings platform before object := by
  cases event with
  | gpioCallback gpio fell =>
      cases step.2
      exact Or.inl holds
  | tracker operation =>
      have main : direct operation = true := step.1
      refine (holds_of_operation (operation_of_event step) holds stored).imp_right ?_
      intro carries
      cases operation <;> first | exact carries.elim | cases main
  | handlePinActivity uptime address =>
      by_cases pressed : (before.smokeSeen || before.lifeCheck) = true
      · obtain ⟨operations, run⟩ := handlePinActivity_run separate step.1 step.2
        refine (holds_of_handles run holds stored).imp_right fun same => ⟨pressed, ?_⟩
        exact (Option.some.inj same).symm
      · have idle : some before = some after :=
          (handlePinActivity_idle pressed).symm.trans step.2
        cases idle
        exact Or.inl holds
  | processWrite uptime address connection conHandle offset buffer =>
      obtain ⟨tracker, processed, same⟩ := Option.bind_eq_some_iff.mp step.2
      cases same
      obtain ⟨operations, run⟩ := processWrite_run separate step.1 processed
      exact holds_of_handles run holds stored

theorem rawPackets_heard (tracker : Tracker) (uptime : UInt64) (conHandle : UInt16)
    (announce : Announce) :
    (heard tracker uptime conHandle announce).rawPackets = tracker.rawPackets := by
  unfold heard updateOrStorePeerNameFromAnnouncement
  dsimp only
  split <;> simp

/-- Receiving a packet sends nothing. -/
theorem rawPackets_processWrite {before after : Tracker} {uptime : UInt64}
    {address : Address} {connection : ConnectionRef} {conHandle offset : UInt16}
    {buffer : Buffer}
    (done : processWrite platform before uptime address connection conHandle offset buffer =
      some after) : after.rawPackets = before.rawPackets := by
  unfold processWrite at done
  split at done
  · rename_i announce _
    cases known : before.packets.find?
        (packetHash platform announce.toPacketPassAlong).toNat with
    | some entry =>
        cases (processAnnounce_known known).symm.trans done
        exact rawPackets_heard before uptime conHandle announce
    | none =>
        rw [processAnnounce_new known] at done
        rw [rawPackets_enqueueBroadcastPacketFrom done, rawPackets_checkSenderInPeers,
          rawPackets_storePacketAndReturnIfNew, rawPackets_heard]
  · rename_i message _
    cases known : before.messages.find? message.messageId with
    | some entry =>
        cases (processMessage_known known).symm.trans done
        rfl
    | none =>
        rw [processMessage_new known] at done
        rw [rawPackets_enqueueBroadcastPacketFrom done, rawPackets_checkSenderInPeers,
          rawPackets_storeMessageAndReturnIfNew]
  · cases done
    rfl

/-- Only sending, and the callbacks, change the raw queues. -/
theorem rawPackets_of_event (step : EventStep platform before event after)
    (noSend : event ≠ .tracker .sendPackets)
    (noNotify : ∀ conHandle ret, event ≠ .tracker (.notifyRawPacket conHandle ret))
    (noWrite : ∀ conHandle ret, event ≠ .tracker (.writeRawPacket conHandle ret)) :
    after.tracker.rawPackets = before.tracker.rawPackets := by
  cases event with
  | gpioCallback gpio fell =>
      cases step.2
      rfl
  | tracker operation =>
      refine rawPackets_of_step (operation_of_event step) ?_ ?_ ?_
      · exact fun same => noSend (congrArg Event.tracker same)
      · exact fun conHandle ret same => noNotify conHandle ret (congrArg Event.tracker same)
      · exact fun conHandle ret same => noWrite conHandle ret (congrArg Event.tracker same)
  | handlePinActivity uptime address =>
      rcases handlePinActivity_cases step.2 with same | ⟨_, queued⟩
      · rw [same]
      · rw [rawPackets_enqueueBroadcastPacket queued, rawPackets_storeMessageAndReturnIfNew]
  | processWrite uptime address connection conHandle offset buffer =>
      obtain ⟨tracker, processed, same⟩ := Option.bind_eq_some_iff.mp step.2
      cases same
      exact rawPackets_processWrite processed

end Repeater

end BleRepeater
