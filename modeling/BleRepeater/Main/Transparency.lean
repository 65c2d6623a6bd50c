import BleRepeater.Main.Repeater
import BleRepeater.Packet.RoundTrip

/-!
# Transparency

A message is sent on as the reader found it: its fixed fields, its id, its nickname and its
content.  The flags may announce more sections behind the content.  The reader takes the
flags and leaves the sections, so what is sent on equals what was received exactly when
nothing follows the content.
-/

namespace BleRepeater

open BinaryReader BinaryWriter Transition Tracker ProtocolProcessor Repeater

/-! ## Receiving a message -/

namespace Message

/-- A message as it is sent: its own type, a TTL, strings that fit their lengths, no flag
for a sender peer, and no sender peer. -/
structure Complete (message : Message) : Prop where
  type : message.packetType = typeMessage
  travels : message.packetTtl > 0
  encodable : message.Encodable
  senderPeer : message.senderPeer = none

/-- A buffer that holds the encoding of a message at an offset, and further sections behind
it. -/
def Carried (message : Message) (sections : Bytes) (offset : UInt16) (buffer : Buffer) :
    Prop :=
  ∃ bytes front, (Packet.message message).writePacket [] = some bytes ∧
    front.length = offset.toNat ∧ buffer.bytes = front ++ (bytes ++ sections)

/-- The encoding of a complete message reads as that message. -/
theorem reads_receive {message : Message} (complete : message.Complete) :
    Reads receive ([1] ++ ([message.packetType] ++ (message.toBase.fields ++
      message.toPacketBase.writePacketPayload [] ++ message.body))) (.message message) := by
  have same : ({ message with senderPeer := none } : Message) = message := by
    rw [← complete.senderPeer]
  have reads := message.reads 1 complete.encodable.fits
  rw [same, complete.type] at reads
  refine (Reads.uint8 1).bind ?_
  rw [if_neg (by decide), complete.type]
  refine (Reads.uint8 typeMessage).bind ?_
  rw [if_neg (by decide), if_pos rfl]
  exact reads.map Received.message

theorem received_carried {message : Message} (complete : message.Complete)
    {sections : Bytes} {offset : UInt16} {buffer : Buffer}
    (carried : message.Carried sections offset buffer) :
    received offset buffer = .message message := by
  obtain ⟨bytes, front, written, place, split⟩ := carried
  rw [message.writePacket_eq complete.encodable, Option.some.injEq] at written
  have at_ : (BinaryReader.new offset buffer).At front ([1] ++ ([message.packetType] ++
      (message.toBase.fields ++ message.toPacketBase.writePacketPayload [] ++
        message.body))) sections := by
    refine ⟨?_, place.symm⟩
    rw [BinaryReader.new, split, ← written]
    simp
  rw [received, reads_receive complete _ front sections at_]

end Message

/-! ## What is sent on -/

/-- What is sent equals what was received, except possibly in the TTL byte.  In particular
every section that the flags announce is there. -/
def Transparent (received sent : Bytes) : Prop :=
  ∃ ttl, sent = received.set 2 ttl

/-- Bytes followed by sections are sent on transparently exactly when there are none. -/
theorem transparent_iff {message : Message} (encodable : message.Encodable)
    {bytes sections : Bytes}
    (written : (Packet.message message).writePacket [] = some bytes) :
    Transparent (bytes ++ sections) bytes ↔ sections = [] := by
  rw [message.writePacket_eq encodable, Option.some.injEq] at written
  constructor
  · intro ⟨ttl, same⟩
    have lengths := congrArg List.length same
    rw [List.length_set, List.length_append] at lengths
    exact List.eq_nil_of_length_eq_zero (by omega)
  · intro none
    subst none written
    exact ⟨message.packetTtl, by simp [Base.fields]⟩

/-- A complete message that is accepted as new waits to be sent on.  What is handed over of
it at any later time, as long as it is not erased, is what was received without the sections
behind the content, flags included, and so equals what was received exactly when there are
no such sections. -/
theorem relayed_transparent_iff {platform : Platform} {start packet : Address}
    {events later : List Event} {before accepted sending : Repeater} {message : Message}
    {sections : Bytes} {uptime : UInt64} {connection : ConnectionRef}
    {conHandle offset : UInt16} {buffer : Buffer} (complete : message.Complete)
    (carried : message.Carried sections offset buffer)
    (run : Run (EventStep platform) (Repeater.new start) events before)
    (new : before.tracker.messages.find? message.messageId = none)
    (step : EventStep platform before
      (.processWrite uptime packet connection conHandle offset buffer) accepted)
    (spared : Run (Guarded (Spares packet) (EventStep platform)) accepted later sending) :
    packet ∈ accepted.tracker.broadcastPacketsToSendList ∧
      ∃ bytes, bytes ++ sections = buffer.bytes.drop offset.toNat ∧
        (∀ tracker targeted broadcast consideration,
          sending.tracker.sendPackets = some (tracker, targeted, broadcast) →
          consideration ∈ targeted ++ broadcast → consideration.packet = packet →
          consideration.written = some bytes) ∧
        (Transparent (buffer.bytes.drop offset.toNat) bytes ↔ sections = []) := by
  have found := Message.received_carried complete carried
  have separate := separate_of_run run
  have next := separate_of_event separate step
  obtain ⟨tracker, processed, same⟩ := Option.bind_eq_some_iff.mp step.2
  cases same
  obtain ⟨object, keeps, accepts⟩ := accepted_of_processWrite separate step.1
    (by rw [found]; exact new) processed
  rw [found] at keeps
  cases keeps
  have stored := packetAt_of_run spared next accepts.found accepts.stored
  obtain ⟨bytes, front, written, place, split⟩ := carried
  have dropped : buffer.bytes.drop offset.toNat = bytes ++ sections := by
    rw [split, ← place, List.drop_left]
  refine ⟨?_, bytes, dropped.symm, ?_, ?_⟩
  · have travels : (Packet.message message).base.packetTtl > 0 := complete.travels
    rw [accepts.queued, if_pos travels]
    simp
  · intro tracker targeted broadcast consideration sent member same
    rw [← same] at stored
    rw [written_considered sent member stored, written]
  · rw [dropped]
    exact transparent_iff complete.encodable written

/-- A message of id 5 from sender 9. -/
def plain : Message :=
  { packetType := typeMessage, packetTtl := 7, packetTimestamp := 1000, packetSenderId := 9,
    messageTimestamp := 1000, messageId := [5], content := [104, 105] }

/-- The plain message, as it is received over 0x40. -/
def plainArrival : Buffer :=
  ⟨[1, 66, 7, 0, 0, 0, 0, 0, 0, 3, 232, 0, 0, 0, 0, 0, 0, 0, 0, 9, 0,
    0, 0, 0, 0, 0, 0, 3, 232, 1, 5, 0, 0, 2, 104, 105], by decide⟩

/-- Something can be sent to 0x41, and 0x40 is connected. -/
def linksOpened : List Event :=
  [.tracker (.reportConnection 0 0x41 [1, 2, 3, 4, 5, 7] 0),
    .tracker (.updateConnection ⟨0x41, 0⟩ fun connection =>
      { connection with packetCharacteristicValueHandle := 9 }),
    .tracker (.reportConnection 0 0x40 [1, 2, 3, 4, 5, 6] 0)]

/-- The one packet that a call of `sendPackets` hands over after some events. -/
theorem handed_of_outcome {events : List Event} {packet : Address} {written : Option Bytes}
    (outcome : (follow (Event.next bytesSummed · ·) events (Repeater.new 100)).bind
      (fun repeater => repeater.tracker.sendPackets.map fun sent =>
        ((sent.2.1 ++ sent.2.2).filter Consideration.handed).map fun consideration =>
          (consideration.packet, consideration.written)) = some [(packet, written)]) :
    ∃ repeater tracker targeted broadcast consideration,
      Run (EventStep bytesSummed) (Repeater.new 100) events repeater ∧
      repeater.tracker.sendPackets = some (tracker, targeted, broadcast) ∧
      consideration ∈ targeted ++ broadcast ∧ consideration.handed = true ∧
      consideration.packet = packet ∧ consideration.written = written := by
  obtain ⟨repeater, done, outcome⟩ := Option.bind_eq_some_iff.mp outcome
  obtain ⟨⟨tracker, targeted, broadcast⟩, sent, outcome⟩ := Option.map_eq_some_iff.mp outcome
  obtain ⟨consideration, only, same⟩ := List.map_eq_singleton_iff.mp outcome
  obtain ⟨named, wrote⟩ := Prod.mk.inj same
  have member : consideration ∈ (targeted ++ broadcast).filter Consideration.handed := by
    simp [only]
  obtain ⟨considered, handed⟩ := List.mem_filter.mp member
  exact ⟨repeater, tracker, targeted, broadcast, consideration,
    Run.of_follow event_of_next done, sent, considered, handed, named, wrote⟩

/-- The message goes on to 0x41 byte for byte. -/
theorem relayed_transparent_iff_plain :
    ∃ before accepted tracker targeted broadcast consideration bytes,
      Run (EventStep bytesSummed) (Repeater.new 100) linksOpened before ∧
      EventStep bytesSummed before
        (.processWrite 0 200 ⟨0x40, 1⟩ 0x40 0 plainArrival) accepted ∧
      accepted.tracker.sendPackets = some (tracker, targeted, broadcast) ∧
      consideration ∈ targeted ++ broadcast ∧ consideration.handed = true ∧
      consideration.packet = 200 ∧ consideration.written = some bytes ∧
      bytes = plainArrival.bytes ∧ Transparent plainArrival.bytes bytes := by
  have complete : plain.Complete :=
    ⟨rfl, by decide, ⟨fun _ => rfl, rfl, by decide, by decide, by decide⟩, rfl⟩
  have carried : plain.Carried [] 0 plainArrival := ⟨_, [], rfl, rfl, rfl⟩
  have outcome : (follow (Event.next bytesSummed · ·)
      (linksOpened ++ [.processWrite 0 200 ⟨0x40, 1⟩ 0x40 0 plainArrival])
      (Repeater.new 100)).bind (fun repeater => repeater.tracker.sendPackets.map fun sent =>
        ((sent.2.1 ++ sent.2.2).filter Consideration.handed).map fun consideration =>
          (consideration.packet, consideration.written)) =
      some [(200, some plainArrival.bytes)] := by decide
  obtain ⟨accepted, tracker, targeted, broadcast, consideration, run, sent, member, handed,
    packet, _⟩ := handed_of_outcome outcome
  obtain ⟨before, opens, last⟩ := run.exists_of_append
  cases last with
  | cons step rest =>
      cases rest
      obtain ⟨known, found⟩ := Option.map_eq_some_iff.mp
        (show (follow (Event.next bytesSummed · ·) linksOpened (Repeater.new 100)).map
          (fun before => before.tracker.messages.find? plain.messageId) = some none by decide)
      cases opens.eq_of_functional eventStep_functional
        (Run.of_follow event_of_next found.1)
      obtain ⟨_, bytes, whole, written, transparent⟩ :=
        relayed_transparent_iff complete carried opens found.2 step (.nil accepted)
      rw [List.append_nil] at whole
      exact ⟨_, accepted, tracker, targeted, broadcast, consideration, bytes, opens, step, sent,
        member, handed, packet, written tracker targeted broadcast consideration sent member
          packet, whole, transparent.mpr rfl⟩

/-- The message with the flag for a signature. -/
def signed : Message :=
  { plain with packetFlags := 0x02 }

/-- The signed message with a signature of 64 bytes, as it is received over 0x40. -/
def signedArrival : Buffer :=
  ⟨[1, 66, 7, 0, 0, 0, 0, 0, 0, 3, 232, 2, 0, 0, 0, 0, 0, 0, 0, 9, 0,
    0, 0, 0, 0, 0, 0, 3, 232, 1, 5, 0, 0, 2, 104, 105] ++ List.replicate 64 7, by decide⟩

/-- The message goes on with the flag and without the signature. -/
theorem relayed_message_unsigned :
    signed.Complete ∧ signed.Carried (List.replicate 64 7) 0 signedArrival ∧
      ∃ repeater tracker targeted broadcast consideration bytes,
        Run (EventStep bytesSummed) (Repeater.new 100)
          (linksOpened ++ [.processWrite 0 200 ⟨0x40, 1⟩ 0x40 0 signedArrival]) repeater ∧
        repeater.tracker.sendPackets = some (tracker, targeted, broadcast) ∧
        consideration ∈ targeted ++ broadcast ∧ consideration.handed = true ∧
        consideration.packet = 200 ∧ consideration.written = some bytes ∧
        bytes = [1, 66, 7, 0, 0, 0, 0, 0, 0, 3, 232, 2, 0, 0, 0, 0, 0, 0, 0, 9, 0,
          0, 0, 0, 0, 0, 0, 3, 232, 1, 5, 0, 0, 2, 104, 105] ∧
        ¬ Transparent signedArrival.bytes bytes := by
  have complete : signed.Complete :=
    ⟨rfl, by decide, ⟨fun _ => rfl, rfl, by decide, by decide, by decide⟩, rfl⟩
  have outcome : (follow (Event.next bytesSummed · ·)
      (linksOpened ++ [.processWrite 0 200 ⟨0x40, 1⟩ 0x40 0 signedArrival])
      (Repeater.new 100)).bind (fun repeater => repeater.tracker.sendPackets.map fun sent =>
        ((sent.2.1 ++ sent.2.2).filter Consideration.handed).map fun consideration =>
          (consideration.packet, consideration.written)) =
      some [(200, some [1, 66, 7, 0, 0, 0, 0, 0, 0, 3, 232, 2, 0, 0, 0, 0, 0, 0, 0, 9, 0,
        0, 0, 0, 0, 0, 0, 3, 232, 1, 5, 0, 0, 2, 104, 105])] := by decide
  obtain ⟨repeater, tracker, targeted, broadcast, consideration, run, sent, considered, handed,
    packet, written⟩ := handed_of_outcome outcome
  refine ⟨complete, ⟨_, [], rfl, rfl, rfl⟩, repeater, tracker, targeted, broadcast,
    consideration, _, run, sent, considered, handed, packet, written, rfl, ?_⟩
  intro transparent
  have none : List.replicate 64 (7 : UInt8) = [] :=
    (transparent_iff complete.encodable rfl).mp transparent
  cases none

end BleRepeater
