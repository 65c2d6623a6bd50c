import BleRepeater.Main.Repeater
import BleRepeater.Packet.RoundTrip

/-!
# Relaying announces

A received announce is stored as an object of its base class, which has no name.  What the
repeater sends on therefore ends where the length of the name should stand, and the next
repeater reads an empty name.
-/

namespace BleRepeater

open BinaryReader BinaryWriter Transition Tracker ProtocolProcessor Repeater

/-! ## Receiving an announce -/

namespace Announce

/-- An announce as it is sent: its own type, a TTL, a name that fits its length byte, and
no payload beside. -/
structure Complete (announce : Announce) : Prop where
  type : announce.packetType = typeAnnounce
  travels : announce.packetTtl > 0
  recipient : announce.RecipientFlagged
  name : announce.name.length ≤ 255
  payload : announce.payload = []

/-- A buffer that holds the encoding of an announce at an offset. -/
def Carried (announce : Announce) (offset : UInt16) (buffer : Buffer) : Prop :=
  ∃ bytes front rest, (Packet.announce announce).writePacket [] = some bytes ∧
    front.length = offset.toNat ∧ buffer.bytes = front ++ bytes ++ rest

/-- The encoding of a complete announce reads as that announce. -/
theorem reads_receive {announce : Announce} (complete : announce.Complete) :
    Reads receive ([1] ++ ([announce.packetType] ++ announce.body)) (.announce announce) := by
  have same : ({ announce with payload := [] } : Announce) = announce := by
    rw [← complete.payload]
  have reads := announce.reads 1 complete.recipient complete.name
  rw [same, complete.type] at reads
  refine (Reads.uint8 1).bind ?_
  rw [if_neg (by decide), complete.type]
  refine (Reads.uint8 typeAnnounce).bind ?_
  rw [if_pos rfl]
  exact reads.map Received.announce

theorem received_carried {announce : Announce} (complete : announce.Complete)
    {offset : UInt16} {buffer : Buffer} (carried : announce.Carried offset buffer) :
    received offset buffer = .announce announce := by
  obtain ⟨bytes, front, rest, written, place, split⟩ := carried
  rw [announce.writePacket_eq complete.name, Option.some.injEq] at written
  have at_ : (BinaryReader.new offset buffer).At front
      ([1] ++ ([announce.packetType] ++ announce.body)) rest := by
    refine ⟨?_, place.symm⟩
    rw [BinaryReader.new, split, ← written]
    simp
  rw [received, reads_receive complete _ front rest at_]

end Announce

/-! ## What is sent on -/

/-- What is left of an announce in the store. -/
theorem writePacket_sliced (announce : Announce) :
    (Packet.passAlong announce.toPacketPassAlong).writePacket [] =
      some ([1] ++ ([announce.packetType] ++ (announce.toBase.fields ++
        announce.toPacketBase.writePacketPayload []))) := by
  simp only [Packet.writePacket, Packet.base, Base.writePacket_eq]
  change some (announce.toPacketPassAlong.writePacketPayload _) = _
  simp only [PacketPassAlong.writePacketPayload, announce.noPayload, Bool.false_eq_true,
    if_false]
  rw [PacketBase.writePacketPayload_eq_append]
  simp

/-- Without the bytes of the name, an announce reads as one without a name. -/
theorem readsLast_sliced {announce : Announce} (version : UInt8)
    (recipient : announce.RecipientFlagged) (payload : announce.payload = []) :
    ReadsLast (Announce.read announce.packetType version)
      (announce.toBase.fields ++ announce.toPacketBase.writePacketPayload [])
      { announce with name := [] } := by
  have whole : ({ announce with name := [] } : Announce) =
      { announce.toPacketBase with
        hasPayload := false
        noPayload := rfl
        name := (some ([] : Bytes)).getD [] } := by
    cases announce with
    | mk base name noPayload =>
        cases base
        simp only at noPayload payload
        subst noPayload payload
        rfl
  have passAlong := (PacketBase.reads_fields announce.toPacketBase version recipient).map
    fun packet => ({ packet with hasPayload := false } : PacketPassAlong)
  rw [whole, ← List.append_nil (_ ++ _)]
  refine ReadsLast.bind passAlong (ReadsLast.bind_nil .uint8 (.of_reads ?_))
  exact (Reads.data [] 0 rfl).map fun nameData => ({ announce.toPacketBase with
    hasPayload := false
    noPayload := rfl
    name := nameData.getD [] } : Announce)

/-- The next repeater finds an announce without a name. -/
theorem received_sliced {announce : Announce} (complete : announce.Complete) {bytes : Bytes}
    (written : (Packet.passAlong announce.toPacketPassAlong).writePacket [] = some bytes)
    (bounded : bytes.length < 2 ^ 16) :
    received 0 ⟨bytes, bounded⟩ = .announce { announce with name := [] } := by
  rw [writePacket_sliced, Option.some.injEq] at written
  subst written
  have reads : ReadsLast receive ([1] ++ ([announce.packetType] ++
      (announce.toBase.fields ++ announce.toPacketBase.writePacketPayload [])))
      (.announce { announce with name := [] }) := by
    have sliced := readsLast_sliced 1 complete.recipient complete.payload
    rw [complete.type] at sliced ⊢
    refine ReadsLast.bind (Reads.uint8 1) ?_
    rw [if_neg (by decide)]
    refine ReadsLast.bind (Reads.uint8 typeAnnounce) ?_
    rw [if_pos rfl]
    exact sliced.map Received.announce
  have start : (BinaryReader.new 0 ⟨_, bounded⟩).At [] ([1] ++ ([announce.packetType] ++
      (announce.toBase.fields ++ announce.toPacketBase.writePacketPayload []))) [] :=
    ⟨by simp [BinaryReader.new], rfl⟩
  rw [received, reads _ [] start]

/-! ## The recorded name -/

/-- The name under which a tracker knows a peer. -/
def Named (sender : UInt64) (name : Bytes) (tracker : Tracker) : Prop :=
  (tracker.peers.find? sender).map Peer.name = some name

theorem peers_storePacketAndReturnIfNew (platform : Platform) (tracker : Tracker)
    (address : Address) (passAlong : PacketPassAlong) :
    (storePacketAndReturnIfNew platform tracker address passAlong).2.peers =
      tracker.peers := by
  rw [storePacketAndReturnIfNew_frame]

theorem peers_enqueueBroadcastPacketFrom {tracker after : Tracker} {packet : Address}
    {fromConnection : ConnectionRef} {fromPeer : UInt64}
    (done : tracker.enqueueBroadcastPacketFrom packet fromConnection fromPeer =
      some after) : after.peers = tracker.peers := by
  rw [enqueueBroadcastPacket_frame done]

theorem named_checkSenderInPeers {sender : UInt64} {name : Bytes} {tracker : Tracker}
    (other : UInt64) (named : Named sender name tracker) :
    Named sender name (tracker.checkSenderInPeers other) := by
  unfold checkSenderInPeers
  split
  · exact named
  · rename_i absent
    have different : sender ≠ other := by
      rintro rfl
      simp [Named, absent] at named
    simpa [Named, OrderedMap.find?_insert_of_ne different] using named

theorem find?_checkSenderInPeers (tracker : Tracker) (sender : UInt64) :
    ((tracker.checkSenderInPeers sender).peers.find? sender).isSome := by
  unfold checkSenderInPeers
  split
  · rename_i known
    simp [known]
  · simp

/-- After hearing an announce its sender goes by the announced name. -/
theorem named_heard (tracker : Tracker) (uptime : UInt64) (conHandle : UInt16)
    (announce : Announce) :
    Named announce.packetSenderId announce.name (heard tracker uptime conHandle announce) := by
  have clock : ∀ tracker : Tracker, (tracker.possiblyUpdateTimeOffset uptime
      announce.packetTimestampMs).peers = tracker.peers := by
    intro tracker
    unfold possiblyUpdateTimeOffset
    dsimp only
    split <;> rfl
  obtain ⟨peer, known⟩ := Option.isSome_iff_exists.mp
    (find?_checkSenderInPeers tracker announce.packetSenderId)
  simp only [Named, heard, clock, updateOrStorePeerNameFromAnnouncement]
  split <;>
    simp [updatePeer, setConnectionHandleForPeer, OrderedMap.find?_modify, known]

/-- Processing an announce, the sender goes by the announced name. -/
theorem named_processAnnounce {platform : Platform} {tracker after : Tracker}
    {uptime : UInt64} {address : Address} {connection : ConnectionRef}
    {conHandle : UInt16} {announce : Announce}
    (done : processAnnounce platform tracker uptime address connection conHandle announce =
      some after) : Named announce.packetSenderId announce.name after := by
  have named := named_heard tracker uptime conHandle announce
  cases known : tracker.packets.find?
      (packetHash platform announce.toPacketPassAlong).toNat with
  | some entry =>
      rw [processAnnounce_known known] at done
      cases done
      exact named
  | none =>
      rw [processAnnounce_new known] at done
      have stored : Named announce.packetSenderId announce.name (storePacketAndReturnIfNew
          platform (heard tracker uptime conHandle announce) address
            announce.toPacketPassAlong).2 := by
        rwa [Named, peers_storePacketAndReturnIfNew]
      have checked := named_checkSenderInPeers announce.packetSenderId stored
      rwa [Named, peers_enqueueBroadcastPacketFrom done]

/-! ## What arrives -/

/-- The next repeater finds the announce in what is sent to it, and comes to know the sender
by the announced name. -/
structure Arrives (announce : Announce) (bytes : Bytes) : Prop where
  bounded : bytes.length < 2 ^ 16
  decodes : ∃ relayed : Announce, received 0 ⟨bytes, bounded⟩ = .announce relayed ∧
    relayed.packetTimestamp = announce.packetTimestamp ∧
    relayed.packetFlags = announce.packetFlags ∧
    relayed.packetSenderId = announce.packetSenderId ∧
    relayed.packetRecipientId = announce.packetRecipientId ∧
    relayed.name = announce.name
  records : ∀ (platform : Platform) (next after : Tracker) (uptime : UInt64)
    (address : Address) (connection : ConnectionRef) (conHandle : UInt16),
    processWrite platform next uptime address connection conHandle 0 ⟨bytes, bounded⟩ =
      some after → Named announce.packetSenderId announce.name after

/-- What is left of an announce in the store arrives as that announce exactly when the
announce has no name. -/
theorem arrives_sliced_iff {announce : Announce} (complete : announce.Complete)
    {bytes : Bytes}
    (written : (Packet.passAlong announce.toPacketPassAlong).writePacket [] = some bytes) :
    Arrives announce bytes ↔ announce.name = [] := by
  have bounded : bytes.length < 2 ^ 16 := by
    have nameless := Announce.writePacket_bounded { announce with name := [] } (by simp)
      (Announce.writePacket_eq _ (by simp))
    rw [writePacket_sliced, Option.some.injEq] at written
    subst written
    simp only [Announce.body, shortString, List.length_append, List.length_cons,
      List.length_nil] at nameless ⊢
    omega
  have sliced := received_sliced complete written bounded
  constructor
  · intro arrives
    obtain ⟨relayed, found, _, _, _, _, name⟩ := arrives.decodes
    cases found.symm.trans sliced
    exact name.symm
  · intro nameless
    refine ⟨bounded, ⟨_, sliced, rfl, rfl, rfl, rfl, nameless.symm⟩, ?_⟩
    intro platform next after uptime address connection conHandle done
    simp only [processWrite, sliced] at done
    have named := named_processAnnounce done
    rw [nameless]
    exact named

/-- A complete announce that is accepted as new waits to be sent on, and what is sent of it
at any later time, as long as it is not erased, arrives at the next repeater as that
announce exactly when it has no name. -/
theorem relayed_name_iff {platform : Platform} {start packet : Address}
    {events later : List Event} {before accepted sending : Repeater} {announce : Announce}
    {uptime : UInt64} {connection : ConnectionRef} {conHandle offset : UInt16}
    {buffer : Buffer} (complete : announce.Complete)
    (carried : announce.Carried offset buffer)
    (run : Run (EventStep platform) (Repeater.new start) events before)
    (new : before.tracker.packets.find?
      (packetHash platform announce.toPacketPassAlong).toNat = none)
    (step : EventStep platform before
      (.processWrite uptime packet connection conHandle offset buffer) accepted)
    (spared : Run (Guarded (Spares packet) (EventStep platform)) accepted later sending) :
    packet ∈ accepted.tracker.broadcastPacketsToSendList ∧
      ((∃ object bytes, sending.tracker.packetAt packet = some object ∧
        object.writePacket [] = some bytes ∧ Arrives announce bytes) ↔
          announce.name = []) := by
  have found := Announce.received_carried complete carried
  have separate := separate_of_run run
  have next := separate_of_event separate step
  obtain ⟨tracker, processed, same⟩ := Option.bind_eq_some_iff.mp step.2
  cases same
  obtain ⟨object, keeps, accepts⟩ := accepted_of_processWrite separate step.1
    (by rw [found]; exact new) processed
  rw [found] at keeps
  cases keeps
  have stored := packetAt_of_run spared next accepts.found accepts.stored
  constructor
  · have travels : (Packet.passAlong announce.toPacketPassAlong).base.packetTtl > 0 :=
      complete.travels
    rw [accepts.queued, if_pos travels]
    simp
  · constructor
    · intro ⟨object, bytes, there, written, arrives⟩
      cases there.symm.trans stored
      exact (arrives_sliced_iff complete written).mp arrives
    · intro nameless
      have written := writePacket_sliced announce
      exact ⟨_, _, stored, written, (arrives_sliced_iff complete written).mpr nameless⟩

/-- An announce without a name. -/
def anonymous : Announce :=
  { packetType := typeAnnounce, packetTtl := 3, packetTimestamp := 1000, packetSenderId := 9 }

/-- The anonymous announce, as it is received over 0x40. -/
def anonymousArrival : Event :=
  .processWrite 0 200 ⟨0x40, 0⟩ 0x40 0
    ⟨[1, 65, 3, 0, 0, 0, 0, 0, 0, 3, 232, 0, 0, 0, 0, 0, 0, 0, 0, 9, 0], by decide⟩

theorem relayed_name_iff_anonymous :
    ∃ accepted, EventStep bytesSummed (Repeater.new 100) anonymousArrival accepted ∧
      200 ∈ accepted.tracker.broadcastPacketsToSendList ∧
      ∃ object bytes, accepted.tracker.packetAt 200 = some object ∧
        object.writePacket [] = some bytes ∧ Arrives anonymous bytes := by
  have complete : anonymous.Complete := ⟨rfl, by decide, fun _ => rfl, by decide, rfl⟩
  obtain ⟨accepted, done⟩ := Option.isSome_iff_exists.mp
    (show (anonymousArrival.apply bytesSummed (Repeater.new 100)).isSome by decide)
  have step : EventStep bytesSummed (Repeater.new 100) anonymousArrival accepted :=
    ⟨rfl, done⟩
  have relayed := relayed_name_iff complete ⟨_, [], [], rfl, rfl, rfl⟩ (.nil _) rfl step
    (.nil accepted)
  exact ⟨accepted, step, relayed.1, relayed.2.mpr rfl⟩

/-- An announce of a sender by the name of A. -/
def named : Announce :=
  { anonymous with name := [65] }

/-- The announce of A, as it is received over 0x40. -/
def namedArrival : Event :=
  .processWrite 0 200 ⟨0x40, 0⟩ 0x40 0
    ⟨[1, 65, 3, 0, 0, 0, 0, 0, 0, 3, 232, 0, 0, 0, 0, 0, 0, 0, 0, 9, 1, 65], by decide⟩

/-- The announce of A is sent on without the name, so the next repeater does not come to
know its sender as A. -/
theorem relayed_announce_nameless :
    named.Complete ∧
      ∃ accepted, EventStep bytesSummed (Repeater.new 100) namedArrival accepted ∧
        200 ∈ accepted.tracker.broadcastPacketsToSendList ∧
        ∃ object bytes, accepted.tracker.packetAt 200 = some object ∧
          object.writePacket [] = some bytes ∧
          bytes = [1, 65, 3, 0, 0, 0, 0, 0, 0, 3, 232, 0, 0, 0, 0, 0, 0, 0, 0, 9] ∧
          ¬ Arrives named bytes := by
  have complete : named.Complete := ⟨rfl, by decide, fun _ => rfl, by decide, rfl⟩
  have outcome : (namedArrival.apply bytesSummed (Repeater.new 100)).map (fun repeater =>
      (repeater.tracker.broadcastPacketsToSendList, repeater.tracker.packetAt 200)) =
        some ([200], some (.passAlong named.toPacketPassAlong)) := by decide
  obtain ⟨accepted, done, same⟩ := Option.map_eq_some_iff.mp outcome
  obtain ⟨queued, found⟩ := Prod.mk.inj same
  refine ⟨complete, accepted, ⟨rfl, done⟩, by simp [queued], _, _, found, rfl, rfl, ?_⟩
  intro arrives
  have nameless := (arrives_sliced_iff complete rfl).mp arrives
  cases nameless

end BleRepeater
