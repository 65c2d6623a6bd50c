import BleRepeater.Library.Run
import BleRepeater.Ble.RawQueue

/-!
# Announcing, cleaning up, and the operations as one step relation

The periodic work of the tracker, and all its operations under one name, so that a run is
any sequence of them.  A step says what the callers of an operation are promised: a new
object comes to lie where no other object is, and a packet that is enqueued is there.
-/

namespace BleRepeater.Tracker

/-! ## Announcing -/

/-- `packet_service_name`. -/
def packetServiceName : Bytes := [82, 101, 112, 101, 97, 116, 101, 114]

/-- `memcpy(&sender, local_addr, BD_ADDR_LEN)` on a little-endian machine. -/
def senderOfAddress (localAddress : Bytes) : UInt64 :=
  (localAddress.take 6).foldr (fun byte sender => sender <<< 8 ||| byte.toUInt64) 0

/-- The name made of the service name and the last two bytes of the address. -/
def ownName (localAddress : Bytes) : Bytes :=
  let buffer := packetServiceName ++ [58]
  let buffer := BinaryWriter.writeUint8Hex16 buffer (localAddress.getD 4 0)
  BinaryWriter.writeUint8Hex16 buffer (localAddress.getD 5 0)

/-- Change the tracker's own announce. -/
def updateAnnounce (tracker : Tracker) (change : Announce → Announce) : Tracker :=
  { tracker with
    announce := ⟨tracker.announce.address, change tracker.announce.object⟩ }

/-- `BleConnectionTracker::setupAnnounceIfNeeded`. -/
def setupAnnounceIfNeeded (platform : Platform) (tracker : Tracker) : Tracker :=
  if tracker.announce.object.packetTtl = 3 then
    tracker
  else
    tracker.updateAnnounce fun announce =>
      { announce with
        packetTtl := 3
        packetFlags := 0
        packetSenderId := senderOfAddress platform.localAddress
        name := ownName platform.localAddress }

/-- The loop of `announceToConnections` over copies of the connections. -/
def announceEach (uptime : UInt64) (announcedTo : List ConnectionRef) :
    List BleConnection → Tracker → Option Tracker
  | [], tracker => some tracker
  | connection :: connections, tracker =>
      if available connection && decide (tracker.timestampOffsetMs ≥ buildTimeMs) then do
        let found ← tracker.findHandle connection.connectionHandle announcedTo
        if found then
          announceEach uptime announcedTo connections tracker
        else do
          let tracker := tracker.updateAnnounce fun announce =>
            { announce with packetTimestamp := tracker.timeMs uptime }
          let tracker ← tracker.enqueueTargetedPacket tracker.announce.address connection
          announceEach uptime announcedTo connections tracker
      else
        announceEach uptime announcedTo connections tracker

/-- `BleConnectionTracker::announceToConnections`. -/
def announceToConnections (platform : Platform) (tracker : Tracker) (uptime : UInt64) :
    Option Tracker :=
  let tracker := setupAnnounceIfNeeded platform tracker
  let announcedTo := tracker.packetsConnectionsSentList.equalRange tracker.announce.address
  announceEach uptime announcedTo
    (tracker.connections.entries.map fun entry => entry.2.connection) tracker

/-- The tracker with the clock in its announce, as it is when the announce is enqueued. -/
def stampAnnounce (tracker : Tracker) (uptime : UInt64) : Tracker :=
  tracker.updateAnnounce fun announce =>
    { announce with packetTimestamp := tracker.timeMs uptime }

/-- A turn of the loop does nothing for a connection that is not wanted or has been announced
to, and enqueues the stamped announce for any other. -/
theorem announceEach_cons {uptime : UInt64} {announcedTo : List ConnectionRef}
    {connection : BleConnection} {connections : List BleConnection} {tracker after : Tracker}
    (done : announceEach uptime announcedTo (connection :: connections) tracker =
      some after) :
    ((available connection && decide (tracker.timestampOffsetMs ≥ buildTimeMs)) = false ∨
        tracker.findHandle connection.connectionHandle announcedTo = some true) ∧
      announceEach uptime announcedTo connections tracker = some after ∨
    ∃ next, available connection = true ∧
      tracker.findHandle connection.connectionHandle announcedTo = some false ∧
      (tracker.stampAnnounce uptime).enqueueTargetedPacket tracker.announce.address
        connection = some next ∧
      announceEach uptime announcedTo connections next = some after := by
  simp only [announceEach, Option.bind_eq_bind] at done
  split at done
  · rename_i wanted
    obtain ⟨found, searched, done⟩ := Option.bind_eq_some_iff.mp done
    cases found with
    | true => exact Or.inl ⟨Or.inr searched, done⟩
    | false =>
        obtain ⟨next, queued, done⟩ := Option.bind_eq_some_iff.mp done
        exact Or.inr ⟨next, (Bool.and_eq_true_iff.mp wanted).1, searched, queued, done⟩
  · rename_i unwanted
    exact Or.inl ⟨Or.inl (Bool.eq_false_iff.mpr unwanted), done⟩

/-- What holds before the loop, and is kept whenever it enqueues the announce, holds after
it. -/
theorem announceEach_invariant {motive : Tracker → Prop} {uptime : UInt64}
    {announcedTo : List ConnectionRef} {connections : List BleConnection}
    {tracker after : Tracker}
    (done : announceEach uptime announcedTo connections tracker = some after)
    (keeps : ∀ {current next connection}, motive current →
      (current.stampAnnounce uptime).enqueueTargetedPacket current.announce.address
        connection = some next → motive next)
    (initial : motive tracker) : motive after := by
  induction connections generalizing tracker with
  | nil =>
      cases done
      exact initial
  | cons connection connections ih =>
      rcases announceEach_cons done with ⟨_, done⟩ | ⟨next, _, _, queued, done⟩
      · exact ih done initial
      · exact ih done (keeps initial queued)

/-! ## Cleaning up -/

/-- More than ten minutes before `now`; the sum wraps. -/
def stale (timestamp now : UInt64) : Bool :=
  decide (timestamp + tenMinutesInMs < now)

/-- The lambda `connection_stale`. -/
def connectionStale (now : UInt64) (connection : BleConnection) : Bool :=
  !connection.connected && stale connection.timestampMs now

/-- The lambda `packet_connection_stale`: it takes the timestamp of the packet for one in
milliseconds. -/
def packetConnectionStale (tracker : Tracker) (now : UInt64) (packet : Address)
    (connection : ConnectionRef) : Option Bool := do
  let object ← tracker.packetAt packet
  if stale object.base.packetTimestamp now then
    return true
  else
    let bleConnection ← tracker.connectionAt connection
    return connectionStale now bleConnection

/-- The lambdas `packet_peer_stale` and `packet_stale`. -/
def packetStale (tracker : Tracker) (now : UInt64) (packet : Address) : Option Bool := do
  let object ← tracker.packetAt packet
  return stale object.base.packetTimestampMs now

/-- `std::erase_if` with a predicate that follows pointers. -/
def eraseIfFollowed {ν : Type} (list : MultiMap Address ν)
    (condition : Address → ν → Option Bool) : Option (MultiMap Address ν) :=
  if list.entries.all fun entry => (condition entry.1 entry.2).isSome then
    some (list.eraseIf fun packet item => (condition packet item).getD false)
  else none

/-- `BleConnectionTracker::cleanupStaleItems`. -/
def cleanupStaleItems (tracker : Tracker) (uptime : UInt64) : Option Tracker := do
  let now := tracker.timeMs uptime
  let sent ← eraseIfFollowed tracker.packetsConnectionsSentList
    (tracker.packetConnectionStale now)
  let sentToPeers ← eraseIfFollowed tracker.packetsPeersSentList fun packet _ =>
    tracker.packetStale now packet
  let broadcast ←
    if tracker.broadcastPacketsToSendList.all fun packet =>
        (tracker.packetStale now packet).isSome then
      some (tracker.broadcastPacketsToSendList.filter fun packet =>
        !(tracker.packetStale now packet).getD false)
    else none
  let targeted ← eraseIfFollowed tracker.targetedPacketsToSendList
    (tracker.packetConnectionStale now)
  return { tracker with
    packetsConnectionsSentList := sent
    packetsPeersSentList := sentToPeers
    broadcastPacketsToSendList := broadcast
    targetedPacketsToSendList := targeted
    connections := tracker.connections.eraseIf fun _ entry =>
      connectionStale now entry.connection
    availableNeighbours := tracker.availableNeighbours.eraseIf fun _ connection =>
      connectionStale now connection
    messages := tracker.messages.eraseIf fun _ entry =>
      stale entry.object.packetTimestampMs now
    packets := tracker.packets.eraseIf fun _ entry =>
      stale entry.object.packetTimestampMs now }

/-! ## Operations -/

/-- The operations of the tracker, and the setters that its users call on the connections
and peers it hands out. -/
inductive Operation where
  | storeMessageAndReturnIfNew (address : Address) (message : Message)
  | storePacketAndReturnIfNew (address : Address) (passAlong : PacketPassAlong)
  | checkSenderInPeers (sender : UInt64)
  | enqueueTargetedPacket (packet : Address) (toConnection : BleConnection)
  | enqueueBroadcastPacket (packet : Address)
  | enqueueBroadcastPacketFrom (packet : Address) (fromConnection : ConnectionRef)
      (fromPeer : UInt64)
  | connectionForConnHandle (handle : UInt16)
  | addAvailablePeer (uptime : UInt64) (btAddress : Bytes) (btAddressType : UInt8)
      (services : ServiceUuidCheckStatus) (rssi : Int8)
  | reportConnection (uptime : UInt64) (handle : UInt16) (addr : Bytes)
      (addressType : UInt8)
  | reportConnectionWithRole (uptime : UInt64) (handle : UInt16) (addr : Bytes)
      (addressType role : UInt8)
  | reportDisconnection (handle : UInt16)
  | setConnectionHandleForPeer (conHandle : UInt16) (peer : UInt64)
  | possiblyUpdateTimeOffset (uptime timestampMs : UInt64)
  | announceToConnections (uptime : UInt64)
  | sendPackets
  | notifyRawPacket (conHandle : UInt16) (ret : UInt8)
  | writeRawPacket (conHandle : UInt16) (ret : UInt8)
  | cleanupStaleItems (uptime : UInt64)
  | updateConnection (connection : ConnectionRef) (change : BleConnection → BleConnection)
  | updatePeer (peer : UInt64) (change : Peer → Peer)

/-- What an operation makes of the tracker, unless it follows a pointer to nothing. -/
def Operation.apply (platform : Platform) (tracker : Tracker) :
    Operation → Option Tracker
  | .storeMessageAndReturnIfNew address message =>
      some (tracker.storeMessageAndReturnIfNew address message).2
  | .storePacketAndReturnIfNew address passAlong =>
      some (Tracker.storePacketAndReturnIfNew platform tracker address passAlong).2
  | .checkSenderInPeers sender => some (tracker.checkSenderInPeers sender)
  | .enqueueTargetedPacket packet toConnection =>
      tracker.enqueueTargetedPacket packet toConnection
  | .enqueueBroadcastPacket packet => tracker.enqueueBroadcastPacket packet
  | .enqueueBroadcastPacketFrom packet fromConnection fromPeer =>
      tracker.enqueueBroadcastPacketFrom packet fromConnection fromPeer
  | .connectionForConnHandle handle => some (tracker.connectionForConnHandle handle).2
  | .addAvailablePeer uptime btAddress btAddressType services rssi =>
      some (tracker.addAvailablePeer uptime btAddress btAddressType services rssi)
  | .reportConnection uptime handle addr addressType =>
      some (tracker.reportConnection uptime handle addr addressType)
  | .reportConnectionWithRole uptime handle addr addressType role =>
      some (tracker.reportConnectionWithRole uptime handle addr addressType role)
  | .reportDisconnection handle => some (tracker.reportDisconnection handle)
  | .setConnectionHandleForPeer conHandle peer =>
      some (tracker.setConnectionHandleForPeer conHandle peer)
  | .possiblyUpdateTimeOffset uptime timestampMs =>
      some (tracker.possiblyUpdateTimeOffset uptime timestampMs)
  | .announceToConnections uptime =>
      Tracker.announceToConnections platform tracker uptime
  | .sendPackets => tracker.sendPackets.map Prod.fst
  | .notifyRawPacket conHandle ret => some (tracker.notifyRawPacket conHandle ret).tracker
  | .writeRawPacket conHandle ret => some (tracker.writeRawPacket conHandle ret).tracker
  | .cleanupStaleItems uptime => tracker.cleanupStaleItems uptime
  | .updateConnection connection change => some (tracker.updateConnection connection change)
  | .updatePeer peer change => some (tracker.updatePeer peer change)

/-- What the caller and the allocator promise. -/
def Operation.Allowed (tracker : Tracker) : Operation → Prop
  | .storeMessageAndReturnIfNew address _ => tracker.packetAt address = none
  | .storePacketAndReturnIfNew address _ => tracker.packetAt address = none
  | .enqueueTargetedPacket packet _ => (tracker.packetAt packet).isSome
  | .enqueueBroadcastPacket packet => (tracker.packetAt packet).isSome
  | .enqueueBroadcastPacketFrom packet _ _ => (tracker.packetAt packet).isSome
  | _ => True

/-- One operation. -/
def OperationStep (platform : Platform) (before : Tracker) (operation : Operation)
    (after : Tracker) : Prop :=
  operation.Allowed before ∧ operation.apply platform before = some after

instance (operation : Operation) (tracker : Tracker) :
    Decidable (operation.Allowed tracker) := by
  cases operation <;> unfold Operation.Allowed <;> infer_instance

/-- A platform for examples: its hash is the sum of the bytes. -/
def bytesSummed : Platform where
  sizeWidth := 32
  hash bytes := (bytes.map fun byte => BitVec.ofNat 32 byte.toNat).sum
  localAddress := [1, 2, 3, 4, 5, 6]

/-- What an allowed operation makes of the tracker. -/
def Operation.next (platform : Platform) (tracker : Tracker) (operation : Operation) :
    Option Tracker :=
  if operation.Allowed tracker then operation.apply platform tracker else none

theorem step_of_next {platform : Platform} {before after : Tracker} {operation : Operation}
    (done : operation.next platform before = some after) :
    OperationStep platform before operation after := by
  rw [Operation.next, Option.ite_none_right_eq_some] at done
  exact done

end BleRepeater.Tracker
