import BleRepeater.Library.OrderedMap
import BleRepeater.Library.MultiMap
import BleRepeater.Packet.Types

/-!
# BleConnectionTracker

The state of the tracker and its operations on single entries: storing, enqueueing,
reporting connections, and the clock.

The containers alias each other by raw pointers, so pointers are values of the model.
A packet pointer is the address of the packet; addresses matter because the sent lists
are ordered by them, and the allocator chooses them.  A connection pointer names a map
entry together with the generation in which that entry was created, and generations
are never used twice: a pointer to an erased entry, or to a copy on the stack, finds
nothing.  Peers are never erased, so a peer pointer is the key of the peer.

A function that would follow a pointer to nothing returns `none`.
-/

namespace BleRepeater

/-- A `Base *`. -/
abbrev Address := Nat

/-- A `BleConnection *`. -/
structure ConnectionRef where
  key : UInt16
  generation : Nat
  deriving DecidableEq

def hciRoleMaster : UInt8 := 0
def hciRoleSlave : UInt8 := 1
def hciRoleInvalid : UInt8 := 0xff

def bdAddrTypeLeRandom : UInt8 := 1
def bdAddrTypeUnknown : UInt8 := 0xfe

/-- `enum service_uuid_check_status`. -/
inductive ServiceUuidCheckStatus where
  | notFound
  | found
  | andNameFound
  deriving DecidableEq

/-- `class BleConnection`. -/
structure BleConnection where
  connectionHandle : UInt16 := 0
  btAddress : Bytes := List.replicate 6 0
  btAddressType : UInt8 := bdAddrTypeUnknown
  btMtu : UInt16 := 0
  packetServiceStartGroupHandle : UInt16 := 0
  packetServiceEndGroupHandle : UInt16 := 0
  packetCharacteristicValueHandle : UInt16 := 0
  notificationEnabled : Bool := false
  hasDataToSend : Bool := false
  connected : Bool := false
  servicesFound : ServiceUuidCheckStatus := .found
  rssi : Int8 := 0
  role : UInt8 := hciRoleInvalid
  lastSeenTime : UInt64 := 0
  deriving DecidableEq

/-- `BleConnection::getTimestampMs`. -/
def BleConnection.timestampMs (connection : BleConnection) : UInt64 :=
  connection.lastSeenTime / 1000

/-- An entry of `messages` or `packets`: the object and where it lives. -/
structure Stored (α : Type) where
  address : Address
  object : α
  deriving DecidableEq

/-- An entry of `connections`: the object and when it was created. -/
structure ConnectionEntry where
  generation : Nat
  connection : BleConnection
  deriving DecidableEq

/-- `class BleConnectionTracker`. -/
structure Tracker where
  peers : OrderedMap UInt64 Peer := .empty
  messages : OrderedMap Bytes (Stored Message) := .empty
  packets : OrderedMap Nat (Stored PacketPassAlong) := .empty
  announce : Stored Announce
  connections : OrderedMap UInt16 ConnectionEntry := .empty
  availableNeighbours : OrderedMap Bytes BleConnection := .empty
  rawPacketToNotify : MultiMap UInt16 Bytes := .empty
  rawPacketToWrite : MultiMap UInt16 Bytes := .empty
  timestampOffsetMs : UInt64 := 0
  handlePeerMap : OrderedMap UInt16 UInt64 := .empty
  packetsConnectionsSentList : MultiMap Address ConnectionRef := .empty
  packetsPeersSentList : MultiMap Address UInt64 := .empty
  broadcastPacketsToSendList : List Address := []
  targetedPacketsToSendList : MultiMap Address ConnectionRef := .empty
  /-- The generation of the next connection object. -/
  nextGeneration : Nat := 0
  deriving DecidableEq

/-- What the rest of the program and the platform supply: `std::hash<std::string>`
with the width of `size_t`, and the local Bluetooth address. -/
structure Platform where
  sizeWidth : Nat
  hash : Bytes → BitVec sizeWidth
  localAddress : Bytes

/-- `build_time_ms`. -/
def buildTimeMs : UInt64 := 1755685519

/-- `ten_minutes_in_ms`. -/
def tenMinutesInMs : UInt64 := 600000

/-- `MESSAGE_TIMEOUT`. -/
def messageTimeout : UInt64 := 300000

namespace Tracker

/-! ## Following pointers -/

/-- The tracker as constructed, its announce at an address of the allocator's choice. -/
def new (announceAddress : Address) : Tracker :=
  { announce := ⟨announceAddress, Announce.new⟩ }

/-- The object behind a `Base *`. -/
def packetAt (tracker : Tracker) (address : Address) : Option Packet :=
  if tracker.announce.address = address then
    some (.announce tracker.announce.object)
  else
    match tracker.messages.entries.find? fun entry => entry.2.address == address with
    | some entry => some (.message entry.2.object)
    | none =>
        (tracker.packets.entries.find? fun entry => entry.2.address == address).map
          fun entry => .passAlong entry.2.object

/-- The object behind a `BleConnection *`. -/
def connectionAt (tracker : Tracker) (ref : ConnectionRef) : Option BleConnection :=
  match tracker.connections.find? ref.key with
  | some entry => if entry.generation = ref.generation then some entry.connection else none
  | none => none

/-- Pointers to all connections, in map order. -/
def connectionRefs (tracker : Tracker) : List ConnectionRef :=
  tracker.connections.entries.map fun entry => ⟨entry.1, entry.2.generation⟩

/-- Change the object behind a `BleConnection *`. -/
def updateConnection (tracker : Tracker) (ref : ConnectionRef)
    (change : BleConnection → BleConnection) : Tracker :=
  { tracker with
    connections := tracker.connections.modify ref.key fun entry =>
      if entry.generation = ref.generation then
        { entry with connection := change entry.connection }
      else entry }

/-- Change the object behind a `Peer *`. -/
def updatePeer (tracker : Tracker) (peer : UInt64) (change : Peer → Peer) : Tracker :=
  { tracker with peers := tracker.peers.modify peer change }

/-- `connections[handle]`: the entry, created when there is none. -/
def connectionsIndex (tracker : Tracker) (handle : UInt16) : ConnectionRef × Tracker :=
  match tracker.connections.find? handle with
  | some entry => (⟨handle, entry.generation⟩, tracker)
  | none =>
      (⟨handle, tracker.nextGeneration⟩,
        { tracker with
          connections := tracker.connections.insert handle ⟨tracker.nextGeneration, {}⟩
          nextGeneration := tracker.nextGeneration + 1 })

/-- A connection object outside the map, such as a copy on the stack: its pointer is
no pointer to an entry. -/
def outsideRef (tracker : Tracker) (handle : UInt16) : ConnectionRef × Tracker :=
  (⟨handle, tracker.nextGeneration⟩,
    { tracker with nextGeneration := tracker.nextGeneration + 1 })

/-! ## The clock -/

/-- `BleConnectionTracker::getTimeMs`, with `time_us_64()` at `uptime`. -/
def timeMs (tracker : Tracker) (uptime : UInt64) : UInt64 :=
  tracker.timestampOffsetMs + uptime / 1000

/-- `BleConnectionTracker::possiblyUpdateTimeOffset`. -/
def possiblyUpdateTimeOffset (tracker : Tracker) (uptime timestampMs : UInt64) : Tracker :=
  let ourNow := tracker.timeMs uptime
  let diff : Int64 := timestampMs.toInt64 - ourNow.toInt64
  let diffAbs := diff.toInt.natAbs
  if diffAbs > messageTimeout.toNat ∨ timestampMs > ourNow then
    { tracker with timestampOffsetMs := tracker.timestampOffsetMs + diff.toUInt64 }
  else
    tracker

/-! ## Storing -/

/-- `BleConnectionTracker::storeMessageAndReturnIfNew`.  A new entry comes to lie at
`address`. -/
def storeMessageAndReturnIfNew (tracker : Tracker) (address : Address)
    (message : Message) : Option Address × Tracker :=
  let id := message.messageId
  match tracker.messages.find? id with
  | some _ => (none, tracker)
  | none =>
      (some address,
        { tracker with messages := tracker.messages.insert id ⟨address, message⟩ })

/-- Storing a message changes nothing but the messages. -/
theorem storeMessageAndReturnIfNew_frame (tracker : Tracker) (address : Address)
    (message : Message) :
    (tracker.storeMessageAndReturnIfNew address message).2 =
      { tracker with
        messages := (tracker.storeMessageAndReturnIfNew address message).2.messages } := by
  unfold storeMessageAndReturnIfNew
  dsimp only
  split <;> rfl

/-- `PacketPassAlong::getPacketHash`. -/
def packetHash (platform : Platform) (packet : PacketPassAlong) :
    BitVec platform.sizeWidth :=
  let hashPayload := platform.hash packet.payload
  let metaBuffer := BinaryWriter.writeUint8 [] packet.packetType
  -- ignore ttl for hash as we want to ignore the same message going around again
  let metaBuffer := BinaryWriter.writeUint8 metaBuffer packet.packetFlags
  let metaBuffer := BinaryWriter.writeUint64 metaBuffer packet.packetTimestamp
  let metaBuffer := BinaryWriter.writeUint64 metaBuffer packet.packetSenderId
  let metaBuffer := BinaryWriter.writeUint64 metaBuffer packet.packetRecipientId
  let hashMeta := platform.hash metaBuffer
  hashPayload ^^^ (hashMeta <<< 1)

/-- `BleConnectionTracker::storePacketAndReturnIfNew`.  The entry is of the base class:
what a derived class adds to the argument is not moved into it. -/
def storePacketAndReturnIfNew (platform : Platform) (tracker : Tracker)
    (address : Address) (passAlong : PacketPassAlong) : Option Address × Tracker :=
  let id := (packetHash platform passAlong).toNat
  match tracker.packets.find? id with
  | some _ => (none, tracker)
  | none =>
      (some address,
        { tracker with packets := tracker.packets.insert id ⟨address, passAlong⟩ })

/-- Storing a packet changes nothing but the packets. -/
theorem storePacketAndReturnIfNew_frame (platform : Platform) (tracker : Tracker)
    (address : Address) (passAlong : PacketPassAlong) :
    (storePacketAndReturnIfNew platform tracker address passAlong).2 =
      { tracker with
        packets :=
          (storePacketAndReturnIfNew platform tracker address passAlong).2.packets } := by
  unfold storePacketAndReturnIfNew
  dsimp only
  split <;> rfl

/-- `BleConnectionTracker::checkSenderInPeers`; the returned reference is the key. -/
def checkSenderInPeers (tracker : Tracker) (sender : UInt64) : Tracker :=
  match tracker.peers.find? sender with
  | some _ => tracker
  | none => { tracker with peers := tracker.peers.insert sender { id := sender } }

/-! ## Enqueueing -/

/-- `BleConnectionTracker::connectionForConnHandle`. -/
def connectionForConnHandle (tracker : Tracker) (handle : UInt16) :
    ConnectionRef × Tracker :=
  match tracker.connections.find? handle with
  | some _ => tracker.connectionsIndex handle
  | none =>
      let (ref, tracker) := tracker.connectionsIndex handle
      (ref, tracker.updateConnection ref fun connection =>
        { connection with connectionHandle := handle })

/-- `BleConnectionTracker::enqueueTargetedPacket`, given the connection behind
`to_connection`. -/
def enqueueTargetedPacket (tracker : Tracker) (packet : Address)
    (toConnection : BleConnection) : Option Tracker := do
  let object ← tracker.packetAt packet
  if object.base.packetTtl > 0 then
    let (con, tracker) := tracker.connectionForConnHandle toConnection.connectionHandle
    return { tracker with
      targetedPacketsToSendList := tracker.targetedPacketsToSendList.emplace packet con }
  else
    return tracker

/-- A packet that may travel is listed for the connection of the handle, any other is
dropped. -/
theorem enqueueTargetedPacket_cases {tracker after : Tracker} {packet : Address}
    {toConnection : BleConnection}
    (done : tracker.enqueueTargetedPacket packet toConnection = some after) :
    ∃ object, tracker.packetAt packet = some object ∧
      (object.base.packetTtl > 0 ∧
        after = { (tracker.connectionForConnHandle toConnection.connectionHandle).2 with
          targetedPacketsToSendList := (tracker.connectionForConnHandle
            toConnection.connectionHandle).2.targetedPacketsToSendList.emplace packet
              (tracker.connectionForConnHandle toConnection.connectionHandle).1 } ∨
      ¬ object.base.packetTtl > 0 ∧ after = tracker) := by
  obtain ⟨object, found, done⟩ := Option.bind_eq_some_iff.mp done
  refine ⟨object, found, ?_⟩
  split at done
  · rename_i travels
    cases done
    exact Or.inl ⟨travels, rfl⟩
  · rename_i expired
    cases done
    exact Or.inr ⟨expired, rfl⟩

/-- `BleConnectionTracker::enqueueBroadcastPacket(packet)`. -/
def enqueueBroadcastPacket (tracker : Tracker) (packet : Address) : Option Tracker := do
  let object ← tracker.packetAt packet
  if object.base.packetTtl > 0 then
    return { tracker with
      broadcastPacketsToSendList := tracker.broadcastPacketsToSendList ++ [packet] }
  else
    return tracker

/-- A packet that may travel is listed, any other is dropped. -/
theorem enqueueBroadcastPacket_cases {tracker after : Tracker} {packet : Address}
    (done : tracker.enqueueBroadcastPacket packet = some after) :
    ∃ object, tracker.packetAt packet = some object ∧
      (object.base.packetTtl > 0 ∧
        after = { tracker with
          broadcastPacketsToSendList := tracker.broadcastPacketsToSendList ++ [packet] } ∨
      ¬ object.base.packetTtl > 0 ∧ after = tracker) := by
  obtain ⟨object, found, done⟩ := Option.bind_eq_some_iff.mp done
  refine ⟨object, found, ?_⟩
  split at done
  · rename_i travels
    cases done
    exact Or.inl ⟨travels, rfl⟩
  · rename_i expired
    cases done
    exact Or.inr ⟨expired, rfl⟩

/-- Enqueueing changes nothing but the list. -/
theorem enqueueBroadcastPacket_frame {tracker after : Tracker} {packet : Address}
    (done : tracker.enqueueBroadcastPacket packet = some after) :
    after = { tracker with
      broadcastPacketsToSendList := after.broadcastPacketsToSendList } := by
  obtain ⟨_, _, ⟨_, rfl⟩ | ⟨_, rfl⟩⟩ := enqueueBroadcastPacket_cases done <;> rfl

/-- `BleConnectionTracker::enqueueBroadcastPacket(packet, from_connection, from_peer)`. -/
def enqueueBroadcastPacketFrom (tracker : Tracker) (packet : Address)
    (fromConnection : ConnectionRef) (fromPeer : UInt64) : Option Tracker :=
  { tracker with
    packetsConnectionsSentList :=
      tracker.packetsConnectionsSentList.emplace packet fromConnection
    packetsPeersSentList := tracker.packetsPeersSentList.emplace packet fromPeer
  }.enqueueBroadcastPacket packet

/-! ## Connections and peers -/

/-- `BleConnectionTracker::addAvailablePeer`. -/
def addAvailablePeer (tracker : Tracker) (uptime : UInt64) (btAddress : Bytes)
    (btAddressType : UInt8) (services : ServiceUuidCheckStatus) (rssi : Int8) : Tracker :=
  let neighbour := (tracker.availableNeighbours.find? btAddress).getD {}
  { tracker with
    availableNeighbours := tracker.availableNeighbours.insert btAddress
      { neighbour with
        btAddress
        btAddressType
        servicesFound := services
        rssi
        lastSeenTime := uptime } }

/-- `BleConnectionTracker::reportConnection(handle, addr, address_type)`. -/
def reportConnection (tracker : Tracker) (uptime : UInt64) (handle : UInt16)
    (addr : Bytes) (addressType : UInt8) : Tracker :=
  let tracker :=
    match tracker.availableNeighbours.find? addr with
    | some item =>
        let (ref, tracker) := tracker.connectionsIndex handle
        tracker.updateConnection ref fun _ => item
    | none => tracker
  let (ref, tracker) := tracker.connectionsIndex handle
  let tracker := tracker.updateConnection ref fun connection =>
    { connection with
      connectionHandle := handle
      connected := true
      btAddress := addr
      btAddressType := addressType
      lastSeenTime := uptime }
  { tracker with availableNeighbours := tracker.availableNeighbours.erase addr }

/-- `BleConnectionTracker::reportConnection(handle, addr, address_type, role)`. -/
def reportConnectionWithRole (tracker : Tracker) (uptime : UInt64) (handle : UInt16)
    (addr : Bytes) (addressType role : UInt8) : Tracker :=
  let tracker := tracker.reportConnection uptime handle addr addressType
  let (ref, tracker) := tracker.connectionsIndex handle
  tracker.updateConnection ref fun connection => { connection with role }

/-- `BleConnectionTracker::reportDisconnection`.  The lambda captures
`removed_connection` by value, so the pointer it compares with is that of its copy. -/
def reportDisconnection (tracker : Tracker) (handle : UInt16) : Tracker :=
  let (removed, tracker) := tracker.connectionsIndex handle
  let tracker := tracker.updateConnection removed fun connection =>
    { connection with notificationEnabled := false, connected := false }
  let (copy, tracker) := tracker.outsideRef handle
  let announcedToConnection := fun packet connection =>
    decide (packet = tracker.announce.address) && decide (connection = copy)
  { tracker with
    handlePeerMap := tracker.handlePeerMap.erase handle
    packetsConnectionsSentList :=
      tracker.packetsConnectionsSentList.eraseIf announcedToConnection }

/-- `BleConnectionTracker::setConnectionHandleForPeer`. -/
def setConnectionHandleForPeer (tracker : Tracker) (conHandle : UInt16) (peer : UInt64) :
    Tracker :=
  { tracker with handlePeerMap := tracker.handlePeerMap.insert conHandle peer }

end Tracker

end BleRepeater
