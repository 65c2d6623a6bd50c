import BleRepeater.Ble.Neighbours
import BleRepeater.Packet.ProtocolProcessor

/-!
# Keys

What the maps of the tracker hold lies under its own key: a message under its id, another
packet under its hash, and a peer under its id.  Nothing ever erases a peer, so the two lists
of pointers to peers hold no dangling one.
-/

namespace BleRepeater.Tracker

open Transition

/-! ## The peers, and what points to them -/

/-- What pointers to peers are about. -/
structure Book where
  peers : OrderedMap UInt64 Peer
  handles : OrderedMap UInt16 UInt64
  sentToPeers : MultiMap Address UInt64

/-- The peers and the lists that name them. -/
def book (tracker : Tracker) : Book where
  peers := tracker.peers
  handles := tracker.handlePeerMap
  sentToPeers := tracker.packetsPeersSentList

/-- The operations that may change a peer, or what points to one. -/
def Operation.ChangesBook : Operation → Prop
  | .checkSenderInPeers _ | .updatePeer .. | .setConnectionHandleForPeer ..
  | .reportDisconnection _ | .enqueueBroadcastPacketFrom .. | .cleanupStaleItems _ => True
  | _ => False

theorem book_of_unlinked {before after : Tracker} (same : after.unlinked = before.unlinked) :
    after.book = before.book := by
  have books := congrArg book same
  exact books

theorem book_reportConnection (tracker : Tracker) (uptime : UInt64) (handle : UInt16)
    (addr : Bytes) (addressType : UInt8) :
    (tracker.reportConnection uptime handle addr addressType).book = tracker.book := by
  have books := congrArg book
    (unlinked_reportConnection tracker uptime handle addr addressType)
  exact books

theorem book_rawPacketCallback (queue : RawQueue) (tracker : Tracker) (conHandle : UInt16)
    (ret : UInt8) : (rawPacketCallback queue tracker conHandle ret).tracker.book =
      tracker.book := by
  refine rawPacketCallback_invariant (motive := fun current =>
    current.book = tracker.book) ret ?_ ?_ rfl
  · intro current same
    exact (book_of_unlinked (unlinked_connectionsIndex current conHandle)).trans same
  · intro current packets same
    cases queue <;> exact same

theorem book_enqueueTargetedPacket {tracker after : Tracker} {packet : Address}
    {connection : BleConnection}
    (done : tracker.enqueueTargetedPacket packet connection = some after) :
    after.book = tracker.book := by
  obtain ⟨_, _, ⟨_, rfl⟩ | ⟨_, rfl⟩⟩ := enqueueTargetedPacket_cases done
  · have found := book_of_unlinked
      (unlinked_connectionForConnHandle tracker connection.connectionHandle)
    exact found
  · rfl

theorem book_announceToConnections {platform : Platform} {tracker after : Tracker}
    {uptime : UInt64} (done : announceToConnections platform tracker uptime = some after) :
    after.book = tracker.book := by
  have setup : (setupAnnounceIfNeeded platform tracker).book = tracker.book := by
    unfold setupAnnounceIfNeeded
    split <;> rfl
  refine announceEach_invariant (motive := fun current =>
    current.book = tracker.book) done ?_ setup
  intro current next connection same queued
  exact (book_enqueueTargetedPacket queued).trans same

theorem book_storeMessageAndReturnIfNew (tracker : Tracker) (address : Address)
    (message : Message) :
    (tracker.storeMessageAndReturnIfNew address message).2.book = tracker.book := by
  rw [storeMessageAndReturnIfNew_frame]
  rfl

theorem book_storePacketAndReturnIfNew (platform : Platform) (tracker : Tracker)
    (address : Address) (passAlong : PacketPassAlong) :
    (storePacketAndReturnIfNew platform tracker address passAlong).2.book =
      tracker.book := by
  rw [storePacketAndReturnIfNew_frame]
  rfl

variable {platform : Platform} {before after : Tracker} {operation : Operation}

theorem book_of_step (step : OperationStep platform before operation after)
    (other : ¬ operation.ChangesBook) : after.book = before.book := by
  obtain ⟨_, done⟩ := step
  cases operation with
  | storeMessageAndReturnIfNew address message =>
      cases done
      exact book_storeMessageAndReturnIfNew before address message
  | storePacketAndReturnIfNew address passAlong =>
      cases done
      exact book_storePacketAndReturnIfNew platform before address passAlong
  | enqueueTargetedPacket packet toConnection => exact book_enqueueTargetedPacket done
  | enqueueBroadcastPacket packet =>
      rw [enqueueBroadcastPacket_frame done]
      rfl
  | announceToConnections uptime => exact book_announceToConnections done
  | sendPackets =>
      obtain ⟨⟨last, targeted, broadcast⟩, sent, rfl⟩ := Option.map_eq_some_iff.mp done
      have settled := congrArg book (sendPackets_sendsOnly sent).settled
      exact settled
  | connectionForConnHandle handle =>
      cases done
      exact book_of_unlinked (unlinked_connectionForConnHandle before handle)
  | reportConnection uptime handle addr addressType =>
      cases done
      exact book_reportConnection before uptime handle addr addressType
  | reportConnectionWithRole uptime handle addr addressType role =>
      cases done
      have assigned := unlinked_assign (before.reportConnection uptime handle addr addressType)
        handle fun connection => { connection with role := role }
      exact (book_of_unlinked assigned).trans
        (book_reportConnection before uptime handle addr addressType)
  | possiblyUpdateTimeOffset uptime timestampMs =>
      cases done
      unfold possiblyUpdateTimeOffset
      dsimp only
      split <;> rfl
  | notifyRawPacket conHandle ret =>
      cases done
      exact book_rawPacketCallback .notify before conHandle ret
  | writeRawPacket conHandle ret =>
      cases done
      exact book_rawPacketCallback .write before conHandle ret
  | addAvailablePeer | updateConnection =>
      cases done
      rfl
  | checkSenderInPeers | updatePeer | setConnectionHandleForPeer | reportDisconnection
  | enqueueBroadcastPacketFrom | cleanupStaleItems => exact absurd trivial other

/-! ## What lies under a key -/

/-- What the maps hold lies under its own key, and pointers to peers lead to peers. -/
structure Keyed (platform : Platform) (tracker : Tracker) : Prop where
  messages : ∀ entry ∈ tracker.messages.entries, entry.2.object.messageId = entry.1
  packets : ∀ entry ∈ tracker.packets.entries,
    (packetHash platform entry.2.object).toNat = entry.1
  neighbours : ∀ entry ∈ tracker.availableNeighbours.entries, entry.2.btAddress = entry.1
  peers : ∀ entry ∈ tracker.peers.entries, entry.2.id = entry.1
  handles : ∀ entry ∈ tracker.handlePeerMap.entries, (tracker.peers.find? entry.2).isSome
  sentToPeers : ∀ entry ∈ tracker.packetsPeersSentList.entries,
    (tracker.peers.find? entry.2).isSome

theorem keyed_new (platform : Platform) (address : Address) : Keyed platform (new address) := by
  refine ⟨?_, ?_, ?_, ?_, ?_, ?_⟩ <;> simp [new]

/-- A peer whose pointer is handed over is there, and setters leave the id of a peer alone. -/
def Operation.KnowsPeers (tracker : Tracker) : Operation → Prop
  | .enqueueBroadcastPacketFrom _ _ peer | .setConnectionHandleForPeer _ peer =>
      (tracker.peers.find? peer).isSome
  | .updatePeer _ change => ∀ peer, (change peer).id = peer.id
  | _ => True

theorem mem_messages_of_step (step : OperationStep platform before operation after)
    {entry : Bytes × Stored Message} (member : entry ∈ after.messages.entries) :
    entry ∈ before.messages.entries ∨ entry.2.object.messageId = entry.1 := by
  have effect := effect_of_step step
  obtain ⟨_, done⟩ := step
  cases operation with
  | storeMessageAndReturnIfNew address message =>
      cases done
      simp only [storeMessageAndReturnIfNew] at member
      split at member
      · exact Or.inl member
      · rcases OrderedMap.mem_insert.mp member with rfl | ⟨old, _⟩
        · exact Or.inr rfl
        · exact Or.inl old
  | storePacketAndReturnIfNew address passAlong =>
      cases done
      rw [storePacketAndReturnIfNew_frame] at member
      exact Or.inl member
  | cleanupStaleItems uptime =>
      obtain ⟨_, _, _, _, rfl⟩ := cleanupStaleItems_eq done
      exact Or.inl (OrderedMap.mem_eraseIf.mp member).1
  | _ =>
      cases effect with
      | relists _ relists => exact Or.inl (relists.messages ▸ member)
      | stores _ carries => exact carries.elim

theorem mem_packets_of_step (step : OperationStep platform before operation after)
    {entry : Nat × Stored PacketPassAlong} (member : entry ∈ after.packets.entries) :
    entry ∈ before.packets.entries ∨ (packetHash platform entry.2.object).toNat = entry.1 := by
  have effect := effect_of_step step
  obtain ⟨_, done⟩ := step
  cases operation with
  | storeMessageAndReturnIfNew address message =>
      cases done
      rw [storeMessageAndReturnIfNew_frame] at member
      exact Or.inl member
  | storePacketAndReturnIfNew address passAlong =>
      cases done
      simp only [storePacketAndReturnIfNew] at member
      split at member
      · exact Or.inl member
      · rcases OrderedMap.mem_insert.mp member with rfl | ⟨old, _⟩
        · exact Or.inr rfl
        · exact Or.inl old
  | cleanupStaleItems uptime =>
      obtain ⟨_, _, _, _, rfl⟩ := cleanupStaleItems_eq done
      exact Or.inl (OrderedMap.mem_eraseIf.mp member).1
  | _ =>
      cases effect with
      | relists _ relists => exact Or.inl (relists.packets ▸ member)
      | stores _ carries => exact carries.elim

theorem mem_neighbours_of_step (step : OperationStep platform before operation after)
    {entry : Bytes × BleConnection} (member : entry ∈ after.availableNeighbours.entries) :
    entry ∈ before.availableNeighbours.entries ∨ entry.2.btAddress = entry.1 := by
  by_cases changes : operation.ChangesNeighbours
  · obtain ⟨_, done⟩ := step
    cases operation with
    | addAvailablePeer uptime btAddress btAddressType services rssi =>
        cases done
        rcases OrderedMap.mem_insert.mp member with rfl | ⟨old, _⟩
        · exact Or.inr rfl
        · exact Or.inl old
    | reportConnection uptime handle addr addressType =>
        cases done
        rw [neighbours_reportConnection] at member
        exact Or.inl (OrderedMap.mem_eraseIf.mp member).1
    | reportConnectionWithRole uptime handle addr addressType role =>
        cases done
        rw [neighbours_reportConnectionWithRole] at member
        exact Or.inl (OrderedMap.mem_eraseIf.mp member).1
    | cleanupStaleItems uptime =>
        rw [neighbours_cleanupStaleItems done] at member
        exact Or.inl (OrderedMap.mem_eraseIf.mp member).1
    | _ => exact changes.elim
  · exact Or.inl (neighbours_of_step step changes ▸ member)

/-! ## Peers -/

/-- What an operation does to the peers and to the pointers to them. -/
structure Acquaints (before after : Tracker) : Prop where
  stays : ∀ id, (before.peers.find? id).isSome → (after.peers.find? id).isSome
  peers : (∀ entry ∈ before.peers.entries, entry.2.id = entry.1) →
    ∀ entry ∈ after.peers.entries, entry.2.id = entry.1
  handles : ∀ entry ∈ after.handlePeerMap.entries,
    entry ∈ before.handlePeerMap.entries ∨ (after.peers.find? entry.2).isSome
  sentToPeers : ∀ entry ∈ after.packetsPeersSentList.entries,
    entry ∈ before.packetsPeersSentList.entries ∨ (after.peers.find? entry.2).isSome

theorem Acquaints.of_book (same : after.book = before.book) : Acquaints before after := by
  have peers : after.peers = before.peers := congrArg Book.peers same
  have handles : after.handlePeerMap = before.handlePeerMap := congrArg Book.handles same
  have sent : after.packetsPeersSentList = before.packetsPeersSentList :=
    congrArg Book.sentToPeers same
  refine ⟨?_, ?_, ?_, ?_⟩
  · rw [peers]
    exact fun _ => id
  · rw [peers]
    exact id
  · rw [handles]
    exact fun _ => Or.inl
  · rw [sent]
    exact fun _ => Or.inl

theorem isSome_checkSenderInPeers {tracker : Tracker} {sender id : UInt64} :
    ((tracker.checkSenderInPeers sender).peers.find? id).isSome ↔
      id = sender ∨ (tracker.peers.find? id).isSome := by
  unfold checkSenderInPeers
  split
  · rename_i peer known
    constructor
    · exact Or.inr
    · rintro (rfl | there)
      · simp [known]
      · exact there
  · rw [OrderedMap.find?_insert]
    split <;> simp_all

theorem acquaints_of_step (step : OperationStep platform before operation after)
    (knows : operation.KnowsPeers before) : Acquaints before after := by
  by_cases changes : operation.ChangesBook
  · obtain ⟨_, done⟩ := step
    cases operation with
    | checkSenderInPeers sender =>
        cases done
        refine ⟨fun id there => isSome_checkSenderInPeers.mpr (Or.inr there), ?_, ?_, ?_⟩
        · intro keyed entry member
          unfold checkSenderInPeers at member
          split at member
          · exact keyed entry member
          · rcases OrderedMap.mem_insert.mp member with rfl | ⟨old, _⟩
            · rfl
            · exact keyed entry old
        · intro entry member
          have same : (before.checkSenderInPeers sender).handlePeerMap =
              before.handlePeerMap := by
            unfold checkSenderInPeers
            split <;> rfl
          exact Or.inl (same ▸ member)
        · intro entry member
          have same : (before.checkSenderInPeers sender).packetsPeersSentList =
              before.packetsPeersSentList :=
            congrArg Shelf.sentToPeers (shelf_checkSenderInPeers before sender)
          exact Or.inl (same ▸ member)
    | updatePeer peer change =>
        cases done
        have stays : ∀ id, (before.peers.find? id).isSome →
            ((before.peers.modify peer change).find? id).isSome := by
          intro id there
          rw [OrderedMap.find?_modify]
          split <;> simp [there]
        refine ⟨stays, ?_, fun _ => Or.inl, fun _ => Or.inl⟩
        intro keyed entry member
        obtain ⟨old, listed, rfl⟩ := List.mem_map.mp member
        split
        · exact (knows old.2).trans (keyed old listed)
        · exact keyed old listed
    | setConnectionHandleForPeer conHandle peer =>
        cases done
        refine ⟨fun _ => id, id, ?_, fun _ => Or.inl⟩
        intro entry member
        rcases OrderedMap.mem_insert.mp member with rfl | ⟨old, _⟩
        · exact Or.inr knows
        · exact Or.inl old
    | reportDisconnection handle =>
        cases done
        have same : (before.connectionsIndex handle).2.book = before.book :=
          book_of_unlinked (unlinked_connectionsIndex before handle)
        have peers : (before.reportDisconnection handle).peers = before.peers :=
          congrArg Book.peers same
        have handles : (before.connectionsIndex handle).2.handlePeerMap =
            before.handlePeerMap := congrArg Book.handles same
        have sent : (before.reportDisconnection handle).packetsPeersSentList =
            before.packetsPeersSentList := congrArg Book.sentToPeers same
        refine ⟨?_, ?_, ?_, ?_⟩
        · rw [peers]
          exact fun _ => id
        · rw [peers]
          exact id
        · intro entry member
          have kept := (OrderedMap.mem_eraseIf.mp member).1
          exact Or.inl (handles ▸ kept)
        · rw [sent]
          exact fun _ => Or.inl
    | enqueueBroadcastPacketFrom packet fromConnection fromPeer =>
        rw [Operation.apply, enqueueBroadcastPacketFrom] at done
        rw [enqueueBroadcastPacket_frame done]
        refine ⟨fun _ => id, id, fun _ => Or.inl, ?_⟩
        intro entry member
        rcases MultiMap.mem_emplace.mp member with rfl | old
        · exact Or.inr knows
        · exact Or.inl old
    | cleanupStaleItems uptime =>
        have cleans := cleans_cleanupStaleItems done
        obtain ⟨_, _, _, _, rfl⟩ := cleanupStaleItems_eq done
        exact ⟨fun _ => id, id, fun _ => Or.inl,
          fun entry member => Or.inl ((cleans.sentToPeers entry).mp member).1⟩
    | _ => exact changes.elim
  · exact .of_book (book_of_step step changes)

/-- An operation that is handed pointers to peers that are there keeps everything under its
key, and the pointers to peers live. -/
theorem Keyed.step (keyed : Keyed platform before)
    (step : OperationStep platform before operation after)
    (knows : operation.KnowsPeers before) : Keyed platform after := by
  have acquaints := acquaints_of_step step knows
  refine ⟨?_, ?_, ?_, acquaints.peers keyed.peers, ?_, ?_⟩
  · intro entry member
    exact (mem_messages_of_step step member).elim (keyed.messages entry) id
  · intro entry member
    exact (mem_packets_of_step step member).elim (keyed.packets entry) id
  · intro entry member
    exact (mem_neighbours_of_step step member).elim (keyed.neighbours entry) id
  · intro entry member
    rcases acquaints.handles entry member with old | there
    · exact acquaints.stays entry.2 (keyed.handles entry old)
    · exact there
  · intro entry member
    rcases acquaints.sentToPeers entry member with old | there
    · exact acquaints.stays entry.2 (keyed.sentToPeers entry old)
    · exact there

end BleRepeater.Tracker
