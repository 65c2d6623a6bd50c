import BleRepeater.Ble.Operations

/-!
# What one operation can do

Every operation of the tracker either leaves the stored objects alone and moves
references to them between the lists, or stores one object more, or cleans up.  Each case
is a structure that says all that the case can do, and `effect_of_step` says that there
is no other case.
-/

namespace BleRepeater.Tracker

/-! ## Where objects lie -/

/-- A packet pointer with an object behind it. -/
def Live (tracker : Tracker) (packet : Address) : Prop :=
  (tracker.packetAt packet).isSome

/-- Where the tracker keeps an object. -/
inductive Place where
  | announce
  | message (id : Bytes)
  | packet (hash : Nat)

/-- The object that is kept at a place lies at an address. -/
inductive Holds (tracker : Tracker) (address : Address) : Place → Packet → Prop where
  | announce : tracker.announce.address = address →
      Holds tracker address .announce (.announce tracker.announce.object)
  | message {id : Bytes} {stored : Stored Message} :
      (id, stored) ∈ tracker.messages.entries → stored.address = address →
      Holds tracker address (.message id) (.message stored.object)
  | packet {hash : Nat} {stored : Stored PacketPassAlong} :
      (hash, stored) ∈ tracker.packets.entries → stored.address = address →
      Holds tracker address (.packet hash) (.passAlong stored.object)

/-- No two objects lie at one address. -/
def Separate (tracker : Tracker) : Prop :=
  ∀ ⦃address left right object other⦄, tracker.Holds address left object →
    tracker.Holds address right other → left = right

theorem not_live {tracker : Tracker} {packet : Address}
    (free : tracker.packetAt packet = none) : ¬ tracker.Live packet := by
  simp [Live, free]

theorem holds_of_packetAt {tracker : Tracker} {address : Address} {object : Packet}
    (found : tracker.packetAt address = some object) :
    ∃ place, tracker.Holds address place object := by
  unfold packetAt at found
  split at found
  · rename_i own
    cases found
    exact ⟨_, .announce own⟩
  · split at found
    · rename_i entry search
      cases found
      exact ⟨_, .message (List.mem_of_find?_eq_some search)
        (by simpa using List.find?_some search)⟩
    · obtain ⟨entry, search, same⟩ := Option.map_eq_some_iff.mp found
      cases same
      exact ⟨_, .packet (List.mem_of_find?_eq_some search)
        (by simpa using List.find?_some search)⟩

/-- A pointer is live when an object lies where it points. -/
theorem live_iff {tracker : Tracker} {address : Address} :
    tracker.Live address ↔ ∃ place object, tracker.Holds address place object := by
  constructor
  · intro live
    obtain ⟨object, found⟩ := Option.isSome_iff_exists.mp live
    obtain ⟨place, holds⟩ := holds_of_packetAt found
    exact ⟨place, object, holds⟩
  · intro ⟨place, object, holds⟩
    unfold Live packetAt
    split
    · rfl
    · rename_i other
      cases search : tracker.messages.entries.find? fun entry =>
          entry.2.address == address with
      | some entry => rfl
      | none =>
          cases holds with
          | announce own => exact absurd own other
          | message member here =>
              exact absurd here (by simpa using List.find?_eq_none.mp search _ member)
          | packet member here =>
              simp only [Option.isSome_map, List.find?_isSome]
              exact ⟨_, member, by simpa using here⟩

/-- A place keeps one object. -/
theorem Holds.object_eq {tracker : Tracker} {address other : Address} {place : Place}
    {left right : Packet} (holdsLeft : tracker.Holds address place left)
    (holdsRight : tracker.Holds other place right) : left = right := by
  cases holdsLeft with
  | announce => cases holdsRight with | announce => rfl
  | message member =>
      cases holdsRight with
      | message same => cases OrderedMap.eq_of_mem member same rfl; rfl
  | packet member =>
      cases holdsRight with
      | packet same => cases OrderedMap.eq_of_mem member same rfl; rfl

/-- With one object at each address, a pointer leads to the object that lies there. -/
theorem Separate.packetAt_iff {tracker : Tracker} (separate : tracker.Separate)
    {address : Address} {object : Packet} :
    tracker.packetAt address = some object ↔ ∃ place, tracker.Holds address place object := by
  constructor
  · exact holds_of_packetAt
  · intro ⟨place, holds⟩
    obtain ⟨other, found⟩ := Option.isSome_iff_exists.mp
      (live_iff.mpr ⟨place, object, holds⟩)
    obtain ⟨otherPlace, otherHolds⟩ := holds_of_packetAt found
    cases separate holds otherHolds
    rw [found, holds.object_eq otherHolds]

theorem Separate.of_subset {before after : Tracker} (separate : before.Separate)
    (fewer : ∀ {address place object}, after.Holds address place object →
      ∃ other, before.Holds address place other) : after.Separate := by
  intro address left right object other holdsLeft holdsRight
  obtain ⟨_, oldLeft⟩ := fewer holdsLeft
  obtain ⟨_, oldRight⟩ := fewer holdsRight
  exact separate oldLeft oldRight

theorem separate_new (address : Address) : (new address).Separate := by
  intro other left right object another holdsLeft holdsRight
  cases holdsLeft with
  | announce =>
      cases holdsRight with
      | announce => rfl
      | message member => cases member
      | packet member => cases member
  | message member => cases member
  | packet member => cases member

/-- The address of the own announce leads to it. -/
theorem packetAt_announce (tracker : Tracker) :
    tracker.packetAt tracker.announce.address = some (.announce tracker.announce.object) := by
  rw [packetAt, if_pos rfl]

/-- The own announce is always there. -/
theorem live_announce (tracker : Tracker) : tracker.Live tracker.announce.address :=
  live_iff.mpr ⟨_, _, .announce rfl⟩

/-! ## Moving references -/

/-- The pointers to packets that the lists hold. -/
def Refers (tracker : Tracker) (packet : Address) : Prop :=
  (∃ ref, (packet, ref) ∈ tracker.packetsConnectionsSentList.entries) ∨
    (∃ peer, (packet, peer) ∈ tracker.packetsPeersSentList.entries) ∨
    packet ∈ tracker.broadcastPacketsToSendList ∨
    ∃ ref, (packet, ref) ∈ tracker.targetedPacketsToSendList.entries

/-- A packet that the enqueue functions take. -/
def Travels (tracker : Tracker) (packet : Address) : Prop :=
  ∃ object, tracker.packetAt packet = some object ∧ object.base.packetTtl > 0

/-- The objects are the same, and references are old ones or those to the packets that
the operation enqueues. -/
structure Relists (before after : Tracker) (broadcasts targets : Address → Prop) : Prop where
  messages : after.messages = before.messages
  packets : after.packets = before.packets
  announce : after.announce.address = before.announce.address
  refers : ∀ packet, after.Refers packet →
    before.Refers packet ∨ broadcasts packet ∨ targets packet
  broadcast : ∀ packet ∈ after.broadcastPacketsToSendList,
    packet ∈ before.broadcastPacketsToSendList ∨
      broadcasts packet ∧ before.Travels packet
  targeted : ∀ packet ref, (packet, ref) ∈ after.targetedPacketsToSendList.entries →
    (packet, ref) ∈ before.targetedPacketsToSendList.entries ∨ targets packet

/-- No packet. -/
def nothing (_packet : Address) : Prop :=
  False

namespace Relists

variable {before middle after : Tracker} {broadcasts targets : Address → Prop}

theorem holds (relists : Relists before after broadcasts targets) {address : Address}
    {place : Place} {object : Packet} (there : after.Holds address place object) :
    ∃ other, before.Holds address place other ∧ (place ≠ .announce → object = other) := by
  cases there with
  | announce own =>
      exact ⟨_, .announce (relists.announce.symm.trans own), fun other => absurd rfl other⟩
  | message member here => exact ⟨_, .message (relists.messages ▸ member) here, fun _ => rfl⟩
  | packet member here => exact ⟨_, .packet (relists.packets ▸ member) here, fun _ => rfl⟩

theorem kept (relists : Relists before after broadcasts targets) {address : Address}
    {place : Place} {object : Packet} (there : before.Holds address place object) :
    ∃ other, after.Holds address place other ∧ (place ≠ .announce → object = other) := by
  cases there with
  | announce own =>
      exact ⟨_, .announce (relists.announce.trans own), fun other => absurd rfl other⟩
  | message member here => exact ⟨_, .message (relists.messages ▸ member) here, fun _ => rfl⟩
  | packet member here => exact ⟨_, .packet (relists.packets ▸ member) here, fun _ => rfl⟩

theorem live_iff (relists : Relists before after broadcasts targets) {packet : Address} :
    after.Live packet ↔ before.Live packet := by
  rw [Tracker.live_iff, Tracker.live_iff]
  constructor
  · intro ⟨place, object, there⟩
    obtain ⟨other, holds, _⟩ := relists.holds there
    exact ⟨place, other, holds⟩
  · intro ⟨place, object, there⟩
    obtain ⟨other, holds, _⟩ := relists.kept there
    exact ⟨place, other, holds⟩

theorem separate (relists : Relists before after broadcasts targets)
    (separate : before.Separate) : after.Separate := by
  apply separate.of_subset
  intro address place object there
  obtain ⟨other, holds, _⟩ := relists.holds there
  exact ⟨other, holds⟩

theorem refl (tracker : Tracker) : Relists tracker tracker broadcasts targets :=
  ⟨rfl, rfl, rfl, fun _ => Or.inl, fun _ => Or.inl, fun _ _ => Or.inl⟩

theorem trans (first : Relists before middle nothing targets)
    (second : Relists middle after nothing targets) :
    Relists before after nothing targets where
  messages := second.messages.trans first.messages
  packets := second.packets.trans first.packets
  announce := second.announce.trans first.announce
  refers := by
    intro packet referred
    rcases second.refers packet referred with old | new
    · exact first.refers packet old
    · exact Or.inr new
  broadcast := by
    intro packet waits
    rcases second.broadcast packet waits with old | new
    · exact first.broadcast packet old
    · exact new.1.elim
  targeted := by
    intro packet ref waits
    rcases second.targeted packet ref waits with old | new
    · exact first.targeted packet ref old
    · exact Or.inr new

end Relists

/-- The stored objects, the place of the announce, and the lists. -/
structure Shelf where
  messages : OrderedMap Bytes (Stored Message)
  packets : OrderedMap Nat (Stored PacketPassAlong)
  announce : Address
  sent : MultiMap Address ConnectionRef
  sentToPeers : MultiMap Address UInt64
  broadcast : List Address
  targeted : MultiMap Address ConnectionRef

/-- What packet references are about. -/
def shelf (tracker : Tracker) : Shelf where
  messages := tracker.messages
  packets := tracker.packets
  announce := tracker.announce.address
  sent := tracker.packetsConnectionsSentList
  sentToPeers := tracker.packetsPeersSentList
  broadcast := tracker.broadcastPacketsToSendList
  targeted := tracker.targetedPacketsToSendList

theorem Relists.of_shelf {before after : Tracker} {broadcasts targets : Address → Prop}
    (same : after.shelf = before.shelf) : Relists before after broadcasts targets := by
  have sent : after.packetsConnectionsSentList = before.packetsConnectionsSentList :=
    congrArg Shelf.sent same
  have sentToPeers : after.packetsPeersSentList = before.packetsPeersSentList :=
    congrArg Shelf.sentToPeers same
  have broadcast : after.broadcastPacketsToSendList = before.broadcastPacketsToSendList :=
    congrArg Shelf.broadcast same
  have targeted : after.targetedPacketsToSendList = before.targetedPacketsToSendList :=
    congrArg Shelf.targeted same
  refine ⟨congrArg Shelf.messages same, congrArg Shelf.packets same,
    congrArg Shelf.announce same, ?_, ?_, ?_⟩
  · intro packet referred
    left
    rwa [Refers, sent, sentToPeers, broadcast, targeted] at referred
  · intro packet waits
    exact Or.inl (broadcast ▸ waits)
  · intro packet ref waits
    exact Or.inl (targeted ▸ waits)

@[simp] theorem shelf_updateConnection (tracker : Tracker) (ref : ConnectionRef)
    (change : BleConnection → BleConnection) :
    (tracker.updateConnection ref change).shelf = tracker.shelf := rfl

@[simp] theorem shelf_updatePeer (tracker : Tracker) (peer : UInt64)
    (change : Peer → Peer) : (tracker.updatePeer peer change).shelf = tracker.shelf := rfl

@[simp] theorem shelf_setConnectionHandleForPeer (tracker : Tracker) (conHandle : UInt16)
    (peer : UInt64) :
    (tracker.setConnectionHandleForPeer conHandle peer).shelf = tracker.shelf := rfl

@[simp] theorem shelf_connectionsIndex (tracker : Tracker) (handle : UInt16) :
    (tracker.connectionsIndex handle).2.shelf = tracker.shelf := by
  unfold connectionsIndex
  split <;> rfl

@[simp] theorem shelf_connectionForConnHandle (tracker : Tracker) (handle : UInt16) :
    (tracker.connectionForConnHandle handle).2.shelf = tracker.shelf := by
  unfold connectionForConnHandle
  split <;> simp

@[simp] theorem shelf_checkSenderInPeers (tracker : Tracker) (sender : UInt64) :
    (tracker.checkSenderInPeers sender).shelf = tracker.shelf := by
  unfold checkSenderInPeers
  split <;> rfl

@[simp] theorem shelf_possiblyUpdateTimeOffset (tracker : Tracker)
    (uptime timestampMs : UInt64) :
    (tracker.possiblyUpdateTimeOffset uptime timestampMs).shelf = tracker.shelf := by
  unfold possiblyUpdateTimeOffset
  dsimp only
  split <;> rfl

@[simp] theorem shelf_updateAnnounce (tracker : Tracker) (change : Announce → Announce) :
    (tracker.updateAnnounce change).shelf = tracker.shelf := rfl

@[simp] theorem shelf_setupAnnounceIfNeeded (platform : Platform) (tracker : Tracker) :
    (setupAnnounceIfNeeded platform tracker).shelf = tracker.shelf := by
  unfold setupAnnounceIfNeeded
  split <;> rfl

@[simp] theorem shelf_reportConnection (tracker : Tracker) (uptime : UInt64)
    (handle : UInt16) (addr : Bytes) (addressType : UInt8) :
    (tracker.reportConnection uptime handle addr addressType).shelf = tracker.shelf := by
  have forget : ∀ tracker : Tracker, ∀ neighbours, ({ tracker with
      availableNeighbours := neighbours } : Tracker).shelf = tracker.shelf :=
    fun _ _ => rfl
  simp only [reportConnection, forget]
  split <;> simp

@[simp] theorem shelf_reportConnectionWithRole (tracker : Tracker) (uptime : UInt64)
    (handle : UInt16) (addr : Bytes) (addressType role : UInt8) :
    (tracker.reportConnectionWithRole uptime handle addr addressType role).shelf =
      tracker.shelf := by
  simp [reportConnectionWithRole]

@[simp] theorem shelf_rawPacketCallback (queue : RawQueue) (tracker : Tracker)
    (conHandle : UInt16) (ret : UInt8) :
    (rawPacketCallback queue tracker conHandle ret).tracker.shelf = tracker.shelf := by
  refine rawPacketCallback_invariant (motive := fun current =>
    current.shelf = tracker.shelf) ret ?_ ?_ rfl
  · intro current same
    rwa [shelf_connectionsIndex]
  · intro current packets same
    cases queue <;> exact same

/-! ## Enqueueing and sending -/

theorem relists_enqueueTargetedPacket {tracker after : Tracker} {packet : Address}
    {toConnection : BleConnection}
    (done : tracker.enqueueTargetedPacket packet toConnection = some after) :
    Relists tracker after nothing (Eq packet) := by
  obtain ⟨_, _, ⟨_, rfl⟩ | ⟨_, rfl⟩⟩ := enqueueTargetedPacket_cases done
  · have middle : Relists tracker _ nothing (Eq packet) := .of_shelf
      (shelf_connectionForConnHandle tracker toConnection.connectionHandle)
    refine middle.trans ⟨rfl, rfl, rfl, ?_, fun _ => Or.inl, ?_⟩
    · intro other referred
      rcases referred with sent | peers | broadcast | ⟨ref, targeted⟩
      · exact Or.inl (Or.inl sent)
      · exact Or.inl (Or.inr (Or.inl peers))
      · exact Or.inl (Or.inr (Or.inr (Or.inl broadcast)))
      · rcases MultiMap.mem_emplace.mp targeted with new | old
        · exact Or.inr (Or.inr (congrArg Prod.fst new).symm)
        · exact Or.inl (Or.inr (Or.inr (Or.inr ⟨ref, old⟩)))
    · intro other ref targeted
      rcases MultiMap.mem_emplace.mp targeted with new | old
      · exact Or.inr (congrArg Prod.fst new).symm
      · exact Or.inl old
  · exact Relists.refl _

theorem relists_enqueueBroadcastPacket {tracker after : Tracker} {packet : Address}
    (done : tracker.enqueueBroadcastPacket packet = some after) :
    Relists tracker after (Eq packet) nothing := by
  obtain ⟨object, found, ⟨travels, rfl⟩ | ⟨_, rfl⟩⟩ := enqueueBroadcastPacket_cases done
  · refine ⟨rfl, rfl, rfl, ?_, ?_, fun _ _ => Or.inl⟩
    · intro other referred
      rcases referred with sent | peers | broadcast | targeted
      · exact Or.inl (Or.inl sent)
      · exact Or.inl (Or.inr (Or.inl peers))
      · rcases List.mem_append.mp broadcast with old | new
        · exact Or.inl (Or.inr (Or.inr (Or.inl old)))
        · exact Or.inr (Or.inl (List.mem_singleton.mp new).symm)
      · exact Or.inl (Or.inr (Or.inr (Or.inr targeted)))
    · intro other broadcast
      rcases List.mem_append.mp broadcast with old | new
      · exact Or.inl old
      · cases List.mem_singleton.mp new
        exact Or.inr ⟨rfl, object, found, travels⟩
  · exact Relists.refl _

theorem relists_enqueueBroadcastPacketFrom {tracker after : Tracker} {packet : Address}
    {fromConnection : ConnectionRef} {fromPeer : UInt64}
    (done : tracker.enqueueBroadcastPacketFrom packet fromConnection fromPeer =
      some after) : Relists tracker after (Eq packet) nothing := by
  have queued := relists_enqueueBroadcastPacket done
  refine ⟨queued.messages, queued.packets, queued.announce, ?_, queued.broadcast,
    queued.targeted⟩
  intro other referred
  rcases queued.refers other referred with recorded | new
  · rcases recorded with ⟨ref, sent⟩ | ⟨peer, peers⟩ | rest
    · rcases MultiMap.mem_emplace.mp sent with new | old
      · exact Or.inr (Or.inl (congrArg Prod.fst new).symm)
      · exact Or.inl (Or.inl ⟨ref, old⟩)
    · rcases MultiMap.mem_emplace.mp peers with new | old
      · exact Or.inr (Or.inl (congrArg Prod.fst new).symm)
      · exact Or.inl (Or.inr (Or.inl ⟨peer, old⟩))
    · exact Or.inl (Or.inr (Or.inr rest))
  · exact Or.inr new

theorem relists_announceEach {uptime : UInt64} {announcedTo : List ConnectionRef}
    {connections : List BleConnection} {tracker after : Tracker}
    (done : announceEach uptime announcedTo connections tracker = some after) :
    Relists tracker after nothing (Eq tracker.announce.address) := by
  refine announceEach_invariant (motive := fun current =>
    Relists tracker current nothing (Eq tracker.announce.address)) done ?_ (.refl _)
  intro current next connection relists queued
  have stamped : Relists current (current.stampAnnounce uptime) nothing
      (Eq tracker.announce.address) :=
    .of_shelf (shelf_updateAnnounce current _)
  have queues := relists_enqueueTargetedPacket queued
  rw [relists.announce] at queues
  exact (relists.trans stamped).trans queues

theorem relists_announceToConnections {platform : Platform} {uptime : UInt64}
    {tracker after : Tracker}
    (done : announceToConnections platform tracker uptime = some after) :
    Relists tracker after nothing (Eq tracker.announce.address) := by
  have ready : Relists tracker _ nothing (Eq tracker.announce.address) :=
    .of_shelf (shelf_setupAnnounceIfNeeded platform tracker)
  have announces := relists_announceEach done
  rw [ready.announce] at announces
  exact ready.trans announces

theorem relists_reportDisconnection (tracker : Tracker) (handle : UInt16) :
    Relists tracker (tracker.reportDisconnection handle) nothing nothing := by
  have middle : Relists tracker _ nothing nothing :=
    .of_shelf (shelf_connectionsIndex tracker handle)
  refine middle.trans ⟨rfl, rfl, rfl, ?_, fun _ => Or.inl, fun _ _ => Or.inl⟩
  intro packet referred
  left
  rcases referred with ⟨ref, sent⟩ | rest
  · exact Or.inl ⟨ref, (MultiMap.mem_eraseIf.mp sent).1⟩
  · exact Or.inr rest

theorem relists_sendPackets {tracker after : Tracker}
    {targeted broadcast : List Consideration}
    (done : tracker.sendPackets = some (after, targeted, broadcast)) :
    Relists tracker after nothing nothing := by
  have effect := sendPackets_sendsOnly done
  have sentToPeers : after.packetsPeersSentList = tracker.packetsPeersSentList :=
    (congrArg Tracker.packetsPeersSentList effect.settled :)
  refine ⟨(congrArg Tracker.messages effect.settled :),
    (congrArg Tracker.packets effect.settled :),
    (congrArg (fun tracker => tracker.announce.address) effect.settled :), ?_,
    fun packet waits => Or.inl (effect.broadcast packet waits),
    fun packet ref waits => Or.inl ((effect.targeted _).mp waits).1⟩
  intro packet referred
  left
  rcases referred with ⟨ref, sent⟩ | peers | broadcast | ⟨ref, targeted⟩
  · rcases (effect.sent _).mp sent with old | ⟨consideration, considered, _, same⟩
    · exact Or.inl ⟨ref, old⟩
    · obtain ⟨rfl, rfl⟩ := Prod.mk.inj same
      rcases List.mem_append.mp considered with first | second
      · exact Or.inr (Or.inr (Or.inr ⟨_, effect.pair_of_targeted first⟩))
      · have listed := mem_broadcastPairs.mp (effect.pair_of_broadcast second)
        exact Or.inr (Or.inr (Or.inl listed.1))
  · rw [sentToPeers] at peers
    exact Or.inr (Or.inl peers)
  · exact Or.inr (Or.inr (Or.inl (effect.broadcast packet broadcast)))
  · exact Or.inr (Or.inr (Or.inr ⟨ref, ((effect.targeted _).mp targeted).1⟩))

/-! ## Storing -/

/-- One object more, at an address of its own; the lists are the same. -/
structure Stores (before after : Tracker) (fresh : Address) (new : Place)
    (object : Packet) : Prop where
  refers : ∀ packet, after.Refers packet → before.Refers packet
  broadcast : after.broadcastPacketsToSendList = before.broadcastPacketsToSendList
  targeted : after.targetedPacketsToSendList = before.targetedPacketsToSendList
  announce : after.announce = before.announce
  here : after.Holds fresh new object
  kept : ∀ {address place object}, before.Holds address place object →
    after.Holds address place object
  added : ∀ {address place other}, after.Holds address place other →
    before.Holds address place other ∨ address = fresh ∧ place = new

theorem Stores.separate {before after : Tracker} {fresh : Address} {new : Place}
    {object : Packet} (stores : Stores before after fresh new object)
    (free : ¬ before.Live fresh) (separate : before.Separate) : after.Separate := by
  have unused : ∀ {place other}, ¬ before.Holds fresh place other :=
    fun there => free (live_iff.mpr ⟨_, _, there⟩)
  intro address left right one other holdsLeft holdsRight
  rcases stores.added holdsLeft with oldLeft | ⟨rfl, rfl⟩
  · rcases stores.added holdsRight with oldRight | ⟨rfl, rfl⟩
    · exact separate oldLeft oldRight
    · exact absurd oldLeft unused
  · rcases stores.added holdsRight with oldRight | ⟨_, rfl⟩
    · exact absurd oldRight unused
    · rfl

theorem stores_storeMessage {tracker : Tracker} (address : Address) {message : Message}
    (new : tracker.messages.find? message.messageId = none) :
    Stores tracker (tracker.storeMessageAndReturnIfNew address message).2 address
      (.message message.messageId) (.message message) := by
  have absent := OrderedMap.find?_eq_none_iff.mp new
  simp only [storeMessageAndReturnIfNew, new]
  refine ⟨fun _ => id, rfl, rfl, rfl, ?_, ?_, ?_⟩
  · exact @Holds.message _ address message.messageId ⟨address, message⟩
      (OrderedMap.mem_insert.mpr (Or.inl rfl)) rfl
  · intro other place object there
    cases there with
    | announce own => exact .announce own
    | message member here =>
        exact .message (OrderedMap.mem_insert.mpr (Or.inr ⟨member, absent _ member⟩)) here
    | packet member here => exact .packet member here
  · intro other place object there
    cases there with
    | announce own => exact Or.inl (.announce own)
    | message member here =>
        rcases OrderedMap.mem_insert.mp member with same | ⟨old, _⟩
        · cases same
          exact Or.inr ⟨here.symm, rfl⟩
        · exact Or.inl (.message old here)
    | packet member here => exact Or.inl (.packet member here)

theorem stores_storePacket {platform : Platform} {tracker : Tracker} (address : Address)
    {passAlong : PacketPassAlong}
    (new : tracker.packets.find? (packetHash platform passAlong).toNat = none) :
    Stores tracker (storePacketAndReturnIfNew platform tracker address passAlong).2 address
      (.packet (packetHash platform passAlong).toNat) (.passAlong passAlong) := by
  have absent := OrderedMap.find?_eq_none_iff.mp new
  simp only [storePacketAndReturnIfNew, new]
  refine ⟨fun _ => id, rfl, rfl, rfl, ?_, ?_, ?_⟩
  · exact @Holds.packet _ address _ ⟨address, passAlong⟩
      (OrderedMap.mem_insert.mpr (Or.inl rfl)) rfl
  · intro other place object there
    cases there with
    | announce own => exact .announce own
    | message member here => exact .message member here
    | packet member here =>
        exact .packet (OrderedMap.mem_insert.mpr (Or.inr ⟨member, absent _ member⟩)) here
  · intro other place object there
    cases there with
    | announce own => exact Or.inl (.announce own)
    | message member here => exact Or.inl (.message member here)
    | packet member here =>
        rcases OrderedMap.mem_insert.mp member with same | ⟨old, _⟩
        · cases same
          exact Or.inr ⟨here.symm, rfl⟩
        · exact Or.inl (.packet old here)

/-! ## Cleaning up -/

theorem mem_eraseIfFollowed {ν : Type} {list erased : MultiMap Address ν}
    {condition : Address → ν → Option Bool}
    (done : eraseIfFollowed list condition = some erased) (entry : Address × ν) :
    entry ∈ erased.entries ↔
      entry ∈ list.entries ∧ condition entry.1 entry.2 = some false := by
  unfold eraseIfFollowed at done
  split at done
  · rename_i followed
    cases done
    rw [MultiMap.mem_eraseIf]
    apply and_congr_right
    intro member
    have decided := List.all_eq_true.mp followed entry member
    cases decision : condition entry.1 entry.2 with
    | none => simp [decision] at decided
    | some answer => simp
  · cases done

/-- A timestamp in milliseconds is not too old up to ten minutes after it. -/
theorem stale_eq_false_iff (timestamp now : UInt64) :
    stale (timestamp / 1000) now = false ↔ now.toNat ≤ timestamp.toNat / 1000 + 600000 := by
  have bounded := timestamp.toNat_lt
  have sum : (timestamp / 1000 + tenMinutesInMs).toNat = timestamp.toNat / 1000 + 600000 := by
    rw [UInt64.toNat_add, UInt64.toNat_div]
    change (timestamp.toNat / 1000 + 600000) % 2 ^ 64 = _
    exact Nat.mod_eq_of_lt (by omega)
  rw [stale, decide_eq_false_iff_not, UInt64.lt_iff_toNat_lt, sum, Nat.not_lt]

theorem packetConnectionStale_eq_false {tracker : Tracker} {now : UInt64}
    {packet : Address} {ref : ConnectionRef} :
    tracker.packetConnectionStale now packet ref = some false ↔
      ∃ object connection, tracker.packetAt packet = some object ∧
        tracker.connectionAt ref = some connection ∧
        stale object.base.packetTimestamp now = false ∧
        connectionStale now connection = false := by
  simp only [packetConnectionStale, Option.bind_eq_bind, Option.bind_eq_some_iff]
  constructor
  · intro ⟨object, found, decided⟩
    split at decided
    · cases decided
    · rename_i recent
      obtain ⟨connection, followed, seen⟩ := Option.bind_eq_some_iff.mp decided
      exact ⟨object, connection, found, followed, Bool.not_eq_true _ ▸ recent,
        Option.some.inj seen⟩
  · intro ⟨object, connection, found, followed, recent, seen⟩
    refine ⟨object, found, ?_⟩
    rw [if_neg (Bool.not_eq_true _ ▸ recent), followed]
    exact congrArg some seen

/-- The decision follows the two pointers, and nothing else can go wrong. -/
theorem packetConnectionStale_isSome {tracker : Tracker} (now : UInt64) {packet : Address}
    {ref : ConnectionRef} {object : Packet} {connection : BleConnection}
    (found : tracker.packetAt packet = some object)
    (there : tracker.connectionAt ref = some connection) :
    (tracker.packetConnectionStale now packet ref).isSome := by
  rw [packetConnectionStale, found, Option.bind_eq_bind, Option.bind_some]
  by_cases expired : stale object.base.packetTimestamp now = true
  · rw [if_pos expired]
    exact Option.isSome_some
  · rw [if_neg expired, there]
    exact Option.isSome_some

theorem packetStale_eq_false {tracker : Tracker} {now : UInt64} {packet : Address} :
    tracker.packetStale now packet = some false ↔
      ∃ object, tracker.packetAt packet = some object ∧
        stale object.base.packetTimestampMs now = false := by
  unfold packetStale
  cases tracker.packetAt packet with
  | none => simp
  | some object => simp

/-- A clean-up changes eight of the containers. -/
theorem cleanupStaleItems_eq {before after : Tracker} {uptime : UInt64}
    (done : before.cleanupStaleItems uptime = some after) :
    ∃ sent sentToPeers broadcast targeted, after = { before with
      packetsConnectionsSentList := sent
      packetsPeersSentList := sentToPeers
      broadcastPacketsToSendList := broadcast
      targetedPacketsToSendList := targeted
      connections := before.connections.eraseIf fun _ entry =>
        connectionStale (before.timeMs uptime) entry.connection
      availableNeighbours := before.availableNeighbours.eraseIf fun _ connection =>
        connectionStale (before.timeMs uptime) connection
      messages := before.messages.eraseIf fun _ entry =>
        stale entry.object.packetTimestampMs (before.timeMs uptime)
      packets := before.packets.eraseIf fun _ entry =>
        stale entry.object.packetTimestampMs (before.timeMs uptime) } := by
  simp only [cleanupStaleItems, Option.bind_eq_bind, Option.bind_eq_some_iff] at done
  obtain ⟨sent, _, sentToPeers, _, done⟩ := done
  split at done
  · simp only [Option.bind_some, Option.bind_eq_some_iff] at done
    obtain ⟨targeted, _, same⟩ := done
    exact ⟨sent, sentToPeers, _, targeted, (Option.some.inj same).symm⟩
  · cases done

/-- What a clean-up leaves. -/
structure Cleans (before after : Tracker) (now : UInt64) : Prop where
  sent : ∀ entry, entry ∈ after.packetsConnectionsSentList.entries ↔
    entry ∈ before.packetsConnectionsSentList.entries ∧
      before.packetConnectionStale now entry.1 entry.2 = some false
  sentToPeers : ∀ entry, entry ∈ after.packetsPeersSentList.entries ↔
    entry ∈ before.packetsPeersSentList.entries ∧
      before.packetStale now entry.1 = some false
  broadcast : ∀ packet, packet ∈ after.broadcastPacketsToSendList ↔
    packet ∈ before.broadcastPacketsToSendList ∧
      before.packetStale now packet = some false
  targeted : ∀ entry, entry ∈ after.targetedPacketsToSendList.entries ↔
    entry ∈ before.targetedPacketsToSendList.entries ∧
      before.packetConnectionStale now entry.1 entry.2 = some false
  messages : ∀ entry, entry ∈ after.messages.entries ↔
    entry ∈ before.messages.entries ∧ stale entry.2.object.packetTimestampMs now = false
  packets : ∀ entry, entry ∈ after.packets.entries ↔
    entry ∈ before.packets.entries ∧ stale entry.2.object.packetTimestampMs now = false
  announce : after.announce = before.announce

theorem cleans_cleanupStaleItems {before after : Tracker} {uptime : UInt64}
    (done : before.cleanupStaleItems uptime = some after) :
    Cleans before after (before.timeMs uptime) := by
  simp only [cleanupStaleItems, Option.bind_eq_bind, Option.bind_eq_some_iff] at done
  obtain ⟨sent, sentDone, sentToPeers, peersDone, done⟩ := done
  split at done
  · rename_i followed
    simp only [Option.bind_some, Option.bind_eq_some_iff] at done
    obtain ⟨targeted, targetedDone, same⟩ := done
    cases same
    refine ⟨mem_eraseIfFollowed sentDone, mem_eraseIfFollowed peersDone, ?_,
      mem_eraseIfFollowed targetedDone, by simp, by simp, rfl⟩
    intro packet
    rw [List.mem_filter]
    apply and_congr_right
    intro member
    have decided := List.all_eq_true.mp followed packet member
    cases decision : before.packetStale (before.timeMs uptime) packet with
    | none => simp [decision] at decided
    | some answer => simp
  · cases done

namespace Cleans

variable {before after : Tracker} {now : UInt64}

/-- What cleaning up leaves was there before, and was not too old. -/
theorem holds (cleans : Cleans before after now) {address : Address} {place : Place}
    {object : Packet} (there : after.Holds address place object) :
    before.Holds address place object ∧
      (place ≠ .announce → stale object.base.packetTimestampMs now = false) := by
  cases there with
  | announce own =>
      rw [cleans.announce] at own ⊢
      exact ⟨.announce own, fun other => absurd rfl other⟩
  | message member here =>
      obtain ⟨listed, recent⟩ := (cleans.messages _).mp member
      exact ⟨.message listed here, fun _ => recent⟩
  | packet member here =>
      obtain ⟨listed, recent⟩ := (cleans.packets _).mp member
      exact ⟨.packet listed here, fun _ => recent⟩

/-- The own announce, and what is not too old by its timestamp in milliseconds, stays. -/
theorem kept (cleans : Cleans before after now) {address : Address} {place : Place}
    {object : Packet} (there : before.Holds address place object)
    (recent : place = .announce ∨ stale object.base.packetTimestampMs now = false) :
    after.Holds address place object := by
  cases there with
  | announce own =>
      rw [← cleans.announce] at own ⊢
      exact .announce own
  | message member here =>
      have recent := recent.resolve_left (by simp)
      exact .message ((cleans.messages _).mpr ⟨member, recent⟩) here
  | packet member here =>
      have recent := recent.resolve_left (by simp)
      exact .packet ((cleans.packets _).mpr ⟨member, recent⟩) here

theorem separate (cleans : Cleans before after now) (separate : before.Separate) :
    after.Separate :=
  separate.of_subset fun there => ⟨_, (cleans.holds there).1⟩

end Cleans

/-! ## The three cases -/

/-- The packet that an operation enqueues for everyone. -/
def Operation.Broadcasts : Operation → Address → Prop
  | .enqueueBroadcastPacket packet => Eq packet
  | .enqueueBroadcastPacketFrom packet _ _ => Eq packet
  | _ => nothing

/-- The packet that an operation enqueues for one connection. -/
def Operation.Targets (tracker : Tracker) : Operation → Address → Prop
  | .enqueueTargetedPacket packet _ => Eq packet
  | .announceToConnections _ => Eq tracker.announce.address
  | _ => nothing

/-- What an operation stores, if it is new. -/
def Operation.Carries (object : Packet) : Operation → Prop
  | .storeMessageAndReturnIfNew _ message => object = .message message
  | .storePacketAndReturnIfNew _ passAlong => object = .passAlong passAlong
  | _ => False

/-- All that an operation can do. -/
inductive Effect (before after : Tracker) : Operation → Prop where
  | relists {operation : Operation} :
      (∀ uptime, operation ≠ .cleanupStaleItems uptime) →
      Relists before after operation.Broadcasts (operation.Targets before) →
      Effect before after operation
  | stores {operation : Operation} {fresh : Address} {new : Place} {object : Packet} :
      (∀ uptime, operation ≠ .cleanupStaleItems uptime) →
      operation.Carries object → ¬ before.Live fresh →
      Stores before after fresh new object → Effect before after operation
  | cleans (uptime : UInt64) : Cleans before after (before.timeMs uptime) →
      Effect before after (.cleanupStaleItems uptime)

theorem effect_of_step {platform : Platform} {before after : Tracker}
    {operation : Operation} (step : OperationStep platform before operation after) :
    Effect before after operation := by
  obtain ⟨allowed, done⟩ := step
  cases operation with
  | storeMessageAndReturnIfNew address message =>
      cases done
      cases found : before.messages.find? message.messageId with
      | some entry =>
          simp only [storeMessageAndReturnIfNew, found]
          exact .relists (by simp) (Relists.refl before)
      | none =>
          exact .stores (by simp) rfl (not_live allowed)
            (stores_storeMessage address found)
  | storePacketAndReturnIfNew address passAlong =>
      cases done
      cases found : before.packets.find? (packetHash platform passAlong).toNat with
      | some entry =>
          simp only [storePacketAndReturnIfNew, found]
          exact .relists (by simp) (Relists.refl before)
      | none =>
          exact .stores (by simp) rfl (not_live allowed)
            (stores_storePacket address found)
  | enqueueTargetedPacket packet toConnection =>
      exact .relists (by simp) (relists_enqueueTargetedPacket done)
  | enqueueBroadcastPacket packet =>
      exact .relists (by simp) (relists_enqueueBroadcastPacket done)
  | enqueueBroadcastPacketFrom packet fromConnection fromPeer =>
      exact .relists (by simp) (relists_enqueueBroadcastPacketFrom done)
  | announceToConnections uptime =>
      exact .relists (by simp) (relists_announceToConnections done)
  | reportDisconnection handle =>
      cases done
      exact .relists (by simp) (relists_reportDisconnection before handle)
  | sendPackets =>
      obtain ⟨⟨last, targeted, broadcast⟩, sent, same⟩ := Option.map_eq_some_iff.mp done
      cases same
      exact .relists (by simp) (relists_sendPackets sent)
  | cleanupStaleItems uptime => exact .cleans uptime (cleans_cleanupStaleItems done)
  | checkSenderInPeers sender =>
      cases done
      exact .relists (by simp) (.of_shelf (shelf_checkSenderInPeers before sender))
  | connectionForConnHandle handle =>
      cases done
      exact .relists (by simp) (.of_shelf (shelf_connectionForConnHandle before handle))
  | reportConnection uptime handle addr addressType =>
      cases done
      exact .relists (by simp)
        (.of_shelf (shelf_reportConnection before uptime handle addr addressType))
  | reportConnectionWithRole uptime handle addr addressType role =>
      cases done
      exact .relists (by simp) (.of_shelf
        (shelf_reportConnectionWithRole before uptime handle addr addressType role))
  | possiblyUpdateTimeOffset uptime timestampMs =>
      cases done
      exact .relists (by simp)
        (.of_shelf (shelf_possiblyUpdateTimeOffset before uptime timestampMs))
  | notifyRawPacket conHandle ret =>
      cases done
      exact .relists (by simp)
        (.of_shelf (shelf_rawPacketCallback .notify before conHandle ret))
  | writeRawPacket conHandle ret =>
      cases done
      exact .relists (by simp)
        (.of_shelf (shelf_rawPacketCallback .write before conHandle ret))
  | addAvailablePeer uptime btAddress btAddressType services rssi =>
      cases done
      exact .relists (by simp) (.of_shelf rfl)
  | setConnectionHandleForPeer conHandle peer =>
      cases done
      exact .relists (by simp) (.of_shelf (shelf_setConnectionHandleForPeer ..))
  | updateConnection connection change =>
      cases done
      exact .relists (by simp) (.of_shelf (shelf_updateConnection before connection change))
  | updatePeer peer change =>
      cases done
      exact .relists (by simp) (.of_shelf (shelf_updatePeer before peer change))

/-- What an operation enqueues is there. -/
theorem live_of_enqueued {platform : Platform} {before after : Tracker}
    {operation : Operation} (step : OperationStep platform before operation after)
    {packet : Address}
    (enqueued : operation.Broadcasts packet ∨ operation.Targets before packet) :
    before.Live packet := by
  have allowed := step.1
  cases operation <;>
    simp only [Operation.Broadcasts, Operation.Targets, nothing, or_false, false_or,
      or_self] at enqueued
  all_goals
    subst enqueued
    first
      | exact allowed
      | exact live_announce before

/-- Objects stay apart. -/
theorem Separate.step {platform : Platform} {before after : Tracker}
    {operation : Operation} (separate : before.Separate)
    (step : OperationStep platform before operation after) : after.Separate := by
  cases effect_of_step step with
  | relists _ relists => exact relists.separate separate
  | stores _ _ free stores => exact stores.separate free separate
  | cleans _ cleans => exact cleans.separate separate

/-- A clean-up that erases the object behind a pointer. -/
def Erases (packet : Address) (tracker : Tracker) : Operation → Prop
  | .cleanupStaleItems uptime => ∃ object, tracker.packetAt packet = some object ∧
      stale object.base.packetTimestampMs (tracker.timeMs uptime) = true
  | _ => False

/-- A stored object stays where it is until it is erased. -/
theorem holds_of_step {platform : Platform} {before after : Tracker} {operation : Operation}
    {packet : Address} {place : Place} {object : Packet} (separate : before.Separate)
    (step : OperationStep platform before operation after)
    (kept : ¬ Erases packet before operation) (holds : before.Holds packet place object)
    (stored : place ≠ .announce) : after.Holds packet place object := by
  cases effect_of_step step with
  | relists _ relists =>
      obtain ⟨same, there, eq⟩ := relists.kept holds
      cases eq stored
      exact there
  | stores _ _ _ stores => exact stores.kept holds
  | cleans uptime cleans =>
      apply cleans.kept holds (Or.inr (Bool.eq_false_iff.mpr ?_))
      intro old
      exact kept ⟨object, separate.packetAt_iff.mpr ⟨place, holds⟩, old⟩

/-- The object behind a pointer that is not the announce's is kept in a map. -/
theorem stored_of_packetAt {tracker : Tracker} {packet : Address} {object : Packet}
    (found : tracker.packetAt packet = some object)
    (stored : packet ≠ tracker.announce.address) :
    ∃ place, tracker.Holds packet place object ∧ place ≠ .announce := by
  obtain ⟨place, holds⟩ := holds_of_packetAt found
  refine ⟨place, holds, ?_⟩
  rintro rfl
  cases holds with
  | announce own => exact stored own.symm

/-- What is kept in a map is not the announce. -/
theorem Holds.packetAt_stored {tracker : Tracker} {packet : Address} {place : Place}
    {object : Packet} (holds : tracker.Holds packet place object)
    (separate : tracker.Separate) (stored : place ≠ .announce) :
    tracker.packetAt packet = some object ∧ packet ≠ tracker.announce.address := by
  refine ⟨separate.packetAt_iff.mpr ⟨place, holds⟩, ?_⟩
  intro own
  exact stored (separate holds (.announce own.symm))

/-- A stored object stays the same until it is erased. -/
theorem packetAt_of_step {platform : Platform} {before after : Tracker}
    {operation : Operation} {packet : Address} {object : Packet}
    (separate : before.Separate) (step : OperationStep platform before operation after)
    (kept : ¬ Erases packet before operation)
    (found : before.packetAt packet = some object)
    (stored : packet ≠ before.announce.address) :
    after.packetAt packet = some object ∧ packet ≠ after.announce.address := by
  obtain ⟨place, holds, other⟩ := stored_of_packetAt found stored
  exact (holds_of_step separate step kept holds other).packetAt_stored (separate.step step) other

end BleRepeater.Tracker
