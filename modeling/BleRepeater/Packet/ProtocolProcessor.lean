import BleRepeater.Ble.Effects

/-!
# ProtocolProcessor

`processWrite`, which decodes a received buffer and hands what is new to the tracker.  For
the tracker it is a sequence of operations that stores and enqueues nothing but the
received packet, so everything known of the operations holds of it.
-/

namespace BleRepeater.ProtocolProcessor

open BinaryReader Transition Tracker

/-- What `processWrite` finds in a buffer. -/
inductive Received where
  | ignored
  | announce (announce : Announce)
  | message (message : Message)
  deriving DecidableEq

/-- The reads of `processWrite`. -/
def receive : StateM BinaryReader Received := do
  let version ← readUint8
  if version < 1 ∨ version > 2 then
    return .ignored
  else
    let type ← readUint8
    if type = typeAnnounce then
      let announce ← Announce.read type version
      return .announce announce
    else if type = typeMessage then
      let message ← Message.read type version
      return .message message
    else
      return .ignored

/-- What a buffer holds at an offset. -/
def received (offset : UInt16) (buffer : Buffer) : Received :=
  (receive (BinaryReader.new offset buffer)).1

/-- `ProtocolProcessor::updateOrStorePeerNameFromAnnouncement`; of the connection only the
handle is read. -/
def updateOrStorePeerNameFromAnnouncement (tracker : Tracker) (announce : Announce)
    (conHandle : UInt16) : Tracker :=
  let sender := announce.packetSenderId
  let tracker := tracker.checkSenderInPeers sender
  let peer := (tracker.peers.find? sender).getD {}
  let tracker := tracker.updatePeer sender fun peer => { peer with name := announce.name }
  if announce.packetTtl ≥ peer.maxTtl then
    let tracker := tracker.updatePeer sender fun peer =>
      { peer with maxTtl := announce.packetTtl }
    tracker.setConnectionHandleForPeer conHandle sender
  else
    tracker

/-- What `processWrite` does with an announce before it looks whether it is new. -/
def heard (tracker : Tracker) (uptime : UInt64) (conHandle : UInt16) (announce : Announce) :
    Tracker :=
  (updateOrStorePeerNameFromAnnouncement tracker announce conHandle).possiblyUpdateTimeOffset
    uptime announce.packetTimestampMs

/-- The case `type_announce` of `processWrite`. -/
def processAnnounce (platform : Platform) (tracker : Tracker) (uptime : UInt64)
    (address : Address) (connection : ConnectionRef) (conHandle : UInt16)
    (announce : Announce) : Option Tracker :=
  let tracker := heard tracker uptime conHandle announce
  match storePacketAndReturnIfNew platform tracker address announce.toPacketPassAlong with
  | (some storedAnnounce, tracker) =>
      (tracker.checkSenderInPeers announce.packetSenderId).enqueueBroadcastPacketFrom
        storedAnnounce connection announce.packetSenderId
  | (none, tracker) => some tracker

/-- The case `type_message` of `processWrite`. -/
def processMessage (tracker : Tracker) (address : Address) (connection : ConnectionRef)
    (message : Message) : Option Tracker :=
  match tracker.storeMessageAndReturnIfNew address message with
  | (some storedMessage, tracker) =>
      (tracker.checkSenderInPeers message.packetSenderId).enqueueBroadcastPacketFrom
        storedMessage connection message.packetSenderId
  | (none, tracker) => some tracker

/-- `ProtocolProcessor::processWrite`.  The connection is given by its pointer and its
handle; what is stored comes to lie at `address`. -/
def processWrite (platform : Platform) (tracker : Tracker) (uptime : UInt64)
    (address : Address) (connection : ConnectionRef) (conHandle offset : UInt16)
    (buffer : Buffer) : Option Tracker :=
  match received offset buffer with
  | .announce announce =>
      processAnnounce platform tracker uptime address connection conHandle announce
  | .message message => processMessage tracker address connection message
  | .ignored => some tracker

/-! ## As operations of the tracker -/

/-- What the tracker keeps of a received packet. -/
def Received.kept : Received → Option Packet
  | .ignored => none
  | .announce packet => some (.passAlong packet.toPacketPassAlong)
  | .message packet => some (.message packet)

/-- An operation that stores and enqueues nothing but one object, and erases nothing. -/
structure Handles (fresh : Address) (kept : Option Packet) (tracker : Tracker)
    (operation : Operation) : Prop where
  noCleanup : ∀ uptime, operation ≠ .cleanupStaleItems uptime
  noTarget : ∀ packet, ¬ operation.Targets tracker packet
  carries : ∀ object, operation.Carries object → kept = some object
  broadcasts : ∀ packet, operation.Broadcasts packet →
    packet = fresh ∧ tracker.packetAt packet = kept

/-- An operation that has nothing to do with packets. -/
theorem Handles.of_other {fresh : Address} {kept : Option Packet} {tracker : Tracker}
    {operation : Operation} (noCleanup : ∀ uptime, operation ≠ .cleanupStaleItems uptime)
    (noTarget : operation.Targets tracker = nothing)
    (noCarry : ∀ object, ¬ operation.Carries object)
    (noBroadcast : operation.Broadcasts = nothing) :
    Handles fresh kept tracker operation where
  noCleanup := noCleanup
  noTarget packet := by simp [noTarget, nothing]
  carries object carries := absurd carries (noCarry object)
  broadcasts packet := by simp [noBroadcast, nothing]

section Operations

variable {platform : Platform} {before after : Tracker} {address : Address}
  {connection : ConnectionRef}

@[simp] theorem shelf_heard (tracker : Tracker) (uptime : UInt64) (conHandle : UInt16)
    (announce : Announce) : (heard tracker uptime conHandle announce).shelf = tracker.shelf := by
  rw [heard, shelf_possiblyUpdateTimeOffset]
  unfold updateOrStorePeerNameFromAnnouncement
  dsimp only
  split <;> simp

theorem heard_run (platform : Platform) (fresh : Address) (kept : Option Packet)
    (tracker : Tracker) (uptime : UInt64) (conHandle : UInt16) (announce : Announce) :
    ∃ operations, Run (Guarded (Handles fresh kept) (OperationStep platform)) tracker
      operations (heard tracker uptime conHandle announce) := by
  have other : ∀ {tracker operation after},
      OperationStep platform tracker operation after →
      (∀ uptime, operation ≠ .cleanupStaleItems uptime) →
      operation.Targets tracker = nothing → (∀ object, ¬ operation.Carries object) →
      operation.Broadcasts = nothing →
      Guarded (Handles fresh kept) (OperationStep platform) tracker operation after :=
    fun step noCleanup noTarget noCarry noBroadcast =>
      ⟨.of_other noCleanup noTarget noCarry noBroadcast, step⟩
  have checks : ∀ tracker : Tracker,
      Guarded (Handles fresh kept) (OperationStep platform) tracker
        (.checkSenderInPeers announce.packetSenderId)
        (tracker.checkSenderInPeers announce.packetSenderId) :=
    fun _ => other ⟨trivial, rfl⟩ (by simp) rfl (by simp [Operation.Carries]) rfl
  have updates : ∀ (tracker : Tracker) change,
      Guarded (Handles fresh kept) (OperationStep platform) tracker
        (.updatePeer announce.packetSenderId change)
        (tracker.updatePeer announce.packetSenderId change) :=
    fun _ _ => other ⟨trivial, rfl⟩ (by simp) rfl (by simp [Operation.Carries]) rfl
  have sets : ∀ tracker : Tracker,
      Guarded (Handles fresh kept) (OperationStep platform) tracker
        (.setConnectionHandleForPeer conHandle announce.packetSenderId)
        (tracker.setConnectionHandleForPeer conHandle announce.packetSenderId) :=
    fun _ => other ⟨trivial, rfl⟩ (by simp) rfl (by simp [Operation.Carries]) rfl
  have clock : ∀ tracker : Tracker,
      Guarded (Handles fresh kept) (OperationStep platform) tracker
        (.possiblyUpdateTimeOffset uptime announce.packetTimestampMs)
        (tracker.possiblyUpdateTimeOffset uptime announce.packetTimestampMs) :=
    fun _ => other ⟨trivial, rfl⟩ (by simp) rfl (by simp [Operation.Carries]) rfl
  unfold heard updateOrStorePeerNameFromAnnouncement
  dsimp only
  split
  · exact ⟨_, .cons (checks _) (.cons (updates _ _) (.cons (updates _ _)
      (.cons (sets _) (.cons (clock _) (.nil _)))))⟩
  · exact ⟨_, .cons (checks _) (.cons (updates _ _) (.cons (clock _) (.nil _)))⟩

/-- Once a new object is stored, the rest of `processWrite` enqueues it. -/
theorem enqueueStored_run {kept : Packet} {operation : Operation} {middle : Tracker}
    {place : Place} {fromPeer : UInt64} (separate : before.Separate)
    (free : before.packetAt address = none)
    (carries : ∀ object, operation.Carries object → object = kept)
    (noCleanup : ∀ uptime, operation ≠ .cleanupStaleItems uptime)
    (noTarget : operation.Targets before = nothing)
    (noBroadcast : operation.Broadcasts = nothing)
    (step : OperationStep platform before operation middle)
    (stores : Stores before middle address place kept)
    (done : (middle.checkSenderInPeers fromPeer).enqueueBroadcastPacketFrom address
      connection fromPeer = some after) :
    ∃ operations, Run (Guarded (Handles address (some kept)) (OperationStep platform))
      before operations after := by
  have apart := separate.step step
  have found : middle.packetAt address = some kept :=
    apart.packetAt_iff.mpr ⟨place, stores.here⟩
  have stored : address ≠ middle.announce.address := by
    rw [stores.announce]
    rintro rfl
    exact not_live free (live_announce before)
  have check : OperationStep platform middle (.checkSenderInPeers fromPeer)
      (middle.checkSenderInPeers fromPeer) := ⟨trivial, rfl⟩
  have still := (packetAt_of_step apart check (by simp [Erases]) found stored).1
  have enqueue : OperationStep platform (middle.checkSenderInPeers fromPeer)
      (.enqueueBroadcastPacketFrom address connection fromPeer) after :=
    ⟨by simp [Operation.Allowed, still], done⟩
  have storing : Handles address (some kept) before operation :=
    ⟨noCleanup, by simp [noTarget, nothing],
      fun object same => congrArg some (carries object same).symm,
      by simp [noBroadcast, nothing]⟩
  have checking : Handles address (some kept) middle (.checkSenderInPeers fromPeer) :=
    .of_other (by simp) rfl (by simp [Operation.Carries]) rfl
  have enqueueing : Handles address (some kept) (middle.checkSenderInPeers fromPeer)
      (.enqueueBroadcastPacketFrom address connection fromPeer) := by
    refine ⟨by simp, fun _ => id, by simp [Operation.Carries], ?_⟩
    intro packet same
    cases same
    exact ⟨rfl, still⟩
  exact ⟨_, .cons ⟨storing, step⟩ (.cons ⟨checking, check⟩
    (.cons ⟨enqueueing, enqueue⟩ (.nil after)))⟩

theorem processMessage_known {message : Message} {entry : Stored Message}
    (known : before.messages.find? message.messageId = some entry) :
    processMessage before address connection message = some before := by
  simp [processMessage, storeMessageAndReturnIfNew, known]

theorem processMessage_new {message : Message}
    (new : before.messages.find? message.messageId = none) :
    processMessage before address connection message =
      ((before.storeMessageAndReturnIfNew address message).2.checkSenderInPeers
        message.packetSenderId).enqueueBroadcastPacketFrom address connection
          message.packetSenderId := by
  simp [processMessage, storeMessageAndReturnIfNew, new]

theorem packets_heard (tracker : Tracker) (uptime : UInt64) (conHandle : UInt16)
    (announce : Announce) : (heard tracker uptime conHandle announce).packets = tracker.packets :=
  congrArg Shelf.packets (shelf_heard tracker uptime conHandle announce)

theorem relists_heard (tracker : Tracker) (uptime : UInt64) (conHandle : UInt16)
    (announce : Announce) :
    Relists tracker (heard tracker uptime conHandle announce) nothing nothing :=
  .of_shelf (shelf_heard tracker uptime conHandle announce)

theorem free_heard {tracker : Tracker} {uptime : UInt64} {conHandle : UInt16}
    {announce : Announce} (free : tracker.packetAt address = none) :
    (heard tracker uptime conHandle announce).packetAt address = none := by
  have absent := not_live free
  rw [← (relists_heard tracker uptime conHandle announce).live_iff] at absent
  simpa [Live] using absent

theorem processAnnounce_known {uptime : UInt64} {conHandle : UInt16} {announce : Announce}
    {entry : Stored PacketPassAlong}
    (known : before.packets.find? (packetHash platform announce.toPacketPassAlong).toNat =
      some entry) :
    processAnnounce platform before uptime address connection conHandle announce =
      some (heard before uptime conHandle announce) := by
  simp [processAnnounce, storePacketAndReturnIfNew, packets_heard, known]

theorem processAnnounce_new {uptime : UInt64} {conHandle : UInt16} {announce : Announce}
    (new : before.packets.find? (packetHash platform announce.toPacketPassAlong).toNat =
      none) :
    processAnnounce platform before uptime address connection conHandle announce =
      ((storePacketAndReturnIfNew platform (heard before uptime conHandle announce) address
        announce.toPacketPassAlong).2.checkSenderInPeers
          announce.packetSenderId).enqueueBroadcastPacketFrom address connection
            announce.packetSenderId := by
  simp [processAnnounce, storePacketAndReturnIfNew, packets_heard, new]

/-- A new message is added to the messages. -/
theorem messages_processMessage_new {message : Message}
    (new : before.messages.find? message.messageId = none)
    (done : processMessage before address connection message = some after) :
    after.messages = before.messages.insert message.messageId ⟨address, message⟩ := by
  rw [processMessage_new new] at done
  have checked : ∀ tracker : Tracker,
      (tracker.checkSenderInPeers message.packetSenderId).messages = tracker.messages :=
    fun tracker => congrArg Shelf.messages (shelf_checkSenderInPeers tracker _)
  rw [(relists_enqueueBroadcastPacketFrom done).messages, checked]
  simp [storeMessageAndReturnIfNew, new]

/-- An announce leaves the messages as they are. -/
theorem messages_processAnnounce {uptime : UInt64} {conHandle : UInt16}
    {announce : Announce}
    (done : processAnnounce platform before uptime address connection conHandle announce =
      some after) : after.messages = before.messages := by
  have heardSame : (heard before uptime conHandle announce).messages = before.messages :=
    congrArg Shelf.messages (shelf_heard before uptime conHandle announce)
  cases known : before.packets.find?
      (packetHash platform announce.toPacketPassAlong).toNat with
  | some entry =>
      cases (processAnnounce_known known).symm.trans done
      exact heardSame
  | none =>
      rw [processAnnounce_new known] at done
      have checked : ∀ tracker : Tracker,
          (tracker.checkSenderInPeers announce.packetSenderId).messages = tracker.messages :=
        fun tracker => congrArg Shelf.messages (shelf_checkSenderInPeers tracker _)
      rw [(relists_enqueueBroadcastPacketFrom done).messages, checked]
      rw [← packets_heard before uptime conHandle announce] at known
      simp [storePacketAndReturnIfNew, known, heardSame]

theorem processMessage_run (platform : Platform) {message : Message} (separate : before.Separate)
    (free : before.packetAt address = none)
    (done : processMessage before address connection message = some after) :
    ∃ operations, Run (Guarded (Handles address (some (.message message)))
      (OperationStep platform)) before operations after := by
  cases known : before.messages.find? message.messageId with
  | some entry =>
      rw [processMessage_known known] at done
      cases done
      exact ⟨[], .nil before⟩
  | none =>
      rw [processMessage_new known] at done
      have step : OperationStep platform before (.storeMessageAndReturnIfNew address message)
          (before.storeMessageAndReturnIfNew address message).2 := ⟨free, rfl⟩
      exact enqueueStored_run separate free (by simp [Operation.Carries]) (by simp)
        rfl rfl step (stores_storeMessage address known) done

theorem processAnnounce_run {uptime : UInt64} {conHandle : UInt16} {announce : Announce}
    (separate : before.Separate) (free : before.packetAt address = none)
    (done : processAnnounce platform before uptime address connection conHandle announce =
      some after) :
    ∃ operations, Run
      (Guarded (Handles address (some (.passAlong announce.toPacketPassAlong)))
        (OperationStep platform)) before operations after := by
  obtain ⟨first, hears⟩ := heard_run platform address
    (some (.passAlong announce.toPacketPassAlong)) before uptime conHandle announce
  cases known : before.packets.find?
      (packetHash platform announce.toPacketPassAlong).toNat with
  | some entry =>
      rw [processAnnounce_known known] at done
      cases done
      exact ⟨first, hears⟩
  | none =>
      rw [processAnnounce_new known] at done
      have same := relists_heard before uptime conHandle announce
      have stillFree : (heard before uptime conHandle announce).packetAt address = none :=
        free_heard free
      have step : OperationStep platform (heard before uptime conHandle announce)
          (.storePacketAndReturnIfNew address announce.toPacketPassAlong)
          (storePacketAndReturnIfNew platform (heard before uptime conHandle announce) address
            announce.toPacketPassAlong).2 := ⟨stillFree, rfl⟩
      rw [← packets_heard before uptime conHandle announce] at known
      obtain ⟨second, rest⟩ := enqueueStored_run (same.separate separate) stillFree
        (by simp [Operation.Carries]) (by simp) rfl rfl step
        (stores_storePacket address known) done
      exact ⟨first ++ second, hears.append rest⟩

/-- `processWrite` is a sequence of operations that stores and enqueues nothing but the
received packet. -/
theorem processWrite_run {uptime : UInt64} {conHandle offset : UInt16} {buffer : Buffer}
    (separate : before.Separate) (free : before.packetAt address = none)
    (done : processWrite platform before uptime address connection conHandle offset buffer =
      some after) :
    ∃ operations, Run
      (Guarded (Handles address (received offset buffer).kept) (OperationStep platform))
      before operations after := by
  simp only [processWrite] at done
  cases found : received offset buffer with
  | ignored =>
      rw [found] at done
      cases done
      exact ⟨[], .nil before⟩
  | announce announce =>
      rw [found] at done
      exact processAnnounce_run separate free done
  | message message =>
      rw [found] at done
      exact processMessage_run platform separate free done

/-! ## What is accepted -/

/-- A packet that is not in the store. -/
def Received.New (platform : Platform) (tracker : Tracker) : Received → Prop
  | .ignored => False
  | .announce packet =>
      tracker.packets.find? (packetHash platform packet.toPacketPassAlong).toNat = none
  | .message packet => tracker.messages.find? packet.messageId = none

instance decidableNew (platform : Platform) (tracker : Tracker) (received : Received) :
    Decidable (received.New platform tracker) := by
  cases received <;> unfold Received.New <;> infer_instance

/-- A new object lies at its address and waits to be sent if it has TTL left. -/
structure Accepted (before after : Tracker) (address : Address) (kept : Packet) : Prop where
  found : after.packetAt address = some kept
  stored : address ≠ after.announce.address
  queued : after.broadcastPacketsToSendList =
    before.broadcastPacketsToSendList ++ if kept.base.packetTtl > 0 then [address] else []

theorem packetAt_checkSenderInPeers (tracker : Tracker) (sender : UInt64)
    (packet : Address) :
    (tracker.checkSenderInPeers sender).packetAt packet = tracker.packetAt packet := by
  unfold checkSenderInPeers
  split <;> rfl

theorem enqueueBroadcastPacketFrom_eq {tracker : Tracker} {packet : Address}
    {object : Packet} (found : tracker.packetAt packet = some object)
    (fromConnection : ConnectionRef) (fromPeer : UInt64) :
    tracker.enqueueBroadcastPacketFrom packet fromConnection fromPeer = some { tracker with
      packetsConnectionsSentList :=
        tracker.packetsConnectionsSentList.emplace packet fromConnection
      packetsPeersSentList := tracker.packetsPeersSentList.emplace packet fromPeer
      broadcastPacketsToSendList := tracker.broadcastPacketsToSendList ++
        if object.base.packetTtl > 0 then [packet] else [] } := by
  unfold enqueueBroadcastPacketFrom enqueueBroadcastPacket
  change (tracker.packetAt packet).bind _ = _
  rw [found, Option.bind_some]
  split
  · rfl
  · simp

theorem accepted_of_stored {kept : Packet} {middle : Tracker} {place : Place}
    {fromPeer : UInt64} (separate : before.Separate)
    (free : before.packetAt address = none)
    (stores : Stores before middle address place kept)
    (done : (middle.checkSenderInPeers fromPeer).enqueueBroadcastPacketFrom address
      connection fromPeer = some after) : Accepted before after address kept := by
  have apart := stores.separate (not_live free) separate
  have found : (middle.checkSenderInPeers fromPeer).packetAt address = some kept := by
    rw [packetAt_checkSenderInPeers]
    exact apart.packetAt_iff.mpr ⟨place, stores.here⟩
  have same := shelf_checkSenderInPeers middle fromPeer
  have announce : (middle.checkSenderInPeers fromPeer).announce.address =
      middle.announce.address := congrArg Shelf.announce same
  have broadcast : (middle.checkSenderInPeers fromPeer).broadcastPacketsToSendList =
      middle.broadcastPacketsToSendList := congrArg Shelf.broadcast same
  rw [enqueueBroadcastPacketFrom_eq found] at done
  cases done
  refine ⟨found, ?_, ?_⟩
  · change address ≠ (middle.checkSenderInPeers fromPeer).announce.address
    rw [announce, stores.announce]
    rintro rfl
    exact not_live free (live_announce before)
  · rw [broadcast, stores.broadcast]

/-- `processWrite` accepts what is new. -/
theorem accepted_of_processWrite {uptime : UInt64} {conHandle offset : UInt16}
    {buffer : Buffer} (separate : before.Separate)
    (free : before.packetAt address = none)
    (new : (received offset buffer).New platform before)
    (done : processWrite platform before uptime address connection conHandle offset buffer =
      some after) :
    ∃ kept, (received offset buffer).kept = some kept ∧
      Accepted before after address kept := by
  simp only [processWrite] at done
  cases found : received offset buffer with
  | ignored =>
      rw [found] at new
      exact new.elim
  | message message =>
      rw [found] at done new
      have done := (processMessage_new new).symm.trans done
      exact ⟨_, rfl, accepted_of_stored separate free (stores_storeMessage address new) done⟩
  | announce announce =>
      rw [found] at done new
      have done := (processAnnounce_new new).symm.trans done
      have apart := (relists_heard before uptime conHandle announce).separate separate
      have queued : (heard before uptime conHandle announce).broadcastPacketsToSendList =
          before.broadcastPacketsToSendList :=
        congrArg Shelf.broadcast (shelf_heard before uptime conHandle announce)
      change before.packets.find? _ = none at new
      rw [← packets_heard before uptime conHandle announce] at new
      have accepted := accepted_of_stored apart (free_heard free)
        (stores_storePacket address new) done
      exact ⟨_, rfl, accepted.found, accepted.stored, queued ▸ accepted.queued⟩

end Operations

end BleRepeater.ProtocolProcessor
