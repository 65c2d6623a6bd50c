import BleRepeater.Ble.HasData

/-!
# What sending queues

A call of `sendPackets` puts the encoding of every packet it hands over behind what waits in
the raw queue of the connection, in the order of its decisions, and touches no other queue.
-/

namespace BleRepeater.Tracker

/-! ## Calls of sendPackets -/

/-- The raw queue behind a connection pointer. -/
def targetAt (tracker : Tracker) (ref : ConnectionRef) : Option (RawQueue × UInt16) :=
  (tracker.connectionAt ref).map fun connection =>
    (if connection.role = hciRoleSlave then .notify else .write, connection.connectionHandle)

/-- What a decision puts in a raw queue. -/
def Consideration.queues (queue : RawQueue) (handle : UInt16) (consideration : Consideration) :
    List Bytes :=
  if consideration.handed &&
      consideration.before.targetAt consideration.connection == some (queue, handle) then
    consideration.written.toList
  else []

theorem handleAt_of_targetAt {tracker : Tracker} {ref : ConnectionRef} {queue : RawQueue}
    {handle : UInt16} (target : tracker.targetAt ref = some (queue, handle)) :
    tracker.handleAt ref = some handle := by
  obtain ⟨connection, there, same⟩ := Option.map_eq_some_iff.mp target
  cases same
  simp [handleAt, there]

theorem sendPacketToConnection_spec {tracker after : Tracker} {packet : Address}
    {connection : ConnectionRef} {request : Request}
    (sent : tracker.sendPacketToConnection packet connection = some (after, request)) :
    ∃ object data, tracker.packetAt packet = some object ∧
      object.writePacket [] = some data ∧
      tracker.targetAt connection = some request.target := by
  simp only [sendPacketToConnection, Option.bind_eq_bind, Option.bind_eq_some_iff] at sent
  obtain ⟨object, found, data, written, bleConnection, there, sent⟩ := sent
  refine ⟨object, data, found, written, ?_⟩
  rw [targetAt, there]
  split at sent <;> rename_i role <;> cases sent <;> simp [role, Request.target]

theorem queued_considerSending
    {wanted : Tracker → Address → ConnectionRef → Option Bool} {tracker next : Tracker}
    {packet : Address} {connection : ConnectionRef} {handed : Bool}
    (step : considerSending wanted tracker packet connection = some (next, handed))
    (queue : RawQueue) (handle : UInt16) :
    next.queued queue handle = tracker.queued queue handle ++
      (Consideration.mk packet connection tracker handed).queues queue handle := by
  simp only [considerSending, Option.bind_eq_bind, Option.bind_eq_some_iff] at step
  obtain ⟨want, _, step⟩ := step
  cases want with
  | false =>
      cases step
      simp [Consideration.queues]
  | true =>
      simp only [if_true, Option.bind_eq_some_iff] at step
      obtain ⟨⟨sender, request⟩, sent, step⟩ := step
      cases step
      obtain ⟨object, data, found, written, target⟩ := sendPacketToConnection_spec sent
      have put := queued_sendPacketToConnection found written sent queue handle
      have same : ({ sender with packetsConnectionsSentList :=
          sender.packetsConnectionsSentList.emplace packet connection } : Tracker).queued queue
            handle = sender.queued queue handle := by
        cases queue <;> rfl
      rw [same, put]
      simp only [Consideration.queues, Consideration.written, target, found, written,
        Option.bind_some, Option.toList_some, Bool.true_and, beq_iff_eq, Option.some.injEq]
      split <;> simp

theorem queued_considerEach {wanted : Tracker → Address → ConnectionRef → Option Bool}
    {pairs : List (Address × ConnectionRef)} {tracker last : Tracker}
    {considered : List Consideration}
    (run : considerEach wanted pairs tracker = some (last, considered))
    (queue : RawQueue) (handle : UInt16) :
    last.queued queue handle = tracker.queued queue handle ++
      considered.flatMap (Consideration.queues queue handle) := by
  induction pairs generalizing tracker considered with
  | nil =>
      cases run
      simp
  | cons pair pairs ih =>
      obtain ⟨next, handed, rest, step, further, rfl⟩ := considerEach_cons run
      rw [ih further, queued_considerSending step, List.flatMap_cons, List.append_assoc]

theorem queued_broadcastLoop {packets : List Address} {tracker last : Tracker}
    {toRemove removed : List Address} {considered : List Consideration}
    (run : broadcastLoop packets tracker toRemove = some (last, removed, considered))
    (queue : RawQueue) (handle : UInt16) :
    last.queued queue handle = tracker.queued queue handle ++
      considered.flatMap (Consideration.queues queue handle) := by
  induction packets generalizing tracker toRemove considered with
  | nil =>
      cases run
      simp
  | cons packet packets ih =>
      simp only [broadcastLoop, Option.bind_eq_bind, Option.bind_eq_some_iff] at run
      obtain ⟨⟨middle, left⟩, here, ⟨last, removed, right⟩, further, same⟩ := run
      cases same
      rw [ih further, queued_considerEach here, List.flatMap_append, List.append_assoc]

/-- A call appends to each raw queue what it hands over for it, and nothing else. -/
theorem queued_sendPackets {tracker after : Tracker} {targeted broadcast : List Consideration}
    (sent : tracker.sendPackets = some (after, targeted, broadcast))
    (queue : RawQueue) (handle : UInt16) :
    after.queued queue handle = tracker.queued queue handle ++
      (targeted ++ broadcast).flatMap (Consideration.queues queue handle) := by
  unfold sendPackets at sent
  split at sent
  · cases sent
    simp
  · simp only [Option.bind_eq_bind, Option.bind_eq_some_iff] at sent
    obtain ⟨⟨middle, targeted⟩, first, ⟨last, removed, broadcast⟩, second, same⟩ := sent
    cases same
    have early := queued_considerEach first queue handle
    have late := queued_broadcastLoop second queue handle
    have lists : ∀ (tracker : Tracker) broadcast targeted, ({ tracker with
        broadcastPacketsToSendList := broadcast
        targetedPacketsToSendList := targeted } : Tracker).queued queue handle =
          tracker.queued queue handle := by
      intro tracker broadcast targeted
      cases queue <;> rfl
    have pruned := lists last (last.broadcastPacketsToSendList.filter fun packet =>
      !removed.contains packet) last.targetedPacketsToSendList
    rw [pruned, late, lists middle middle.broadcastPacketsToSendList, early,
      List.flatMap_append, List.append_assoc]

/-- What waits in a raw queue after a call waited before or has been handed over. -/
theorem mem_queued_sendPackets {tracker after : Tracker}
    {targeted broadcast : List Consideration}
    (sent : tracker.sendPackets = some (after, targeted, broadcast)) {queue : RawQueue}
    {handle : UInt16} {data : Bytes} :
    data ∈ after.queued queue handle ↔ data ∈ tracker.queued queue handle ∨
      ∃ consideration ∈ targeted ++ broadcast, consideration.handed = true ∧
        consideration.before.targetAt consideration.connection = some (queue, handle) ∧
        consideration.written = some data := by
  rw [queued_sendPackets sent, List.mem_append, List.mem_flatMap]
  apply or_congr Iff.rfl
  apply exists_congr
  intro consideration
  simp only [Consideration.queues, List.mem_ite_nil_right, Option.mem_toList,
    Bool.and_eq_true, beq_iff_eq, and_assoc]

/-- What holds of every decision on its own holds of all decisions of a call. -/
theorem considered_of_sendPackets {property : Consideration → Prop} {tracker after : Tracker}
    {targeted broadcast : List Consideration}
    (sent : tracker.sendPackets = some (after, targeted, broadcast))
    (each : ∀ {wanted start packet connection next handed},
      considerSending wanted start packet connection = some (next, handed) →
      property ⟨packet, connection, start, handed⟩) :
    ∀ consideration ∈ targeted ++ broadcast, property consideration := by
  have loop : ∀ {wanted pairs start last considered},
      considerEach wanted pairs start = some (last, considered) →
      ∀ consideration ∈ considered, property consideration := by
    intro wanted pairs
    induction pairs with
    | nil =>
        intro start last considered run
        cases run
        simp
    | cons pair pairs ih =>
        intro start last considered run
        obtain ⟨next, handed, rest, step, further, rfl⟩ := considerEach_cons run
        exact List.forall_mem_cons.mpr ⟨each step, ih further⟩
  have outer : ∀ {packets start toRemove last removed considered},
      broadcastLoop packets start toRemove = some (last, removed, considered) →
      ∀ consideration ∈ considered, property consideration := by
    intro packets
    induction packets with
    | nil =>
        intro start toRemove last removed considered run
        cases run
        simp
    | cons packet packets ih =>
        intro start toRemove last removed considered run
        simp only [broadcastLoop, Option.bind_eq_bind, Option.bind_eq_some_iff] at run
        obtain ⟨⟨middle, left⟩, here, ⟨last, removed, right⟩, further, same⟩ := run
        cases same
        exact List.forall_mem_append.mpr ⟨loop here, ih further⟩
  unfold sendPackets at sent
  split at sent
  · cases sent
    simp
  · simp only [Option.bind_eq_bind, Option.bind_eq_some_iff] at sent
    obtain ⟨⟨middle, early⟩, first, ⟨last, removed, late⟩, second, same⟩ := sent
    cases same
    exact List.forall_mem_append.mpr ⟨loop first, outer second⟩

/-- A decision to send writes the packet, for a connection that is there. -/
theorem target_of_handed {tracker after : Tracker} {targeted broadcast : List Consideration}
    (sent : tracker.sendPackets = some (after, targeted, broadcast))
    {consideration : Consideration} (member : consideration ∈ targeted ++ broadcast)
    (handed : consideration.handed = true) :
    ∃ target data, consideration.before.targetAt consideration.connection = some target ∧
      consideration.written = some data := by
  refine @considered_of_sendPackets (fun consideration => consideration.handed = true →
    ∃ target data, consideration.before.targetAt consideration.connection = some target ∧
      consideration.written = some data) _ _ _ _ sent ?_ consideration member handed
  intro wanted start packet connection next handed step hands
  simp only [considerSending, Option.bind_eq_bind, Option.bind_eq_some_iff] at step
  obtain ⟨want, _, step⟩ := step
  cases want with
  | false =>
      cases step
      cases hands
  | true =>
      simp only [if_true, Option.bind_eq_some_iff] at step
      obtain ⟨⟨sender, request⟩, sends, _⟩ := step
      obtain ⟨object, data, found, written, target⟩ := sendPacketToConnection_spec sends
      exact ⟨request.target, data, target, by simp [Consideration.written, found, written]⟩

/-- What a decision to send puts in a raw queue of its connection. -/
theorem queued_of_handed {tracker after : Tracker} {targeted broadcast : List Consideration}
    (sent : tracker.sendPackets = some (after, targeted, broadcast))
    {consideration : Consideration} (member : consideration ∈ targeted ++ broadcast)
    (handed : consideration.handed = true) {handle : UInt16}
    (handled : tracker.handleAt consideration.connection = some handle) :
    ∃ queue, ∃ data ∈ after.queued queue handle, consideration.written = some data := by
  obtain ⟨⟨queue, other⟩, data, target, written⟩ := target_of_handed sent member handed
  have same := settled_considered sent member
  have here := handleAt_of_targetAt target
  rw [handleAt_of_settled same, handled, Option.some.injEq] at here
  subst here
  exact ⟨queue, data, (mem_queued_sendPackets sent).mpr
    (Or.inr ⟨consideration, member, handed, target, written⟩), written⟩

/-! ## Other operations -/

theorem rawPackets_of_queues {before after : Tracker}
    (notify : after.rawPacketToNotify = before.rawPacketToNotify)
    (write : after.rawPacketToWrite = before.rawPacketToWrite) :
    after.rawPackets = before.rawPackets := by
  funext queue
  cases queue
  · exact notify
  · exact write

@[simp] theorem rawPackets_checkSenderInPeers (tracker : Tracker) (sender : UInt64) :
    (tracker.checkSenderInPeers sender).rawPackets = tracker.rawPackets := by
  unfold checkSenderInPeers
  split <;> exact rawPackets_of_queues rfl rfl

@[simp] theorem rawPackets_updatePeer (tracker : Tracker) (peer : UInt64)
    (change : Peer → Peer) : (tracker.updatePeer peer change).rawPackets = tracker.rawPackets :=
  rawPackets_of_queues rfl rfl

@[simp] theorem rawPackets_setConnectionHandleForPeer (tracker : Tracker) (conHandle : UInt16)
    (peer : UInt64) :
    (tracker.setConnectionHandleForPeer conHandle peer).rawPackets = tracker.rawPackets :=
  rawPackets_of_queues rfl rfl

@[simp] theorem rawPackets_possiblyUpdateTimeOffset (tracker : Tracker)
    (uptime timestampMs : UInt64) :
    (tracker.possiblyUpdateTimeOffset uptime timestampMs).rawPackets = tracker.rawPackets := by
  unfold possiblyUpdateTimeOffset
  dsimp only
  split <;> exact rawPackets_of_queues rfl rfl

@[simp] theorem rawPackets_storeMessageAndReturnIfNew (tracker : Tracker) (address : Address)
    (message : Message) :
    (tracker.storeMessageAndReturnIfNew address message).2.rawPackets =
      tracker.rawPackets := by
  rw [storeMessageAndReturnIfNew_frame]
  exact rawPackets_of_queues rfl rfl

@[simp] theorem rawPackets_storePacketAndReturnIfNew (platform : Platform) (tracker : Tracker)
    (address : Address) (passAlong : PacketPassAlong) :
    (storePacketAndReturnIfNew platform tracker address passAlong).2.rawPackets =
      tracker.rawPackets := by
  rw [storePacketAndReturnIfNew_frame]
  exact rawPackets_of_queues rfl rfl

theorem rawPackets_enqueueBroadcastPacket {tracker after : Tracker} {packet : Address}
    (done : tracker.enqueueBroadcastPacket packet = some after) :
    after.rawPackets = tracker.rawPackets := by
  rw [enqueueBroadcastPacket_frame done]
  exact rawPackets_of_queues rfl rfl

theorem rawPackets_enqueueBroadcastPacketFrom {tracker after : Tracker} {packet : Address}
    {fromConnection : ConnectionRef} {fromPeer : UInt64}
    (done : tracker.enqueueBroadcastPacketFrom packet fromConnection fromPeer = some after) :
    after.rawPackets = tracker.rawPackets :=
  (rawPackets_enqueueBroadcastPacket done).trans (rawPackets_of_queues rfl rfl)

theorem rawPackets_connectionForConnHandle (tracker : Tracker) (handle : UInt16) :
    (tracker.connectionForConnHandle handle).2.rawPackets = tracker.rawPackets := by
  funext queue
  unfold connectionForConnHandle
  split
  · exact rawPackets_connectionsIndex tracker handle queue
  · refine Eq.trans ?_ (rawPackets_connectionsIndex tracker handle queue)
    cases queue <;> rfl

theorem rawPackets_enqueueTargetedPacket {tracker after : Tracker} {packet : Address}
    {connection : BleConnection}
    (done : tracker.enqueueTargetedPacket packet connection = some after) :
    after.rawPackets = tracker.rawPackets := by
  obtain ⟨_, _, ⟨_, rfl⟩ | ⟨_, rfl⟩⟩ := enqueueTargetedPacket_cases done
  · refine Eq.trans ?_ (rawPackets_connectionForConnHandle tracker connection.connectionHandle)
    exact rawPackets_of_queues rfl rfl
  · rfl

theorem rawPackets_announceToConnections {platform : Platform} {tracker after : Tracker}
    {uptime : UInt64} (done : announceToConnections platform tracker uptime = some after) :
    after.rawPackets = tracker.rawPackets := by
  have setup : (setupAnnounceIfNeeded platform tracker).rawPackets = tracker.rawPackets := by
    unfold setupAnnounceIfNeeded
    split
    · rfl
    · exact rawPackets_of_queues rfl rfl
  refine announceEach_invariant (motive := fun current =>
    current.rawPackets = tracker.rawPackets) done ?_ setup
  intro current next connection same queued
  refine (rawPackets_enqueueTargetedPacket queued).trans (Eq.trans ?_ same)
  exact rawPackets_of_queues rfl rfl

/-- Only sending and the callbacks change the raw queues. -/
theorem rawPackets_of_step {platform : Platform} {before after : Tracker}
    {operation : Operation} (step : OperationStep platform before operation after)
    (noSend : operation ≠ .sendPackets)
    (noNotify : ∀ conHandle ret, operation ≠ .notifyRawPacket conHandle ret)
    (noWrite : ∀ conHandle ret, operation ≠ .writeRawPacket conHandle ret) :
    after.rawPackets = before.rawPackets := by
  obtain ⟨_, done⟩ := step
  cases operation with
  | sendPackets => exact absurd rfl noSend
  | notifyRawPacket conHandle ret => exact absurd rfl (noNotify conHandle ret)
  | writeRawPacket conHandle ret => exact absurd rfl (noWrite conHandle ret)
  | announceToConnections uptime => exact rawPackets_announceToConnections done
  | enqueueTargetedPacket packet toConnection => exact rawPackets_enqueueTargetedPacket done
  | cleanupStaleItems uptime => exact rawPackets_cleanupStaleItems done
  | enqueueBroadcastPacket packet => exact rawPackets_enqueueBroadcastPacket done
  | enqueueBroadcastPacketFrom packet fromConnection fromPeer =>
      exact rawPackets_enqueueBroadcastPacketFrom done
  | storeMessageAndReturnIfNew address message =>
      cases done
      exact rawPackets_storeMessageAndReturnIfNew before address message
  | storePacketAndReturnIfNew address passAlong =>
      cases done
      exact rawPackets_storePacketAndReturnIfNew platform before address passAlong
  | checkSenderInPeers sender =>
      cases done
      exact rawPackets_checkSenderInPeers before sender
  | possiblyUpdateTimeOffset uptime timestampMs =>
      cases done
      exact rawPackets_possiblyUpdateTimeOffset before uptime timestampMs
  | connectionForConnHandle handle =>
      cases done
      exact rawPackets_connectionForConnHandle before handle
  | reportConnection uptime handle addr addressType =>
      cases done
      exact rawPackets_reportConnection before uptime handle addr addressType
  | reportConnectionWithRole uptime handle addr addressType role =>
      cases done
      exact (rawPackets_assign _ handle _).trans (rawPackets_reportConnection before ..)
  | reportDisconnection handle =>
      cases done
      have assigned := rawPackets_assign before handle fun connection =>
        { connection with notificationEnabled := false, connected := false }
      exact Eq.trans (rawPackets_of_queues rfl rfl) assigned
  | addAvailablePeer | setConnectionHandleForPeer | updateConnection | updatePeer =>
      cases done
      exact rawPackets_of_queues rfl rfl

/-- A callback puts nothing in the raw queues. -/
theorem queued_of_callback {queue other : RawQueue} {tracker : Tracker}
    {conHandle handle : UInt16} {ret : UInt8} {data : Bytes}
    (waits : data ∈ (rawPacketCallback queue tracker conHandle ret).tracker.queued other
      handle) : data ∈ tracker.queued other handle := by
  cases bound : (tracker.rawPackets queue).lowerBound conHandle with
  | nil =>
      rw [queued, (rawPacketCallback_eq queue tracker conHandle ret).2.1,
        transmitFirst_of_nil bound] at waits
      exact waits
  | cons entry rest =>
      rw [queued_of_cons bound] at waits
      split at waits
      · rename_i taken
        rw [queued, taken.1]
        rw [MultiMap.mem_equalRange] at waits ⊢
        exact MultiMap.mem_of_mem_eraseLowerBound waits
      · exact waits

/-- What a callback transmits has been waiting for some handle. -/
theorem transmitted_waited {queue : RawQueue} {tracker : Tracker} {conHandle : UInt16}
    {ret : UInt8} {transmission : Transmission}
    (transmitted : (rawPacketCallback queue tracker conHandle ret).transmitted =
      some transmission) :
    ∃ handle data, data ∈ tracker.queued queue handle ∧
      transmission.data = data.take (data.length % 2 ^ 16) := by
  rw [(rawPacketCallback_eq queue tracker conHandle ret).1] at transmitted
  cases bound : (tracker.rawPackets queue).lowerBound conHandle with
  | nil =>
      rw [transmitFirst_of_nil bound] at transmitted
      cases transmitted
  | cons entry rest =>
      have data := (transmitFirst_of_cons bound ret).1
      rw [transmitted, Option.map_some, Option.some.injEq, Prod.mk.injEq] at data
      refine ⟨entry.1, entry.2, ?_, data.2⟩
      have member : entry ∈ (tracker.rawPackets queue).lowerBound conHandle := by simp [bound]
      exact MultiMap.mem_equalRange.mpr (MultiMap.mem_lowerBound.mp member).1

end BleRepeater.Tracker
