import BleRepeater.Ble.Tracker

/-!
# Sending

`SendPacketToConnection`, which only queues the raw packet and asks BTstack for a
callback, and `sendPackets` with its two loops.  Every decision of the loops is kept
beside the result, together with the tracker as it was when the decision was made.
-/

namespace BleRepeater.Tracker

/-- The callback `SendPacketToConnection` asks BTstack for. -/
inductive Request where
  | sendNotification (conHandle : UInt16)
  | writeWithoutResponse (conHandle : UInt16)
  deriving DecidableEq

/-- `BleConnectionTracker::SendPacketToConnection`, up to BTstack's answer to the
request, on which only the returned flag depends.  The assertion on the MTU is not
part of a release build. -/
def sendPacketToConnection (tracker : Tracker) (packet : Address)
    (connection : ConnectionRef) : Option (Tracker × Request) := do
  let object ← tracker.packetAt packet
  let packetData ← object.writePacket []
  let bleConnection ← tracker.connectionAt connection
  let conHandle := bleConnection.connectionHandle
  let tracker := tracker.updateConnection connection fun connection =>
    { connection with hasDataToSend := true }
  if bleConnection.role = hciRoleSlave then
    return ({ tracker with
      rawPacketToNotify := tracker.rawPacketToNotify.emplace conHandle packetData },
      .sendNotification conHandle)
  else
    return ({ tracker with
      rawPacketToWrite := tracker.rawPacketToWrite.emplace conHandle packetData },
      .writeWithoutResponse conHandle)

/-- The handle behind a connection pointer. -/
def handleAt (tracker : Tracker) (ref : ConnectionRef) : Option UInt16 :=
  (tracker.connectionAt ref).map BleConnection.connectionHandle

/-- The predicate `available` of `sendPackets`. -/
def available (connection : BleConnection) : Bool :=
  connection.connected && decide (connection.packetCharacteristicValueHandle > 0)

/-- The view `available_connections` of `sendPackets`. -/
def availableConnections (tracker : Tracker) : List ConnectionRef :=
  (tracker.connections.entries.filter fun entry => available entry.2.connection).map
    fun entry => ⟨entry.1, entry.2.generation⟩

/-- `find_if` over connection pointers: it stops at the first one of the handle. -/
def findHandle (tracker : Tracker) (handle : UInt16) : List ConnectionRef → Option Bool
  | [] => some false
  | ref :: refs => do
      let other ← tracker.handleAt ref
      if other = handle then some true else findHandle tracker handle refs

/-- The search of the broadcast loop: it visits every entry. -/
def visitHandles (tracker : Tracker) (handle : UInt16) :
    List (Address × ConnectionRef) → Option Bool
  | [] => some true
  | entry :: entries => do
      let other ← tracker.handleAt entry.2
      let sendable ← visitHandles tracker handle entries
      return decide (other ≠ handle) && sendable

/-- The lambda `packet_needed` of `sendPackets`. -/
def packetNeeded (tracker : Tracker) (packet : Address) (connection : ConnectionRef) :
    Option Bool := do
  let handle ← tracker.handleAt connection
  let found ← tracker.findHandle handle (tracker.packetsConnectionsSentList.equalRange packet)
  return !found

/-- The flag `sendable` of `sendPackets`: the search goes from the first entry of the
packet to the end of the list. -/
def sendable (tracker : Tracker) (packet : Address) (connection : ConnectionRef) :
    Option Bool := do
  let handle ← tracker.handleAt connection
  tracker.visitHandles handle (tracker.packetsConnectionsSentList.find packet)

/-- Send a packet that is wanted, and record it. -/
def considerSending (wanted : Tracker → Address → ConnectionRef → Option Bool)
    (tracker : Tracker) (packet : Address) (connection : ConnectionRef) :
    Option (Tracker × Bool) := do
  if ← wanted tracker packet connection then
    let (tracker, _) ← tracker.sendPacketToConnection packet connection
    return ({ tracker with
      packetsConnectionsSentList :=
        tracker.packetsConnectionsSentList.emplace packet connection }, true)
  else
    return (tracker, false)

/-- One decision of `sendPackets`. -/
structure Consideration where
  packet : Address
  connection : ConnectionRef
  /-- The tracker when the decision was made. -/
  before : Tracker
  handed : Bool

/-- The bytes that a decision hands over. -/
def Consideration.written (consideration : Consideration) : Option Bytes :=
  (consideration.before.packetAt consideration.packet).bind fun object =>
    object.writePacket []

/-- A loop over pairs of a packet and a connection. -/
def considerEach (wanted : Tracker → Address → ConnectionRef → Option Bool) :
    List (Address × ConnectionRef) → Tracker → Option (Tracker × List Consideration)
  | [], tracker => some (tracker, [])
  | (packet, connection) :: pairs, tracker => do
      let (next, handed) ← considerSending wanted tracker packet connection
      let (last, considered) ← considerEach wanted pairs next
      return (last, ⟨packet, connection, tracker, handed⟩ :: considered)

/-- The broadcast loop; `toRemove` is `broadcast_packets_to_remove`. -/
def broadcastLoop : List Address → Tracker → List Address →
    Option (Tracker × List Address × List Consideration)
  | [], tracker, toRemove => some (tracker, toRemove, [])
  | packet :: packets, tracker, toRemove => do
      let (tracker, considered) ← considerEach sendable
        (tracker.availableConnections.map fun connection => (packet, connection)) tracker
      let packetSent := considered.any Consideration.handed
      let toRemove := if packetSent then toRemove.insert packet else toRemove
      let (last, toRemove, rest) ← broadcastLoop packets tracker toRemove
      return (last, toRemove, considered ++ rest)

/-- `BleConnectionTracker::sendPackets`, with the decisions of its two loops. -/
def sendPackets (tracker : Tracker) :
    Option (Tracker × List Consideration × List Consideration) :=
  if tracker.broadcastPacketsToSendList.isEmpty &&
      tracker.targetedPacketsToSendList.entries.isEmpty then
    some (tracker, [], [])
  else do
    let (tracker, targeted) ← considerEach packetNeeded
      tracker.targetedPacketsToSendList.entries tracker
    let targetedToRemove := (targeted.filter Consideration.handed).map Consideration.packet
    let tracker := { tracker with
      targetedPacketsToSendList := targetedToRemove.foldl
        (fun list packet => list.eraseKey packet) tracker.targetedPacketsToSendList }
    let (tracker, broadcastToRemove, broadcast) ←
      broadcastLoop tracker.broadcastPacketsToSendList tracker []
    return ({ tracker with
      broadcastPacketsToSendList := tracker.broadcastPacketsToSendList.filter
        fun packet => !broadcastToRemove.contains packet }, targeted, broadcast)

/-! ## What sending leaves alone -/

/-- The tracker without what sending changes: the pending-data marks, the raw queues
and the sent list. -/
def quiet (tracker : Tracker) : Tracker :=
  { tracker with
    connections := tracker.connections.mapValues fun entry =>
      { entry with connection := { entry.connection with hasDataToSend := false } }
    rawPacketToNotify := .empty
    rawPacketToWrite := .empty
    packetsConnectionsSentList := .empty }

theorem packetAt_eq {before after : Tracker} (same : after.quiet = before.quiet)
    (address : Address) : after.packetAt address = before.packetAt address :=
  congrArg (fun tracker => tracker.packetAt address) same

theorem connectionAt_quiet (tracker : Tracker) (ref : ConnectionRef) :
    tracker.quiet.connectionAt ref = (tracker.connectionAt ref).map
      fun connection => { connection with hasDataToSend := false } := by
  simp only [connectionAt, quiet, OrderedMap.find?_mapValues]
  cases tracker.connections.find? ref.key with
  | none => rfl
  | some entry =>
      simp only [Option.map_some]
      split <;> rfl

theorem handleAt_quiet (tracker : Tracker) (ref : ConnectionRef) :
    tracker.quiet.handleAt ref = tracker.handleAt ref := by
  simp only [handleAt, connectionAt_quiet, Option.map_map]
  rfl

theorem handleAt_eq {before after : Tracker} (same : after.quiet = before.quiet)
    (ref : ConnectionRef) : after.handleAt ref = before.handleAt ref := by
  rw [← handleAt_quiet, same, handleAt_quiet]

theorem availableConnections_quiet (tracker : Tracker) :
    tracker.quiet.availableConnections = tracker.availableConnections := by
  simp only [availableConnections, quiet, OrderedMap.mapValues, List.filter_map,
    List.map_map]
  rfl

theorem availableConnections_eq {before after : Tracker}
    (same : after.quiet = before.quiet) :
    after.availableConnections = before.availableConnections := by
  rw [← availableConnections_quiet, same, availableConnections_quiet]

/-- Marking a connection is quiet. -/
theorem quiet_mark (tracker : Tracker) (ref : ConnectionRef) :
    (tracker.updateConnection ref fun connection =>
      { connection with hasDataToSend := true }).quiet = tracker.quiet := by
  simp only [quiet, updateConnection, Tracker.mk.injEq, and_true, true_and]
  apply OrderedMap.mapValues_modify
  intro entry
  split <;> rfl

/-- Queueing a raw packet is quiet and records nothing. -/
theorem sendPacketToConnection_quiet {tracker next : Tracker} {packet : Address}
    {connection : ConnectionRef} {request : Request}
    (sent : tracker.sendPacketToConnection packet connection = some (next, request)) :
    next.quiet = tracker.quiet ∧
      next.packetsConnectionsSentList = tracker.packetsConnectionsSentList := by
  simp only [sendPacketToConnection, Option.bind_eq_bind, Option.bind_eq_some_iff] at sent
  obtain ⟨object, _, packetData, _, bleConnection, _, sent⟩ := sent
  split at sent <;> cases sent <;>
    exact ⟨quiet_mark tracker connection, rfl⟩

/-- A packet that is there and whose writer does not follow a null pointer. -/
def Writable (tracker : Tracker) (packet : Address) : Prop :=
  ∃ object, tracker.packetAt packet = some object ∧ (object.writePacket []).isSome

/-- Sending only follows the pointers to the packet and the connection. -/
theorem sendPacketToConnection_isSome {tracker : Tracker} {packet : Address}
    {connection : ConnectionRef} (writable : tracker.Writable packet)
    (live : (tracker.connectionAt connection).isSome) :
    (tracker.sendPacketToConnection packet connection).isSome := by
  obtain ⟨object, found, written⟩ := writable
  obtain ⟨packetData, written⟩ := Option.isSome_iff_exists.mp written
  obtain ⟨bleConnection, live⟩ := Option.isSome_iff_exists.mp live
  simp only [sendPacketToConnection, found, written, live, Option.bind_eq_bind,
    Option.bind_some]
  split <;> rfl

/-- A decision, and what follows from it. -/
theorem considerSending_spec {tracker next : Tracker} {packet : Address}
    {connection : ConnectionRef} {handed : Bool}
    {wanted : Tracker → Address → ConnectionRef → Option Bool}
    (step : considerSending wanted tracker packet connection = some (next, handed)) :
    wanted tracker packet connection = some handed ∧ next.quiet = tracker.quiet ∧
      next.packetsConnectionsSentList = if handed then
        tracker.packetsConnectionsSentList.emplace packet connection
      else tracker.packetsConnectionsSentList := by
  simp only [considerSending, Option.bind_eq_bind, Option.bind_eq_some_iff] at step
  obtain ⟨want, decided, step⟩ := step
  cases want with
  | false =>
      cases step
      exact ⟨decided, rfl, rfl⟩
  | true =>
      simp only [if_true, Option.bind_eq_some_iff] at step
      obtain ⟨⟨sender, request⟩, sent, step⟩ := step
      cases step
      obtain ⟨quiet, record⟩ := sendPacketToConnection_quiet sent
      refine ⟨decided, ?_, ?_⟩
      · rw [← quiet]
        rfl
      · simp [record]

theorem considerEach_cons {wanted : Tracker → Address → ConnectionRef → Option Bool}
    {pair : Address × ConnectionRef} {pairs : List (Address × ConnectionRef)}
    {tracker last : Tracker} {considered : List Consideration}
    (run : considerEach wanted (pair :: pairs) tracker = some (last, considered)) :
    ∃ next handed rest,
      considerSending wanted tracker pair.1 pair.2 = some (next, handed) ∧
      considerEach wanted pairs next = some (last, rest) ∧
      considered = ⟨pair.1, pair.2, tracker, handed⟩ :: rest := by
  simp only [considerEach, Option.bind_eq_bind, Option.bind_eq_some_iff] at run
  obtain ⟨⟨next, handed⟩, step, ⟨last, rest⟩, further, same⟩ := run
  cases same
  exact ⟨next, handed, rest, step, further, rfl⟩

/-- What a loop does to the tracker: it decides on each pair and records those that it
hands over. -/
theorem considerEach_spec {wanted : Tracker → Address → ConnectionRef → Option Bool}
    {pairs : List (Address × ConnectionRef)} {tracker last : Tracker}
    {considered : List Consideration}
    (run : considerEach wanted pairs tracker = some (last, considered)) :
    last.quiet = tracker.quiet ∧
      considered.map (fun consideration =>
        (consideration.packet, consideration.connection)) = pairs ∧
      ∀ entry, entry ∈ last.packetsConnectionsSentList.entries ↔
        entry ∈ tracker.packetsConnectionsSentList.entries ∨
          ∃ consideration ∈ considered, consideration.handed = true ∧
            entry = (consideration.packet, consideration.connection) := by
  induction pairs generalizing tracker considered with
  | nil =>
      cases run
      simp
  | cons pair pairs ih =>
      obtain ⟨next, handed, rest, step, further, rfl⟩ := considerEach_cons run
      obtain ⟨_, stepQuiet, stepList⟩ := considerSending_spec step
      obtain ⟨quiet, order, list⟩ := ih further
      refine ⟨quiet.trans stepQuiet, by simp [order], ?_⟩
      intro entry
      rw [list, stepList]
      cases handed with
      | false => simp
      | true =>
          simp only [if_true, MultiMap.mem_emplace, List.exists_mem_cons_iff, true_and]
          rw [or_assoc, or_left_comm]

/-- A loop over a concatenation is one loop after the other. -/
theorem considerEach_split
    {wanted : Tracker → Address → ConnectionRef → Option Bool}
    {first second : List (Address × ConnectionRef)} {tracker last : Tracker}
    {considered : List Consideration}
    (run : considerEach wanted (first ++ second) tracker = some (last, considered)) :
    ∃ middle left right, considerEach wanted first tracker = some (middle, left) ∧
      considerEach wanted second middle = some (last, right) ∧
      considered = left ++ right := by
  induction first generalizing tracker considered with
  | nil => exact ⟨tracker, [], considered, rfl, run, rfl⟩
  | cons pair pairs ih =>
      simp only [considerEach, List.cons_append, Option.bind_eq_bind,
        Option.bind_eq_some_iff] at run ⊢
      obtain ⟨⟨next, handed⟩, step, ⟨last, rest⟩, further, same⟩ := run
      cases same
      obtain ⟨middle, left, right, before, after, rfl⟩ := ih further
      exact ⟨middle, _, right, ⟨_, step, _, before, rfl⟩, after, rfl⟩

/-! ## What a call leaves behind -/

/-- The pairs of the broadcast loop, in its order. -/
def broadcastPairs (tracker : Tracker) : List (Address × ConnectionRef) :=
  tracker.broadcastPacketsToSendList.flatMap fun packet =>
    tracker.availableConnections.map fun connection => (packet, connection)

theorem mem_broadcastPairs {tracker : Tracker} {packet : Address} {connection : ConnectionRef} :
    (packet, connection) ∈ tracker.broadcastPairs ↔
      packet ∈ tracker.broadcastPacketsToSendList ∧
        connection ∈ tracker.availableConnections := by
  simp [broadcastPairs]

/-- What the broadcast loop does, without assuming that pointers can be followed. -/
theorem broadcastLoop_spec {packets : List Address} {tracker last : Tracker}
    {toRemove removed : List Address} {considered : List Consideration}
    (run : broadcastLoop packets tracker toRemove = some (last, removed, considered)) :
    last.quiet = tracker.quiet ∧
      considered.map (fun consideration =>
        (consideration.packet, consideration.connection)) =
          (packets.flatMap fun packet =>
            tracker.availableConnections.map fun connection => (packet, connection)) ∧
      ∀ entry, entry ∈ last.packetsConnectionsSentList.entries ↔
        entry ∈ tracker.packetsConnectionsSentList.entries ∨
          ∃ consideration ∈ considered, consideration.handed = true ∧
            entry = (consideration.packet, consideration.connection) := by
  induction packets generalizing tracker toRemove considered with
  | nil =>
      cases run
      simp
  | cons packet packets ih =>
      simp only [broadcastLoop, Option.bind_eq_bind, Option.bind_eq_some_iff] at run
      obtain ⟨⟨middle, left⟩, here, ⟨last, removed, right⟩, further, same⟩ := run
      cases same
      obtain ⟨quiet, order, list⟩ := considerEach_spec here
      obtain ⟨restQuiet, restOrder, restList⟩ := ih further
      refine ⟨restQuiet.trans quiet, ?_, ?_⟩
      · rw [List.map_append, order, restOrder, availableConnections_eq quiet,
          List.flatMap_cons]
      · intro entry
        rw [restList, list, or_assoc]
        simp only [List.mem_append, or_and_right, exists_or]

/-- Erasing the keys of a list keeps the entries of the other keys. -/
theorem mem_foldl_eraseKey {packets : List Address} {list : MultiMap Address ConnectionRef}
    {entry : Address × ConnectionRef} :
    entry ∈ (packets.foldl (fun list packet => list.eraseKey packet) list).entries ↔
      entry ∈ list.entries ∧ entry.1 ∉ packets := by
  induction packets generalizing list with
  | nil => simp
  | cons packet packets ih =>
      rw [List.foldl_cons, ih, MultiMap.mem_eraseKey, List.mem_cons, not_or, and_assoc]

/-- The tracker without what `sendPackets` changes. -/
def settled (tracker : Tracker) : Tracker :=
  { tracker.quiet with
    targetedPacketsToSendList := .empty
    broadcastPacketsToSendList := [] }

/-- What `sendPackets` leaves behind: the sent list has grown by what was handed over, the
lists of packets to send have only lost entries, and nothing else but marks and raw queues
has changed. -/
structure SendsOnly (tracker after : Tracker)
    (targeted broadcast : List Consideration) : Prop where
  settled : after.settled = tracker.settled
  sent : ∀ entry, entry ∈ after.packetsConnectionsSentList.entries ↔
    entry ∈ tracker.packetsConnectionsSentList.entries ∨
      ∃ consideration ∈ targeted ++ broadcast, consideration.handed = true ∧
        entry = (consideration.packet, consideration.connection)
  fromTargeted : targeted.map (fun consideration =>
    (consideration.packet, consideration.connection)) =
      tracker.targetedPacketsToSendList.entries
  fromBroadcast : broadcast.map (fun consideration =>
    (consideration.packet, consideration.connection)) = tracker.broadcastPairs
  targeted : ∀ entry, entry ∈ after.targetedPacketsToSendList.entries ↔
    entry ∈ tracker.targetedPacketsToSendList.entries ∧
      ∀ consideration ∈ targeted, consideration.handed = true →
        entry.1 ≠ consideration.packet
  broadcast : ∀ packet ∈ after.broadcastPacketsToSendList,
    packet ∈ tracker.broadcastPacketsToSendList

namespace SendsOnly

variable {tracker after : Tracker} {targeted broadcast : List Consideration}
  {consideration : Consideration}

/-- A decision of a loop is about one of the pairs that the loop goes over. -/
theorem pair_of_targeted (effect : SendsOnly tracker after targeted broadcast)
    (member : consideration ∈ targeted) :
    (consideration.packet, consideration.connection) ∈
      tracker.targetedPacketsToSendList.entries := by
  rw [← effect.fromTargeted]
  exact List.mem_map.mpr ⟨consideration, member, rfl⟩

theorem pair_of_broadcast (effect : SendsOnly tracker after targeted broadcast)
    (member : consideration ∈ broadcast) :
    (consideration.packet, consideration.connection) ∈ tracker.broadcastPairs := by
  rw [← effect.fromBroadcast]
  exact List.mem_map.mpr ⟨consideration, member, rfl⟩

end SendsOnly

theorem sendPackets_sendsOnly {tracker after : Tracker}
    {targeted broadcast : List Consideration}
    (sent : tracker.sendPackets = some (after, targeted, broadcast)) :
    SendsOnly tracker after targeted broadcast := by
  unfold sendPackets at sent
  split at sent
  · rename_i idle
    simp only [Bool.and_eq_true, List.isEmpty_iff] at idle
    cases sent
    refine ⟨rfl, by simp, by simp [idle.2], by simp [broadcastPairs, idle.1], by simp,
      fun _ => id⟩
  · simp only [Option.bind_eq_bind, Option.bind_eq_some_iff] at sent
    obtain ⟨⟨middle, targeted⟩, first, ⟨last, removed, broadcast⟩, second, same⟩ := sent
    cases same
    obtain ⟨quiet, order, list⟩ := considerEach_spec first
    obtain ⟨restQuiet, restOrder, restList⟩ := broadcastLoop_spec second
    have connections : middle.availableConnections = tracker.availableConnections :=
      availableConnections_eq quiet
    have packets := congrArg Tracker.broadcastPacketsToSendList quiet
    have lastPackets := congrArg Tracker.broadcastPacketsToSendList restQuiet
    have pending := congrArg Tracker.targetedPacketsToSendList quiet
    have lastPending := congrArg Tracker.targetedPacketsToSendList restQuiet
    refine ⟨?_, ?_, order, ?_, ?_, ?_⟩
    · have firstSettled := congrArg (fun tracker : Tracker =>
        ({ tracker with
          targetedPacketsToSendList := .empty
          broadcastPacketsToSendList := [] } : Tracker)) quiet
      have secondSettled := congrArg (fun tracker : Tracker =>
        ({ tracker with
          targetedPacketsToSendList := .empty
          broadcastPacketsToSendList := [] } : Tracker)) restQuiet
      exact secondSettled.trans firstSettled
    · intro entry
      change entry ∈ last.packetsConnectionsSentList.entries ↔ _
      rw [restList]
      change (entry ∈ middle.packetsConnectionsSentList.entries ∨ _) ↔ _
      rw [list, or_assoc]
      simp only [List.mem_append, or_and_right, exists_or]
    · rw [restOrder]
      change (middle.broadcastPacketsToSendList.flatMap fun packet =>
        middle.availableConnections.map fun connection => (packet, connection)) = _
      change middle.broadcastPacketsToSendList = _ at packets
      rw [connections, packets]
      rfl
    · intro entry
      change last.targetedPacketsToSendList = _ at lastPending
      change middle.targetedPacketsToSendList = tracker.targetedPacketsToSendList at pending
      change entry ∈ last.targetedPacketsToSendList.entries ↔ _
      rw [lastPending]
      simp only [Tracker.quiet, mem_foldl_eraseKey, pending, List.mem_map, List.mem_filter,
        not_exists, not_and, and_imp]
      apply and_congr Iff.rfl
      constructor
      · intro none consideration member handed same
        exact none consideration member handed same.symm
      · intro none consideration member handed same
        exact none consideration member handed same.symm
    · intro packet member
      have kept := (List.mem_filter.mp member).1
      change last.broadcastPacketsToSendList = _ at lastPackets
      change middle.broadcastPacketsToSendList = _ at packets
      rw [lastPackets] at kept
      change packet ∈ middle.broadcastPacketsToSendList at kept
      rw [packets] at kept
      exact kept

/-! ## Decisions -/

/-- A decision of a loop: it is that of the search, made with the objects that were there
when the loop started, and nothing that was recorded then has been forgotten. -/
structure Decided (wanted : Tracker → Address → ConnectionRef → Option Bool)
    (tracker : Tracker) (consideration : Consideration) : Prop where
  settled : consideration.before.settled = tracker.settled
  decision : wanted consideration.before consideration.packet consideration.connection =
    some consideration.handed
  sent : ∀ entry ∈ tracker.packetsConnectionsSentList.entries,
    entry ∈ consideration.before.packetsConnectionsSentList.entries

theorem settled_eq {before after : Tracker} (same : after.quiet = before.quiet) :
    after.settled = before.settled :=
  congrArg (fun tracker : Tracker =>
    ({ tracker with
      targetedPacketsToSendList := .empty
      broadcastPacketsToSendList := [] } : Tracker)) same

theorem Decided.of_later {wanted : Tracker → Address → ConnectionRef → Option Bool}
    {tracker next : Tracker} {consideration : Consideration}
    (later : Decided wanted next consideration) (settled : next.settled = tracker.settled)
    (sent : ∀ entry ∈ tracker.packetsConnectionsSentList.entries,
      entry ∈ next.packetsConnectionsSentList.entries) :
    Decided wanted tracker consideration :=
  ⟨later.settled.trans settled, later.decision,
    fun entry member => later.sent entry (sent entry member)⟩

theorem decided_of_considerEach
    {wanted : Tracker → Address → ConnectionRef → Option Bool}
    {pairs : List (Address × ConnectionRef)} {tracker last : Tracker}
    {considered : List Consideration}
    (run : considerEach wanted pairs tracker = some (last, considered)) :
    ∀ consideration ∈ considered, Decided wanted tracker consideration := by
  induction pairs generalizing tracker considered with
  | nil =>
      cases run
      simp
  | cons pair pairs ih =>
      obtain ⟨next, handed, rest, step, further, rfl⟩ := considerEach_cons run
      obtain ⟨decision, quiet, list⟩ := considerSending_spec step
      intro consideration member
      rcases List.mem_cons.mp member with rfl | later
      · exact ⟨rfl, decision, fun _ => id⟩
      · apply (ih further consideration later).of_later (settled_eq quiet)
        intro entry recorded
        rw [list]
        split
        · exact MultiMap.mem_emplace.mpr (Or.inr recorded)
        · exact recorded

theorem decided_of_broadcastLoop {packets : List Address} {tracker last : Tracker}
    {toRemove removed : List Address} {considered : List Consideration}
    (run : broadcastLoop packets tracker toRemove = some (last, removed, considered)) :
    ∀ consideration ∈ considered, Decided sendable tracker consideration := by
  induction packets generalizing tracker toRemove considered with
  | nil =>
      cases run
      simp
  | cons packet packets ih =>
      simp only [broadcastLoop, Option.bind_eq_bind, Option.bind_eq_some_iff] at run
      obtain ⟨⟨middle, left⟩, here, ⟨last, removed, right⟩, further, same⟩ := run
      cases same
      obtain ⟨quiet, _, list⟩ := considerEach_spec here
      intro consideration member
      rcases List.mem_append.mp member with now | later
      · exact decided_of_considerEach here consideration now
      · exact (ih further consideration later).of_later (settled_eq quiet)
          fun entry recorded => (list entry).mpr (Or.inl recorded)

/-- Every decision of a call is one of its two searches. -/
theorem decided_of_sendPackets {tracker after : Tracker}
    {targeted broadcast : List Consideration}
    (sent : tracker.sendPackets = some (after, targeted, broadcast)) :
    (∀ consideration ∈ targeted, Decided packetNeeded tracker consideration) ∧
      ∀ consideration ∈ broadcast, Decided sendable tracker consideration := by
  unfold sendPackets at sent
  split at sent
  · cases sent
    simp
  · simp only [Option.bind_eq_bind, Option.bind_eq_some_iff] at sent
    obtain ⟨⟨middle, targeted⟩, first, ⟨last, removed, broadcast⟩, second, same⟩ := sent
    cases same
    obtain ⟨quiet, _, list⟩ := considerEach_spec first
    refine ⟨decided_of_considerEach first, ?_⟩
    intro consideration member
    have decided := decided_of_broadcastLoop second consideration member
    have settled : middle.settled = tracker.settled := settled_eq quiet
    exact decided.of_later settled fun entry recorded => (list entry).mpr (Or.inl recorded)

theorem packetAt_of_settled {before after : Tracker} (same : after.settled = before.settled)
    (address : Address) : after.packetAt address = before.packetAt address :=
  congrArg (fun tracker => tracker.packetAt address) same

theorem handleAt_of_settled {before after : Tracker} (same : after.settled = before.settled)
    (ref : ConnectionRef) : after.handleAt ref = before.handleAt ref := by
  rw [← handleAt_quiet after, ← handleAt_quiet before]
  exact congrArg (fun tracker => tracker.handleAt ref) same

/-- Both searches follow the pointer to the connection. -/
theorem handleAt_considered {tracker after : Tracker} {targeted broadcast : List Consideration}
    (sent : tracker.sendPackets = some (after, targeted, broadcast))
    {consideration : Consideration} (member : consideration ∈ targeted ++ broadcast) :
    (tracker.handleAt consideration.connection).isSome := by
  obtain ⟨early, late⟩ := decided_of_sendPackets sent
  rcases List.mem_append.mp member with first | second
  · have decided := early consideration first
    obtain ⟨handle, found, _⟩ := Option.bind_eq_some_iff.mp decided.decision
    rw [← handleAt_of_settled decided.settled, found]
    rfl
  · have decided := late consideration second
    obtain ⟨handle, found, _⟩ := Option.bind_eq_some_iff.mp decided.decision
    rw [← handleAt_of_settled decided.settled, found]
    rfl

/-- Every decision of a call is made with what is there when it starts. -/
theorem settled_considered {tracker after : Tracker} {targeted broadcast : List Consideration}
    (sent : tracker.sendPackets = some (after, targeted, broadcast))
    {consideration : Consideration} (member : consideration ∈ targeted ++ broadcast) :
    consideration.before.settled = tracker.settled := by
  obtain ⟨early, late⟩ := decided_of_sendPackets sent
  rcases List.mem_append.mp member with first | second
  · exact (early consideration first).settled
  · exact (late consideration second).settled

theorem packetAt_considered {tracker after : Tracker}
    {targeted broadcast : List Consideration}
    (sent : tracker.sendPackets = some (after, targeted, broadcast))
    {consideration : Consideration} (member : consideration ∈ targeted ++ broadcast)
    (packet : Address) :
    consideration.before.packetAt packet = tracker.packetAt packet :=
  packetAt_of_settled (settled_considered sent member) packet

/-- What a decision of a call hands over is the object as it lies there. -/
theorem written_considered {tracker after : Tracker} {targeted broadcast : List Consideration}
    (sent : tracker.sendPackets = some (after, targeted, broadcast))
    {consideration : Consideration} (member : consideration ∈ targeted ++ broadcast)
    {object : Packet} (found : tracker.packetAt consideration.packet = some object) :
    consideration.written = object.writePacket [] := by
  rw [Consideration.written, packetAt_considered sent member, found, Option.bind_some]

/-- A link on which packets can be sent. -/
def openLink (handle : UInt16) : BleConnection :=
  { connectionHandle := handle
    connected := true
    packetCharacteristicValueHandle := 9
    role := hciRoleSlave }

/-- Two open links, 0x40 and 0x41, and two messages, at addresses 10 and 20. -/
def twoLinks (sent : MultiMap Address ConnectionRef) (broadcast : List Address) : Tracker :=
  { Tracker.new 100 with
    messages := (OrderedMap.empty.insert [1] ⟨10, { packetTtl := 7, messageId := [1] }⟩).insert
      [2] ⟨20, { packetTtl := 7, messageId := [2] }⟩
    connections := (OrderedMap.empty.insert 0x40 ⟨0, openLink 0x40⟩).insert 0x41
      ⟨1, openLink 0x41⟩
    packetsConnectionsSentList := sent
    broadcastPacketsToSendList := broadcast
    nextGeneration := 2 }

end BleRepeater.Tracker
