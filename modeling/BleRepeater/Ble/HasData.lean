import BleRepeater.Ble.Filing
import BleRepeater.Ble.Neighbours

/-!
# Pending data

`SendPacketToConnection` marks the connection and queues the packet, under the handle that
the connection stores.  The callbacks take packets off again and clear the mark of a copy
only, and reports of connections may replace a marked object, so the marks need not match
the queues.
-/

namespace BleRepeater.Tracker

open Transition

/-- A packet waits for a handle, to be notified or written. -/
def Waits (tracker : Tracker) (handle : UInt16) : Prop :=
  ∃ queue, tracker.queued queue handle ≠ []

/-- The connections that are marked are those for whose handle a packet waits. -/
def MarksMatch (tracker : Tracker) : Prop :=
  ∀ ref connection, tracker.connectionAt ref = some connection →
    (connection.hasDataToSend = true ↔ tracker.Waits connection.connectionHandle)

/-! ## Events -/

/-- The operations beside `SendPacketToConnection` that touch marks, queues or the objects
that carry the marks, and storing, so that there are packets to send. -/
def Operation.touchesMarks : Operation → Bool
  | .notifyRawPacket .. | .writeRawPacket .. | .reportConnection ..
  | .reportConnectionWithRole .. | .reportDisconnection _ | .addAvailablePeer ..
  | .cleanupStaleItems _ | .storeMessageAndReturnIfNew ..
  | .storePacketAndReturnIfNew .. => true
  | _ => false

/-- A call of `SendPacketToConnection`, or of one of these operations. -/
inductive MarkEvent where
  | sendPacketToConnection (packet : Address) (connection : ConnectionRef)
  | operation (operation : Operation)

/-- One call. -/
inductive MarkStep (platform : Platform) : Tracker → MarkEvent → Tracker → Prop where
  | send {before after : Tracker} {packet : Address} {connection : ConnectionRef}
      {request : Request} :
      before.sendPacketToConnection packet connection = some (after, request) →
      MarkStep platform before (.sendPacketToConnection packet connection) after
  | operation {before after : Tracker} {operation : Operation} :
      operation.touchesMarks = true → OperationStep platform before operation after →
      MarkStep platform before (.operation operation) after

/-- The assertion of a callback holds. -/
def Asserts (tracker : Tracker) : MarkEvent → Prop
  | .operation (.notifyRawPacket conHandle ret) =>
      (tracker.notifyRawPacket conHandle ret).assertHolds = true
  | .operation (.writeRawPacket conHandle ret) =>
      (tracker.writeRawPacket conHandle ret).assertHolds = true
  | _ => True

/-! ## What keeps the marks -/

/-- No other connection stores the handle of the one that is sent to, unless a packet waits
for it already. -/
def SendKeepsMarks (tracker : Tracker) (ref : ConnectionRef) : Prop :=
  ∀ connection, tracker.connectionAt ref = some connection →
    tracker.Waits connection.connectionHandle ∨
      ∀ other, tracker.handleAt other = some connection.connectionHandle → other = ref

/-- What `equal_range` points to in a callback. -/
def firstFrom (tracker : Tracker) (queue : RawQueue) (conHandle : UInt16) : Option UInt16 :=
  ((tracker.rawPackets queue).lowerBound conHandle).head?.map Prod.fst

/-- Beside the oldest packet of a queue for a handle another one waits. -/
def WaitsBesides (tracker : Tracker) (queue : RawQueue) (handle : UInt16) : Prop :=
  (tracker.queued queue handle).tail ≠ [] ∨
    ∃ other, other ≠ queue ∧ tracker.queued other handle ≠ []

/-- A callback finds a connection with data, or nothing to transmit; a packet is taken off
only beside another one, or when no connection stores its handle; and there is a connection
under the handle, unless nothing waits for handle zero. -/
structure CallbackKeepsMarks (queue : RawQueue) (conHandle : UInt16) (ret : UInt8)
    (tracker : Tracker) : Prop where
  asserts : ∀ first, tracker.firstFrom queue conHandle = some first →
    ∃ entry, tracker.connections.find? conHandle = some entry ∧
      tracker.Waits entry.connection.connectionHandle
  takes : ∀ first, tracker.firstFrom queue conHandle = some first → done ret →
    tracker.WaitsBesides queue first ∨ ∀ ref, tracker.handleAt ref ≠ some first
  creates : tracker.connections.find? conHandle = none → ¬ tracker.Waits 0

/-- The calls that keep the marks. -/
def KeepsMarks (tracker : Tracker) : MarkEvent → Prop
  | .sendPacketToConnection _ connection => tracker.SendKeepsMarks connection
  | .operation (.notifyRawPacket conHandle ret) =>
      CallbackKeepsMarks .notify conHandle ret tracker
  | .operation (.writeRawPacket conHandle ret) =>
      CallbackKeepsMarks .write conHandle ret tracker
  | .operation (.reportConnection _ handle addr _)
  | .operation (.reportConnectionWithRole _ handle addr _ _) =>
      (tracker.reportedObject handle addr).hasDataToSend = true ↔ tracker.Waits handle
  | .operation (.reportDisconnection handle) =>
      tracker.connections.find? handle = none → ¬ tracker.Waits 0
  | _ => True

variable {platform : Platform} {before after : Tracker}

theorem marksMatch_new (address : Address) : (new address).MarksMatch := by
  intro ref connection found
  cases found

theorem MarksMatch.of_same (kept : before.MarksMatch)
    (objects : ∀ ref connection, after.connectionAt ref = some connection →
      before.connectionAt ref = some connection)
    (queues : after.rawPackets = before.rawPackets) : after.MarksMatch := by
  intro ref connection found
  simp only [Waits, queued, queues]
  exact kept ref connection (objects ref connection found)

/-! ## Changing one object -/

/-- Of an object that is put in place of another only its own mark matters. -/
theorem marksMatch_replace_iff {ref : ConnectionRef} {object : BleConnection}
    (kept : before.MarksMatch)
    (objects : ∀ other, after.connectionAt other =
      if other = ref then some object else before.connectionAt other)
    (queues : after.rawPackets = before.rawPackets) :
    after.MarksMatch ↔
      (object.hasDataToSend = true ↔ before.Waits object.connectionHandle) := by
  have waits : ∀ handle, after.Waits handle ↔ before.Waits handle := by
    intro handle
    simp only [Waits, queued, queues]
  constructor
  · intro matching
    have own := matching ref object (by rw [objects, if_pos rfl])
    rwa [waits] at own
  · intro own other connection found
    rw [waits]
    rw [objects] at found
    split at found
    · cases found
      exact own
    · exact kept other connection found

/-- An object that is there is marked as it should be, and a new one is not marked and stores
zero. -/
theorem indexed_marked_iff (kept : before.MarksMatch) (handle : UInt16) :
    (((before.connectionAt (before.connectionsIndex handle).1).getD {}).hasDataToSend = true ↔
        before.Waits ((before.connectionAt (before.connectionsIndex handle).1).getD
          {}).connectionHandle) ↔
      (before.connections.find? handle = none → ¬ before.Waits 0) := by
  cases found : before.connections.find? handle with
  | some entry =>
      have there : before.connectionAt ⟨handle, entry.generation⟩ = some entry.connection := by
        rw [connectionAt_eq_some_iff, found]
      rw [connectionsIndex_of_some found, there]
      exact iff_of_true (kept _ _ there) (by simp)
  | none =>
      have absent : before.connectionAt ⟨handle, before.nextGeneration⟩ = none := by
        simp [connectionAt, found]
      rw [connectionsIndex_of_none found, absent]
      simp

/-- `connections[handle]` alone, and a disconnection. -/
theorem marksMatch_assign_iff {handle : UInt16} {change : BleConnection → BleConnection}
    (kept : before.MarksMatch)
    (marks : ∀ connection, (change connection).hasDataToSend = connection.hasDataToSend ∧
      (change connection).connectionHandle = connection.connectionHandle)
    (objects : ∀ other, after.connectionAt other =
      if other = (before.connectionsIndex handle).1 then
        some (change ((before.connectionAt other).getD {}))
      else before.connectionAt other)
    (queues : after.rawPackets = before.rawPackets) :
    after.MarksMatch ↔ (before.connections.find? handle = none → ¬ before.Waits 0) := by
  have replaced : ∀ other, after.connectionAt other =
      if other = (before.connectionsIndex handle).1 then
        some (change ((before.connectionAt (before.connectionsIndex handle).1).getD {}))
      else before.connectionAt other := by
    intro other
    rw [objects]
    split
    · rename_i here
      rw [here]
    · rfl
  rw [marksMatch_replace_iff kept replaced queues, (marks _).1, (marks _).2,
    indexed_marked_iff kept]

/-! ## Sending -/

/-- The connection that is sent to is marked, and a packet waits for its handle. -/
theorem waits_sendPacketToConnection {packet : Address} {ref : ConnectionRef}
    {request : Request} (sent : before.sendPacketToConnection packet ref = some (after, request)) :
    ∃ connection, before.connectionAt ref = some connection ∧
      (∀ other, after.connectionAt other = if other = ref then
        some { connection with hasDataToSend := true } else before.connectionAt other) ∧
      ∀ handle, after.Waits handle ↔
        before.Waits handle ∨ handle = connection.connectionHandle := by
  have done := sent
  simp only [sendPacketToConnection, Option.bind_eq_bind, Option.bind_eq_some_iff] at done
  obtain ⟨object, found, data, written, connection, there, done⟩ := done
  have queue := queued_sendPacketToConnection found written sent
  have marked : ∀ other, (before.updateConnection ref fun connection =>
      { connection with hasDataToSend := true }).connectionAt other = if other = ref then
        some { connection with hasDataToSend := true } else before.connectionAt other := by
    intro other
    rw [connectionAt_updateConnection]
    split
    · rename_i here
      rw [here, there]
      rfl
    · rfl
  have target : (∀ other, after.connectionAt other = if other = ref then
        some { connection with hasDataToSend := true } else before.connectionAt other) ∧
      ∃ own, request.target = (own, connection.connectionHandle) := by
    split at done <;> cases done <;> exact ⟨marked, _, rfl⟩
  obtain ⟨objects, own, target⟩ := target
  refine ⟨connection, there, objects, ?_⟩
  intro handle
  constructor
  · rintro ⟨other, some⟩
    rw [queue] at some
    split at some
    · rename_i here
      exact Or.inr (congrArg Prod.snd (here.symm.trans target))
    · exact Or.inl ⟨other, some⟩
  · rintro (⟨other, some⟩ | rfl)
    · refine ⟨other, ?_⟩
      rw [queue]
      split
      · simp
      · exact some
    · refine ⟨own, ?_⟩
      rw [queue, if_pos target]
      simp

theorem marksMatch_send_iff {packet : Address} {ref : ConnectionRef} {request : Request}
    (kept : before.MarksMatch)
    (sent : before.sendPacketToConnection packet ref = some (after, request)) :
    after.MarksMatch ↔ before.SendKeepsMarks ref := by
  obtain ⟨connection, there, objects, waits⟩ := waits_sendPacketToConnection sent
  constructor
  · intro matching same found
    cases found.symm.trans there
    by_cases waited : before.Waits connection.connectionHandle
    · exact Or.inl waited
    · refine Or.inr fun other handled => ?_
      by_contra different
      obtain ⟨object, found, same⟩ := Option.map_eq_some_iff.mp handled
      have after := matching other object (by rw [objects, if_neg different, found])
      rw [same, waits] at after
      have marked := kept other object found
      rw [same] at marked
      exact waited (marked.mp (after.mpr (Or.inr rfl)))
  · intro keeps other object found
    rw [waits]
    rw [objects] at found
    split at found
    · cases found
      simp
    · rename_i different
      rw [kept other object found]
      refine (or_iff_left_of_imp fun same => ?_).symm
      rw [same]
      refine (keeps connection there).resolve_right fun alone => different (alone other ?_)
      rw [handleAt, found, ← same]
      rfl

/-! ## Calling back -/

theorem connectionAt_of_connections {left right : Tracker}
    (same : left.connections = right.connections) (ref : ConnectionRef) :
    left.connectionAt ref = right.connectionAt ref := by
  rw [connectionAt, connectionAt, same]

/-- The assertion of a callback is about the object under its handle. -/
theorem assertHolds_iff (kept : before.MarksMatch) (queue : RawQueue) (conHandle : UInt16)
    (ret : UInt8) :
    (rawPacketCallback queue before conHandle ret).assertHolds = true ↔
      ∀ first, before.firstFrom queue conHandle = some first →
        ∃ entry, before.connections.find? conHandle = some entry ∧
          before.Waits entry.connection.connectionHandle := by
  have same : (rawPacketCallback queue before conHandle ret).assertHolds =
      (transmitFirst queue before conHandle ret).assertHolds := by
    unfold rawPacketCallback
    dsimp only
    split <;> rfl
  rw [same]
  cases bound : (before.rawPackets queue).lowerBound conHandle with
  | nil =>
      rw [transmitFirst_of_nil bound]
      simp [firstFrom, bound]
  | cons entry rest =>
      obtain ⟨first, data⟩ := entry
      have asserted : (transmitFirst queue before conHandle ret).assertHolds =
          (((before.connectionsIndex conHandle).2.connectionAt
            (before.connectionsIndex conHandle).1).getD {}).hasDataToSend := by
        rw [transmitFirst, bound]
      rw [asserted, connectionAt_connectionsIndex, if_pos rfl]
      have finds : before.firstFrom queue conHandle = some first := by
        simp [firstFrom, bound]
      cases found : before.connections.find? conHandle with
      | some entry =>
          have there : before.connectionAt ⟨conHandle, entry.generation⟩ =
              some entry.connection := by
            rw [connectionAt_eq_some_iff, found]
          rw [connectionsIndex_of_some found, there]
          simpa [finds] using kept _ _ there
      | none =>
          have absent : before.connectionAt ⟨conHandle, before.nextGeneration⟩ = none := by
            simp [connectionAt, found]
          rw [connectionsIndex_of_none found, absent]
          simp [finds]

section Callback

variable {queue : RawQueue} {conHandle first : UInt16} {data : Bytes}
  {rest : List (UInt16 × Bytes)} {ret : UInt8}

theorem waits_of_bound
    (bound : (before.rawPackets queue).lowerBound conHandle = (first, data) :: rest) :
    before.Waits first := by
  obtain ⟨_, front, _⟩ := MultiMap.equalRange_of_lowerBound bound
  refine ⟨queue, ?_⟩
  rw [queued, front]
  simp

/-- Only the handle of the packet that is taken off may have none left. -/
theorem waits_callback
    (bound : (before.rawPackets queue).lowerBound conHandle = (first, data) :: rest)
    (handle : UInt16) :
    (rawPacketCallback queue before conHandle ret).tracker.Waits handle ↔
      if done ret ∧ handle = first then before.WaitsBesides queue first
      else before.Waits handle := by
  obtain ⟨_, front, others, _⟩ := MultiMap.equalRange_of_lowerBound bound
  have after := queued_of_cons bound ret
  simp only [Waits, after]
  by_cases taken : done ret
  · by_cases own : handle = first
    · subst own
      rw [if_pos ⟨taken, rfl⟩, WaitsBesides, queued, front, List.tail_cons]
      constructor
      · rintro ⟨other, some⟩
        by_cases same : other = queue
        · rw [if_pos ⟨same, taken⟩] at some
          exact Or.inl some
        · rw [if_neg fun both => same both.1] at some
          exact Or.inr ⟨other, same, some⟩
      · rintro (some | ⟨other, different, some⟩)
        · exact ⟨queue, by rwa [if_pos ⟨rfl, taken⟩]⟩
        · exact ⟨other, by rwa [if_neg fun both => different both.1]⟩
    · rw [if_neg fun both => own both.2, others handle own]
      apply exists_congr
      intro other
      split
      · rename_i both
        rw [both.1]
        rfl
      · rfl
  · simp [taken]

/-- A callback under whose handle there is a connection leaves the connections. -/
theorem connectionAt_callback {entry : ConnectionEntry}
    (found : before.connections.find? conHandle = some entry) (ref : ConnectionRef) :
    (rawPacketCallback queue before conHandle ret).tracker.connectionAt ref =
      before.connectionAt ref := by
  apply connectionAt_of_connections
  rw [connections_rawPacketCallback, connectionsIndex_of_some found]

theorem marksMatch_callback_iff (kept : before.MarksMatch) (queue : RawQueue)
    (conHandle : UInt16) (ret : UInt8) :
    (rawPacketCallback queue before conHandle ret).tracker.MarksMatch ∧
        (rawPacketCallback queue before conHandle ret).assertHolds = true ↔
      CallbackKeepsMarks queue conHandle ret before := by
  rw [assertHolds_iff kept]
  cases bound : (before.rawPackets queue).lowerBound conHandle with
  | nil =>
      have nothing : before.firstFrom queue conHandle = none := by simp [firstFrom, bound]
      have packets : (rawPacketCallback queue before conHandle ret).tracker.rawPackets =
          before.rawPackets := by
        rw [(rawPacketCallback_eq queue before conHandle ret).2.1, transmitFirst_of_nil bound]
      have objects : ∀ other,
          (rawPacketCallback queue before conHandle ret).tracker.connectionAt other =
            if other = (before.connectionsIndex conHandle).1 then
              some (id ((before.connectionAt other).getD {}))
            else before.connectionAt other := by
        intro other
        rw [connectionAt_of_connections
          (connections_rawPacketCallback queue before conHandle ret), connectionAt_connectionsIndex]
        rfl
      rw [marksMatch_assign_iff kept (fun _ => ⟨rfl, rfl⟩) objects packets]
      constructor
      · intro both
        exact ⟨both.2, by simp [nothing], both.1⟩
      · intro keeps
        exact ⟨keeps.creates, keeps.asserts⟩
  | cons entry rest =>
      obtain ⟨first, data⟩ := entry
      have finds : before.firstFrom queue conHandle = some first := by
        simp [firstFrom, bound]
      have waited := waits_of_bound bound
      have waits := @waits_callback before queue conHandle first data rest ret bound
      constructor
      · rintro ⟨matching, asserts⟩
        obtain ⟨entry, found, _⟩ := asserts first finds
        have same := @connectionAt_callback before queue conHandle ret entry found
        refine ⟨asserts, ?_, by simp [found]⟩
        intro other taken finished
        cases finds.symm.trans taken
        by_cases besides : before.WaitsBesides queue first
        · exact Or.inl besides
        · refine Or.inr fun ref handled => ?_
          obtain ⟨connection, there, stored⟩ := Option.map_eq_some_iff.mp handled
          have marked := matching ref connection ((same ref).trans there)
          rw [stored, waits, if_pos ⟨finished, rfl⟩] at marked
          apply besides
          rw [← marked, kept ref connection there, stored]
          exact waited
      · intro keeps
        obtain ⟨entry, found, _⟩ := keeps.asserts first finds
        have same := @connectionAt_callback before queue conHandle ret entry found
        refine ⟨?_, keeps.asserts⟩
        intro ref connection there
        rw [same] at there
        rw [waits, kept ref connection there]
        split
        · rename_i both
          obtain ⟨finished, stored⟩ := both
          rw [stored]
          refine iff_of_true waited ((keeps.takes first finds finished).resolve_right ?_)
          intro none
          apply none ref
          rw [handleAt, there, ← stored]
          rfl
        · rfl

end Callback

/-! ## Every call -/

/-- What changes connections and neighbours only leaves the queues. -/
theorem rawPackets_of_unlinked {tracker last : Tracker}
    {neighbours : OrderedMap Bytes BleConnection}
    (same : last.unlinked = { tracker.unlinked with availableNeighbours := neighbours }) :
    last.rawPackets = tracker.rawPackets := by
  have packets := congrArg rawPackets same
  funext queue
  have own := congrFun packets queue
  cases queue <;> exact own

theorem rawPackets_reportConnection (tracker : Tracker) (uptime : UInt64) (handle : UInt16)
    (addr : Bytes) (addressType : UInt8) :
    (tracker.reportConnection uptime handle addr addressType).rawPackets =
      tracker.rawPackets :=
  rawPackets_of_unlinked (unlinked_reportConnection tracker uptime handle addr addressType)

theorem rawPackets_assign (tracker : Tracker) (handle : UInt16)
    (change : BleConnection → BleConnection) :
    (tracker.assign handle change).rawPackets = tracker.rawPackets :=
  rawPackets_of_unlinked (unlinked_assign tracker handle change)

theorem marksMatch_report_iff {uptime : UInt64} {handle : UInt16} {addr : Bytes}
    {addressType : UInt8} (kept : before.MarksMatch) :
    (before.reportConnection uptime handle addr addressType).MarksMatch ↔
      ((before.reportedObject handle addr).hasDataToSend = true ↔ before.Waits handle) :=
  marksMatch_replace_iff kept
    (connectionAt_reportConnection before uptime handle addr addressType)
    (rawPackets_reportConnection before uptime handle addr addressType)

theorem marksMatch_disconnection_iff (kept : before.MarksMatch) (handle : UInt16) :
    (before.reportDisconnection handle).MarksMatch ↔
      (before.connections.find? handle = none → ¬ before.Waits 0) := by
  let change : BleConnection → BleConnection := fun connection =>
    { connection with notificationEnabled := false, connected := false }
  have marks : ∀ connection, (change connection).hasDataToSend = connection.hasDataToSend ∧
      (change connection).connectionHandle = connection.connectionHandle :=
    fun _ => ⟨rfl, rfl⟩
  exact marksMatch_assign_iff kept marks (connectionAt_reportDisconnection before handle)
    (rawPackets_assign before handle change)

theorem rawPackets_cleanupStaleItems {uptime : UInt64}
    (done : before.cleanupStaleItems uptime = some after) :
    after.rawPackets = before.rawPackets := by
  obtain ⟨_, _, _, _, rfl⟩ := cleanupStaleItems_eq done
  funext queue
  cases queue <;> rfl

/-- A call keeps the marks, and its assertion holds, exactly under its condition. -/
theorem keepsMarks_iff {event : MarkEvent} (kept : before.MarksMatch)
    (step : MarkStep platform before event after) :
    after.MarksMatch ∧ before.Asserts event ↔ before.KeepsMarks event := by
  cases step with
  | send sent =>
      exact (and_iff_left trivial).trans (marksMatch_send_iff kept sent)
  | operation touches step =>
      rename_i operation
      have done := step.2
      cases operation with
      | notifyRawPacket conHandle ret =>
          cases done
          exact marksMatch_callback_iff kept .notify conHandle ret
      | writeRawPacket conHandle ret =>
          cases done
          exact marksMatch_callback_iff kept .write conHandle ret
      | reportConnection uptime handle addr addressType =>
          cases done
          exact (and_iff_left trivial).trans (marksMatch_report_iff kept)
      | reportConnectionWithRole uptime handle addr addressType role =>
          cases done
          refine (and_iff_left trivial).trans (marksMatch_replace_iff kept
            (connectionAt_reportConnectionWithRole before uptime handle addr addressType role) ?_)
          exact (rawPackets_assign _ handle _).trans (rawPackets_reportConnection before ..)
      | reportDisconnection handle =>
          cases done
          exact (and_iff_left trivial).trans (marksMatch_disconnection_iff kept handle)
      | cleanupStaleItems uptime =>
          have objects : ∀ ref connection, after.connectionAt ref = some connection →
              before.connectionAt ref = some connection := fun ref connection found =>
            ((connectionAt_cleanupStaleItems done).mp found).1
          exact iff_of_true ⟨kept.of_same objects (rawPackets_cleanupStaleItems done), trivial⟩
            trivial
      | addAvailablePeer uptime btAddress btAddressType services rssi =>
          cases done
          exact iff_of_true ⟨kept.of_same (fun _ _ => id) rfl, trivial⟩ trivial
      | storeMessageAndReturnIfNew address message =>
          cases done
          refine iff_of_true ⟨?_, trivial⟩ trivial
          rw [storeMessageAndReturnIfNew_frame]
          exact kept.of_same (fun _ _ => id) rfl
      | storePacketAndReturnIfNew address passAlong =>
          cases done
          refine iff_of_true ⟨?_, trivial⟩ trivial
          rw [storePacketAndReturnIfNew_frame]
          exact kept.of_same (fun _ _ => id) rfl
      | _ => cases touches

/-! ## Runs -/

/-- The runs in which the marks match the queues in every state, and no assertion fails, are
those whose calls all meet their conditions. -/
theorem marksMatch_run_iff (platform : Platform) (address : Address)
    (events : List MarkEvent) (finish : Tracker) :
    Run (fun before event after => MarkStep platform before event after ∧
        (after.MarksMatch ∧ before.Asserts event)) (new address) events finish ↔
      Run (Guarded KeepsMarks (MarkStep platform)) (new address) events finish :=
  Run.guarded_iff_of_invariant (fun _ _ both => both.1)
    (fun kept step => keepsMarks_iff kept step) (marksMatch_new address)

/-- What a call makes of the tracker. -/
def MarkEvent.next (platform : Platform) (tracker : Tracker) : MarkEvent → Option Tracker
  | .sendPacketToConnection packet connection =>
      (tracker.sendPacketToConnection packet connection).map Prod.fst
  | .operation called => if called.touchesMarks then called.next platform tracker else none

theorem markStep_of_next {event : MarkEvent} (done : event.next platform before = some after) :
    MarkStep platform before event after := by
  cases event with
  | sendPacketToConnection packet connection =>
      obtain ⟨⟨last, request⟩, sent, same⟩ := Option.map_eq_some_iff.mp done
      cases same
      exact .send sent
  | operation operation =>
      obtain ⟨touches, done⟩ := Option.ite_none_right_eq_some.mp done
      exact .operation touches (step_of_next done)

/-- The announce is queued for a connection and written. -/
def writtenOnce : List MarkEvent :=
  [.operation (.reportConnection 0 0x40 [1, 2, 3, 4, 5, 6] 0),
    .sendPacketToConnection 100 ⟨0x40, 0⟩,
    .operation (.writeRawPacket 0x40 errorCodeSuccess)]

/-- The announce is queued for a connection that is scanned and reported again. -/
def reportedAgain : List MarkEvent :=
  [.operation (.reportConnection 0 0x40 [1, 2, 3, 4, 5, 6] 0),
    .sendPacketToConnection 100 ⟨0x40, 0⟩,
    .operation (.addAvailablePeer 0 [1, 2, 3, 4, 5, 6] 0 .found 0),
    .operation (.reportConnection 0 0x40 [1, 2, 3, 4, 5, 6] 0)]

/-- A connection stays marked when its only packet is written, and a callback asserts a mark
that a further report has removed. -/
theorem marks_differ :
    (∃ finish, Run (MarkStep bytesSummed) (new 100) writtenOnce finish ∧
      ¬ finish.MarksMatch) ∧
    ∃ middle finish, Run (MarkStep bytesSummed) (new 100) reportedAgain middle ∧
      MarkStep bytesSummed middle (.operation (.writeRawPacket 0x40 errorCodeSuccess)) finish ∧
      ¬ middle.Asserts (.operation (.writeRawPacket 0x40 errorCodeSuccess)) := by
  let next (tracker : Tracker) (event : MarkEvent) := event.next bytesSummed tracker
  constructor
  · have outcome : (follow next writtenOnce (new 100)).map (fun finish =>
        ((finish.connectionAt ⟨0x40, 0⟩).map BleConnection.hasDataToSend,
          finish.rawPacketToNotify.entries, finish.rawPacketToWrite.entries)) =
        some (some true, [], []) := by decide
    obtain ⟨finish, followed, shows⟩ := Option.map_eq_some_iff.mp outcome
    simp only [Prod.mk.injEq, Option.map_eq_some_iff] at shows
    obtain ⟨⟨connection, found, marked⟩, notify, write⟩ := shows
    refine ⟨finish, Run.of_follow markStep_of_next followed, ?_⟩
    intro matching
    obtain ⟨queue, some⟩ := (matching _ connection found).mp marked
    apply some
    cases queue
    · simp [queued, rawPackets, MultiMap.equalRange, notify]
    · simp [queued, rawPackets, MultiMap.equalRange, write]
  · have outcome : ((follow next reportedAgain (new 100)).bind fun middle =>
        (next middle (.operation (.writeRawPacket 0x40 errorCodeSuccess))).map fun _ =>
          (middle.writeRawPacket 0x40 errorCodeSuccess).assertHolds) = some false := by decide
    obtain ⟨middle, followed, rest⟩ := Option.bind_eq_some_iff.mp outcome
    obtain ⟨finish, last, fails⟩ := Option.map_eq_some_iff.mp rest
    refine ⟨middle, finish, Run.of_follow markStep_of_next followed, markStep_of_next last, ?_⟩
    intro asserts
    cases asserts.symm.trans fails

end BleRepeater.Tracker
