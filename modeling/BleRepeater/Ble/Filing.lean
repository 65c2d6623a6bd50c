import BleRepeater.Ble.Handles

/-!
# Connections under their own handles

A connection object stores the handle under which it stands in the map.  `connections[handle]`
creates the object when there is none, and it is up to the operation to set the handle then:
`connectionForConnHandle` and the reports of connections do, a disconnection and the callbacks
for raw packets do not.
-/

namespace BleRepeater.Tracker

open Transition

/-- Every entry of `connections` stands under the handle that its object stores. -/
def Filed (tracker : Tracker) : Prop :=
  ∀ entry ∈ tracker.connections.entries, entry.2.connection.connectionHandle = entry.1

theorem filed_iff {tracker : Tracker} :
    tracker.Filed ↔ ∀ ref handle, tracker.handleAt ref = some handle → handle = ref.key := by
  constructor
  · intro filed ref handle handled
    obtain ⟨connection, found, rfl⟩ := Option.map_eq_some_iff.mp handled
    have listed := OrderedMap.find?_eq_some_iff.mp (connectionAt_eq_some_iff.mp found)
    exact filed _ listed
  · intro handled ⟨key, generation, connection⟩ listed
    have found : tracker.connectionAt ⟨key, generation⟩ = some connection :=
      connectionAt_eq_some_iff.mpr (OrderedMap.find?_eq_some_iff.mpr listed)
    exact handled ⟨key, generation⟩ connection.connectionHandle (by rw [handleAt, found]; rfl)

theorem filed_new (address : Address) : (new address).Filed := by
  intro entry listed
  cases listed

/-- The same objects under the same handles. -/
theorem Filed.of_handles {before after : Tracker} (filed : before.Filed)
    (same : ∀ ref, after.handleAt ref = before.handleAt ref) : after.Filed := by
  rw [filed_iff] at filed ⊢
  intro ref handle handled
  exact filed ref handle ((same ref).symm.trans handled)

theorem Filed.of_connections {before after : Tracker} (filed : before.Filed)
    (same : after.connections = before.connections) : after.Filed := by
  rwa [Filed, same]

/-! ## Changing one object -/

/-- Of the object that is changed only its own handle matters. -/
theorem filed_assign_iff {tracker : Tracker} (filed : tracker.Filed) (handle : UInt16)
    (change : BleConnection → BleConnection) :
    (tracker.assign handle change).Filed ↔
      (change ((tracker.connectionAt (tracker.connectionsIndex handle).1).getD
        {})).connectionHandle = handle := by
  rw [filed_iff] at filed ⊢
  have key := key_connectionsIndex tracker handle
  constructor
  · intro after
    have own := after (tracker.connectionsIndex handle).1
    rw [handleAt, connectionAt_assign, if_pos rfl, key] at own
    exact own _ rfl
  · intro own ref stored handled
    rw [handleAt, connectionAt_assign] at handled
    split at handled
    · rename_i here
      cases handled
      rw [here, key]
      exact own
    · exact filed ref stored handled

/-- An object that is there stores its handle, and a new one stores zero. -/
theorem handle_indexed_iff {tracker : Tracker} (filed : tracker.Filed) (handle : UInt16) :
    ((tracker.connectionAt (tracker.connectionsIndex handle).1).getD {}).connectionHandle =
        handle ↔
      handle = 0 ∨ (tracker.connections.find? handle).isSome := by
  cases found : tracker.connections.find? handle with
  | some entry =>
      have there : tracker.connectionAt ⟨handle, entry.generation⟩ = some entry.connection := by
        rw [connectionAt_eq_some_iff, found]
      have own := filed_iff.mp filed ⟨handle, entry.generation⟩
        entry.connection.connectionHandle (by rw [handleAt, there]; rfl)
      rw [connectionsIndex_of_some found, there]
      simpa using own
  | none =>
      have absent : tracker.connectionAt ⟨handle, tracker.nextGeneration⟩ = none := by
        simp [connectionAt, found]
      rw [connectionsIndex_of_none found, absent]
      simp [eq_comm]

/-- `connections[handle]` alone. -/
theorem filed_connectionsIndex_iff {tracker : Tracker} (filed : tracker.Filed)
    (handle : UInt16) :
    (tracker.connectionsIndex handle).2.Filed ↔
      handle = 0 ∨ (tracker.connections.find? handle).isSome := by
  have same : ∀ ref, (tracker.connectionsIndex handle).2.handleAt ref =
      (tracker.assign handle id).handleAt ref := by
    intro ref
    rw [handleAt, handleAt, connectionAt_assign, connectionAt_connectionsIndex]
    rfl
  have own := filed_assign_iff filed handle id
  rw [id] at own
  rw [← handle_indexed_iff filed, ← own]
  exact ⟨fun there => there.of_handles fun ref => (same ref).symm,
    fun there => there.of_handles same⟩

theorem Filed.connectionForConnHandle {tracker : Tracker} (filed : tracker.Filed)
    (handle : UInt16) : (tracker.connectionForConnHandle handle).2.Filed := by
  unfold Tracker.connectionForConnHandle
  cases found : tracker.connections.find? handle with
  | some entry =>
      dsimp only
      rw [connectionsIndex_of_some found]
      exact filed
  | none => exact (filed_assign_iff filed handle _).mpr rfl

theorem Filed.enqueueTargetedPacket {tracker after : Tracker} {packet : Address}
    {toConnection : BleConnection} (filed : tracker.Filed)
    (done : tracker.enqueueTargetedPacket packet toConnection = some after) : after.Filed := by
  obtain ⟨_, _, ⟨_, rfl⟩ | ⟨_, rfl⟩⟩ := enqueueTargetedPacket_cases done
  · exact filed.connectionForConnHandle toConnection.connectionHandle
  · exact filed

theorem Filed.announceEach {uptime : UInt64} {announcedTo : List ConnectionRef}
    {connections : List BleConnection} {tracker after : Tracker} (filed : tracker.Filed)
    (done : announceEach uptime announcedTo connections tracker = some after) :
    after.Filed := by
  refine announceEach_invariant done ?_ filed
  intro current next connection filed queued
  have stamped : (current.stampAnnounce uptime).Filed := filed
  exact stamped.enqueueTargetedPacket queued

/-- A callback looks its handle up in the map, and changes nothing there. -/
theorem connections_rawPacketCallback (queue : RawQueue) (tracker : Tracker)
    (conHandle : UInt16) (ret : UInt8) :
    (rawPacketCallback queue tracker conHandle ret).tracker.connections =
      (tracker.connectionsIndex conHandle).2.connections := by
  have queued : ∀ tracker : Tracker, ∀ packets,
      (tracker.setRawPackets queue packets).connections = tracker.connections := by
    intro tracker packets
    cases queue <;> rfl
  have again : ∀ tracker : Tracker, (tracker.connections.find? conHandle).isSome →
      (tracker.connectionsIndex conHandle).2.connections = tracker.connections := by
    intro tracker there
    obtain ⟨entry, found⟩ := Option.isSome_iff_exists.mp there
    rw [connectionsIndex_of_some found]
  have indexed : ((tracker.connectionsIndex conHandle).2.connections.find?
      conHandle).isSome := by
    cases found : tracker.connections.find? conHandle with
    | some entry => simp [connectionsIndex_of_some found, found]
    | none => simp [connectionsIndex_of_none found]
  cases bound : (tracker.rawPackets queue).lowerBound conHandle with
  | nil =>
      simp only [rawPacketCallback, transmitFirst_of_nil bound, bound]
  | cons entry rest =>
      have first : (transmitFirst queue tracker conHandle ret).tracker.connections =
          (tracker.connectionsIndex conHandle).2.connections := by
        simp only [transmitFirst, bound]
        split
        · exact queued _ _
        · rfl
      unfold rawPacketCallback
      dsimp only
      split
      · rw [← first] at indexed ⊢
        exact again _ indexed
      · exact first

/-! ## Runs -/

/-- The handle that an operation only looks up with `connections[handle]`. -/
def Operation.indexed : Operation → Option UInt16
  | .reportDisconnection handle | .notifyRawPacket handle _ | .writeRawPacket handle _ =>
      some handle
  | _ => none

/-- A disconnection and a callback find an object under their handle, or the handle is
zero. -/
def FindsEntry (tracker : Tracker) (operation : Operation) : Prop :=
  operation.indexed.all fun handle =>
    decide (handle = 0) || (tracker.connections.find? handle).isSome

instance decidableFindsEntry (tracker : Tracker) (operation : Operation) :
    Decidable (tracker.FindsEntry operation) :=
  inferInstanceAs (Decidable (_ = true))

theorem findsEntry_iff {tracker : Tracker} {operation : Operation} {handle : UInt16}
    (indexed : operation.indexed = some handle) :
    tracker.FindsEntry operation ↔
      handle = 0 ∨ (tracker.connections.find? handle).isSome := by
  simp [FindsEntry, indexed]

theorem findsEntry_of_none {tracker : Tracker} {operation : Operation}
    (indexed : operation.indexed = none) : tracker.FindsEntry operation := by
  simp [FindsEntry, indexed]

/-- An operation whose setter leaves handles alone. -/
def KeepingStep (platform : Platform) : Tracker → Operation → Tracker → Prop :=
  Guarded (fun _ operation => operation.KeepsHandles) (OperationStep platform)

variable {platform : Platform} {before after : Tracker} {operation : Operation}

theorem filed_of_step_iff (filed : before.Filed)
    (step : KeepingStep platform before operation after) :
    after.Filed ↔ before.FindsEntry operation := by
  obtain ⟨keeps, step⟩ := step
  have done := step.2
  cases operation with
  | reportDisconnection handle =>
      cases done
      have own := filed_assign_iff filed handle fun connection =>
        { connection with notificationEnabled := false, connected := false }
      rw [findsEntry_iff rfl, ← handle_indexed_iff filed]
      exact own
  | notifyRawPacket handle ret =>
      cases done
      rw [findsEntry_iff rfl, ← filed_connectionsIndex_iff filed]
      have same := connections_rawPacketCallback .notify before handle ret
      exact ⟨fun there => there.of_connections same.symm,
        fun there => there.of_connections same⟩
  | writeRawPacket handle ret =>
      cases done
      rw [findsEntry_iff rfl, ← filed_connectionsIndex_iff filed]
      have same := connections_rawPacketCallback .write before handle ret
      exact ⟨fun there => there.of_connections same.symm,
        fun there => there.of_connections same⟩
  | reportConnection uptime handle addr addressType =>
      cases done
      refine iff_of_true ?_ (findsEntry_of_none rfl)
      rw [filed_iff] at filed ⊢
      intro ref stored handled
      rw [handleAt, connectionAt_reportConnection] at handled
      split at handled
      · rename_i here
        cases handled
        rw [here, key_connectionsIndex]
        rfl
      · exact filed ref stored handled
  | reportConnectionWithRole uptime handle addr addressType role =>
      cases done
      refine iff_of_true ?_ (findsEntry_of_none rfl)
      rw [filed_iff] at filed ⊢
      intro ref stored handled
      rw [handleAt, connectionAt_reportConnectionWithRole] at handled
      split at handled
      · rename_i here
        cases handled
        rw [here, key_connectionsIndex]
        rfl
      · exact filed ref stored handled
  | connectionForConnHandle handle =>
      cases done
      exact iff_of_true (filed.connectionForConnHandle handle) (findsEntry_of_none rfl)
  | enqueueTargetedPacket packet toConnection =>
      exact iff_of_true (filed.enqueueTargetedPacket done) (findsEntry_of_none rfl)
  | announceToConnections uptime =>
      have ready : (setupAnnounceIfNeeded platform before).Filed := by
        unfold setupAnnounceIfNeeded
        split <;> exact filed
      exact iff_of_true (ready.announceEach done) (findsEntry_of_none rfl)
  | sendPackets =>
      obtain ⟨⟨last, targeted, broadcast⟩, sent, same⟩ := Option.map_eq_some_iff.mp done
      cases same
      have settled := (sendPackets_sendsOnly sent).settled
      exact iff_of_true (filed.of_handles (handleAt_of_settled settled)) (findsEntry_of_none rfl)
  | cleanupStaleItems uptime =>
      refine iff_of_true ?_ (findsEntry_of_none rfl)
      intro entry listed
      rw [connections_cleanupStaleItems done] at listed
      exact filed entry (OrderedMap.mem_eraseIf.mp listed).1
  | updateConnection changed change =>
      cases done
      refine iff_of_true ?_ (findsEntry_of_none rfl)
      rw [filed_iff] at filed ⊢
      intro ref stored handled
      rw [handleAt, connectionAt_updateConnection] at handled
      split at handled
      · rw [Option.map_map] at handled
        obtain ⟨connection, found, same⟩ := Option.map_eq_some_iff.mp handled
        subst same
        exact (keeps connection).1.trans (filed ref _ (by rw [handleAt, found]; rfl))
      · exact filed ref stored handled
  | storeMessageAndReturnIfNew | storePacketAndReturnIfNew | checkSenderInPeers
  | enqueueBroadcastPacket | enqueueBroadcastPacketFrom | addAvailablePeer
  | setConnectionHandleForPeer | possiblyUpdateTimeOffset | updatePeer =>
      exact iff_of_true (filed.of_connections (connections_of_step step trivial)) (findsEntry_of_none rfl)

theorem keepingStep_functional {left right : Tracker}
    (first : KeepingStep platform before operation left)
    (second : KeepingStep platform before operation right) : left = right :=
  Option.some.inj (first.2.2.symm.trans second.2.2)

/-- The connections stand under their own handles throughout a run exactly when every
disconnection and every callback finds an object under its handle, or the handle is zero. -/
theorem filed_throughout_iff {address : Address} {operations : List Operation}
    {finish : Tracker} (run : Run (KeepingStep platform) (new address) operations finish) :
    Throughout (KeepingStep platform) Filed (new address) operations ↔
      Run (Guarded FindsEntry (KeepingStep platform)) (new address) operations finish :=
  run.throughout_iff_guarded keepingStep_functional filed_of_step_iff (filed_new address)

/-- A link is reported, called back for, and lost. -/
def reportedAndLost : List Operation :=
  [.reportConnection 0 0x40 [1, 2, 3, 4, 5, 6] 0, .notifyRawPacket 0x40 0,
    .reportDisconnection 0x40]

theorem filed_throughout_iff_lost :
    Throughout (KeepingStep bytesSummed) Filed (new 100) reportedAndLost := by
  let next (tracker : Tracker) (operation : Operation) : Option Tracker :=
    if tracker.FindsEntry operation then operation.next bytesSummed tracker else none
  have sound : ∀ {before operation after}, next before operation = some after →
      Guarded FindsEntry (OperationStep bytesSummed) before operation after := by
    intro before operation after done
    obtain ⟨finds, done⟩ := Option.ite_none_right_eq_some.mp done
    exact ⟨finds, step_of_next done⟩
  obtain ⟨finish, done⟩ := Option.isSome_iff_exists.mp
    (show (follow next reportedAndLost (new 100)).isSome by decide)
  have keeps : ∀ operation ∈ reportedAndLost, operation.KeepsHandles := by
    simp [reportedAndLost, Operation.KeepsHandles]
  have run := (Run.of_follow sound done).guard keeps
  have guarded : Run (Guarded FindsEntry (KeepingStep bytesSummed)) (new 100)
      reportedAndLost finish := run.mono fun step => ⟨step.2.1, step.1, step.2.2⟩
  exact (filed_throughout_iff (guarded.mono And.right)).mpr guarded

/-- A disconnection of an unknown handle leaves an object for handle zero under it, and so
does a callback. -/
theorem unknown_misfiled :
    (∃ finish, Run (KeepingStep bytesSummed) (new 100) [.reportDisconnection 0x40] finish ∧
      finish.handleAt ⟨0x40, 0⟩ = some 0 ∧
      ¬ Throughout (KeepingStep bytesSummed) Filed (new 100) [.reportDisconnection 0x40]) ∧
    ∃ finish, Run (KeepingStep bytesSummed) (new 100) [.writeRawPacket 0x40 0] finish ∧
      finish.handleAt ⟨0x40, 0⟩ = some 0 ∧
      ¬ Throughout (KeepingStep bytesSummed) Filed (new 100) [.writeRawPacket 0x40 0] := by
  have misfiled : ∀ {finish : Tracker}, finish.handleAt ⟨0x40, 0⟩ = some 0 →
      ¬ finish.Filed := by
    intro finish handled filed
    cases filed_iff.mp filed ⟨0x40, 0⟩ 0 handled
  have lost : Run (KeepingStep bytesSummed) (new 100) [.reportDisconnection 0x40]
      ((new 100).reportDisconnection 0x40) := .cons ⟨trivial, trivial, rfl⟩ (.nil _)
  have called : Run (KeepingStep bytesSummed) (new 100) [.writeRawPacket 0x40 0]
      ((new 100).writeRawPacket 0x40 0).tracker := .cons ⟨trivial, trivial, rfl⟩ (.nil _)
  refine ⟨⟨_, lost, by decide, ?_⟩, ⟨_, called, by decide, ?_⟩⟩
  · intro throughout
    exact misfiled (by decide) (throughout [.reportDisconnection 0x40] [] _ rfl lost)
  · intro throughout
    exact misfiled (by decide) (throughout [.writeRawPacket 0x40 0] [] _ rfl called)

end BleRepeater.Tracker
