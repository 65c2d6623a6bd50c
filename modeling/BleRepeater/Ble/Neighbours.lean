import BleRepeater.Ble.Handles

/-!
# Available neighbours

A neighbour is a connection object that only scanning has written to.  It is taken out of
`available_neighbours` when it is reported as connected, or cleaned up, and no other
operation looks at it.
-/

namespace BleRepeater.Tracker

open Transition

/-! ## What changing an object leaves alone -/

/-- The tracker without its connection objects. -/
def unlinked (tracker : Tracker) : Tracker :=
  { tracker with connections := .empty, nextGeneration := 0 }

theorem neighbours_of_unlinked {before after : Tracker}
    (same : after.unlinked = before.unlinked) :
    after.availableNeighbours = before.availableNeighbours := by
  have neighbours := congrArg Tracker.availableNeighbours same
  exact neighbours

theorem unlinked_assign (tracker : Tracker) (handle : UInt16)
    (change : BleConnection → BleConnection) :
    (tracker.assign handle change).unlinked = tracker.unlinked := by
  unfold assign connectionsIndex
  split <;> rfl

theorem unlinked_connectionsIndex (tracker : Tracker) (handle : UInt16) :
    (tracker.connectionsIndex handle).2.unlinked = tracker.unlinked := by
  unfold connectionsIndex
  split <;> rfl

theorem unlinked_connectionForConnHandle (tracker : Tracker) (handle : UInt16) :
    (tracker.connectionForConnHandle handle).2.unlinked = tracker.unlinked := by
  unfold connectionForConnHandle
  split
  · exact unlinked_connectionsIndex tracker handle
  · exact unlinked_assign tracker handle _

/-- Reporting a connection changes its object, and forgets the neighbour. -/
theorem unlinked_reportConnection (tracker : Tracker) (uptime : UInt64) (handle : UInt16)
    (addr : Bytes) (addressType : UInt8) :
    (tracker.reportConnection uptime handle addr addressType).unlinked =
      { tracker.unlinked with
        availableNeighbours := tracker.availableNeighbours.erase addr } := by
  have opened : ∀ tracker : Tracker, ∀ neighbours,
      ({ tracker.assign handle (reported uptime handle addr addressType) with
        availableNeighbours := neighbours } : Tracker).unlinked =
      { tracker.unlinked with availableNeighbours := neighbours } := by
    intro tracker neighbours
    rw [← unlinked_assign tracker handle (reported uptime handle addr addressType)]
    rfl
  cases found : tracker.availableNeighbours.find? addr with
  | none =>
      have same : tracker.reportConnection uptime handle addr addressType =
          { tracker.assign handle (reported uptime handle addr addressType) with
            availableNeighbours := (tracker.assign handle
              (reported uptime handle addr addressType)).availableNeighbours.erase addr } := by
        simp only [reportConnection, found]
        rfl
      have neighbours : (tracker.assign handle
          (reported uptime handle addr addressType)).availableNeighbours =
            tracker.availableNeighbours := neighbours_of_unlinked (unlinked_assign ..)
      rw [same, opened, neighbours]
  | some item =>
      have same : tracker.reportConnection uptime handle addr addressType =
          { (tracker.assign handle fun _ => item).assign handle
              (reported uptime handle addr addressType) with
            availableNeighbours := ((tracker.assign handle fun _ => item).assign handle
              (reported uptime handle addr addressType)).availableNeighbours.erase addr } := by
        simp only [reportConnection, found]
        rfl
      have neighbours : ((tracker.assign handle fun _ => item).assign handle
          (reported uptime handle addr addressType)).availableNeighbours =
            tracker.availableNeighbours :=
        neighbours_of_unlinked ((unlinked_assign ..).trans (unlinked_assign ..))
      rw [same, opened, neighbours, unlinked_assign]

theorem neighbours_reportConnection (tracker : Tracker) (uptime : UInt64) (handle : UInt16)
    (addr : Bytes) (addressType : UInt8) :
    (tracker.reportConnection uptime handle addr addressType).availableNeighbours =
      tracker.availableNeighbours.erase addr := by
  have neighbours := congrArg Tracker.availableNeighbours
    (unlinked_reportConnection tracker uptime handle addr addressType)
  exact neighbours

/-! ## The operations on neighbours -/

theorem neighbours_enqueueBroadcastPacket {tracker last : Tracker} {packet : Address}
    (done : tracker.enqueueBroadcastPacket packet = some last) :
    last.availableNeighbours = tracker.availableNeighbours := by
  rw [enqueueBroadcastPacket_frame done]

theorem neighbours_rawPacketCallback (queue : RawQueue) (tracker : Tracker)
    (conHandle : UInt16) (ret : UInt8) :
    (rawPacketCallback queue tracker conHandle ret).tracker.availableNeighbours =
      tracker.availableNeighbours := by
  refine rawPacketCallback_invariant (motive := fun current =>
    current.availableNeighbours = tracker.availableNeighbours) ret ?_ ?_ rfl
  · intro current same
    exact (neighbours_of_unlinked (unlinked_connectionsIndex current conHandle)).trans same
  · intro current packets same
    cases queue <;> exact same

theorem neighbours_enqueueTargetedPacket {tracker after : Tracker} {packet : Address}
    {toConnection : BleConnection}
    (done : tracker.enqueueTargetedPacket packet toConnection = some after) :
    after.availableNeighbours = tracker.availableNeighbours := by
  have found := neighbours_of_unlinked
    (unlinked_connectionForConnHandle tracker toConnection.connectionHandle)
  obtain ⟨_, _, ⟨_, rfl⟩ | ⟨_, rfl⟩⟩ := enqueueTargetedPacket_cases done
  · exact found
  · rfl

theorem neighbours_announceEach {uptime : UInt64} {announcedTo : List ConnectionRef}
    {connections : List BleConnection} {tracker after : Tracker}
    (done : announceEach uptime announcedTo connections tracker = some after) :
    after.availableNeighbours = tracker.availableNeighbours := by
  refine announceEach_invariant (motive := fun current =>
    current.availableNeighbours = tracker.availableNeighbours) done ?_ rfl
  intro current next connection same queued
  exact (neighbours_enqueueTargetedPacket queued).trans same

theorem neighbours_cleanupStaleItems {before after : Tracker} {uptime : UInt64}
    (done : before.cleanupStaleItems uptime = some after) :
    after.availableNeighbours = before.availableNeighbours.eraseIf fun _ connection =>
      connectionStale (before.timeMs uptime) connection := by
  obtain ⟨_, _, _, _, rfl⟩ := cleanupStaleItems_eq done
  rfl

/-- The operations that scan a neighbour, report it or clean it up. -/
def Operation.ChangesNeighbours : Operation → Prop
  | .addAvailablePeer .. | .reportConnection .. | .reportConnectionWithRole ..
  | .cleanupStaleItems _ => True
  | _ => False

variable {platform : Platform} {before after : Tracker} {operation : Operation}

theorem neighbours_of_step (step : OperationStep platform before operation after)
    (other : ¬ operation.ChangesNeighbours) :
    after.availableNeighbours = before.availableNeighbours := by
  obtain ⟨_, done⟩ := step
  cases operation with
  | storeMessageAndReturnIfNew address message =>
      cases done
      rw [storeMessageAndReturnIfNew_frame]
  | storePacketAndReturnIfNew address passAlong =>
      cases done
      rw [storePacketAndReturnIfNew_frame]
  | checkSenderInPeers sender =>
      cases done
      unfold checkSenderInPeers
      split <;> rfl
  | enqueueTargetedPacket packet toConnection => exact neighbours_enqueueTargetedPacket done
  | enqueueBroadcastPacket packet => exact neighbours_enqueueBroadcastPacket done
  | enqueueBroadcastPacketFrom packet fromConnection fromPeer =>
      exact (neighbours_enqueueBroadcastPacket done).trans rfl
  | announceToConnections uptime =>
      have unset : (setupAnnounceIfNeeded platform before).availableNeighbours =
          before.availableNeighbours := by
        unfold setupAnnounceIfNeeded
        split <;> rfl
      exact (neighbours_announceEach done).trans unset
  | sendPackets =>
      obtain ⟨⟨last, targeted, broadcast⟩, sent, rfl⟩ := Option.map_eq_some_iff.mp done
      have settled := (sendPackets_sendsOnly sent).settled
      exact (congrArg Tracker.availableNeighbours settled :)
  | connectionForConnHandle handle =>
      cases done
      exact neighbours_of_unlinked (unlinked_connectionForConnHandle before handle)
  | reportDisconnection handle =>
      cases done
      have closed := neighbours_of_unlinked (unlinked_assign before handle fun connection =>
        { connection with notificationEnabled := false, connected := false })
      exact closed
  | possiblyUpdateTimeOffset uptime timestampMs =>
      cases done
      unfold possiblyUpdateTimeOffset
      dsimp only
      split <;> rfl
  | notifyRawPacket conHandle ret =>
      cases done
      exact neighbours_rawPacketCallback .notify before conHandle ret
  | writeRawPacket conHandle ret =>
      cases done
      exact neighbours_rawPacketCallback .write before conHandle ret
  | setConnectionHandleForPeer | updateConnection | updatePeer =>
      cases done
      rfl
  | addAvailablePeer | reportConnection | reportConnectionWithRole | cleanupStaleItems =>
      exact absurd trivial other

/-! ## What scanning learns -/

/-- A neighbour that was only scanned: the rest of the object is as constructed. -/
def Scanned (neighbour : BleConnection) : Prop :=
  neighbour =
    { btAddress := neighbour.btAddress
      btAddressType := neighbour.btAddressType
      servicesFound := neighbour.servicesFound
      rssi := neighbour.rssi
      lastSeenTime := neighbour.lastSeenTime }

/-- Every neighbour was only scanned. -/
def NeighboursScanned (tracker : Tracker) : Prop :=
  ∀ address neighbour, tracker.availableNeighbours.find? address = some neighbour →
    Scanned neighbour

theorem neighboursScanned_new (address : Address) : (new address).NeighboursScanned :=
  fun _ _ found => by cases found

theorem NeighboursScanned.of_same (scanned : before.NeighboursScanned)
    (same : after.availableNeighbours = before.availableNeighbours) :
    after.NeighboursScanned := by
  intro address neighbour found
  exact scanned address neighbour (same ▸ found)

theorem NeighboursScanned.of_erased (scanned : before.NeighboursScanned)
    (condition : Bytes → BleConnection → Bool)
    (erased : after.availableNeighbours = before.availableNeighbours.eraseIf condition) :
    after.NeighboursScanned := by
  intro address neighbour found
  rw [erased, OrderedMap.find?_eraseIf] at found
  exact scanned address neighbour found.1

theorem neighbours_reportConnectionWithRole (tracker : Tracker) (uptime : UInt64)
    (handle : UInt16) (addr : Bytes) (addressType role : UInt8) :
    (tracker.reportConnectionWithRole uptime handle addr addressType role).availableNeighbours =
      tracker.availableNeighbours.erase addr :=
  (neighbours_of_unlinked (unlinked_assign
    (tracker.reportConnection uptime handle addr addressType) handle
    fun connection => { connection with role := role })).trans
      (neighbours_reportConnection tracker uptime handle addr addressType)

/-- Nothing but scanning writes to a neighbour. -/
theorem NeighboursScanned.step (scanned : before.NeighboursScanned)
    (step : OperationStep platform before operation after) : after.NeighboursScanned := by
  have done := step.2
  cases operation with
  | addAvailablePeer uptime btAddress btAddressType services rssi =>
      cases done
      intro address neighbour found
      simp only [addAvailablePeer, OrderedMap.find?_insert] at found
      split at found
      · cases found
        cases old : before.availableNeighbours.find? btAddress with
        | none => rfl
        | some neighbour =>
            have only := scanned btAddress neighbour old
            rw [Option.getD_some, only]
            rfl
      · exact scanned address neighbour found
  | reportConnection uptime handle addr addressType =>
      cases done
      exact scanned.of_erased _
        (neighbours_reportConnection before uptime handle addr addressType)
  | reportConnectionWithRole uptime handle addr addressType role =>
      cases done
      exact scanned.of_erased _
        (neighbours_reportConnectionWithRole before uptime handle addr addressType role)
  | cleanupStaleItems uptime => exact scanned.of_erased _ (neighbours_cleanupStaleItems done)
  | _ => exact scanned.of_same (neighbours_of_step step not_false)

end BleRepeater.Tracker
