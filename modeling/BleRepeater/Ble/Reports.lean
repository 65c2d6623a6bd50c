import BleRepeater.Ble.Sessions

/-!
# Repeated reports

BTstack reports one connection in up to three events.  Each report looks for a neighbour of
the address, and a neighbour that was scanned since the last report takes the place of the
connection object.
-/

namespace BleRepeater.Tracker

open Transition

/-! ## Between two reports -/

/-- What the handlers of GATT discovery and MTU events, and of writes to the client
configuration, change of a connection. -/
def Discovers (change : BleConnection → BleConnection) : Prop :=
  ∀ connection, change connection =
    { connection with
      btMtu := (change connection).btMtu
      packetServiceStartGroupHandle := (change connection).packetServiceStartGroupHandle
      packetServiceEndGroupHandle := (change connection).packetServiceEndGroupHandle
      packetCharacteristicValueHandle := (change connection).packetCharacteristicValueHandle
      notificationEnabled := (change connection).notificationEnabled }

/-- Scanning, and what discovery does: it looks a handle up, and changes what it finds. -/
def Operation.ScansOrDiscovers : Operation → Prop
  | .addAvailablePeer .. | .connectionForConnHandle _ => True
  | .updateConnection _ change => Discovers change
  | _ => False

/-- A connection object is connected with an address. -/
def ConnectedWith (addr : Bytes) (ref : ConnectionRef) (tracker : Tracker) : Prop :=
  ∃ connection, tracker.connectionAt ref = some connection ∧
    connection.connected = true ∧ connection.btAddress = addr

variable {platform : Platform} {before after : Tracker} {operation : Operation}
  {handle : UInt16} {addr : Bytes} {ref : ConnectionRef}

/-- Scanning and discovery leave a connection connected as it is. -/
theorem ConnectedWith.step (connected : ConnectedWith addr ref before)
    (between : operation.ScansOrDiscovers)
    (step : OperationStep platform before operation after) :
    ConnectedWith addr ref after := by
  obtain ⟨connection, found, state, address⟩ := connected
  have done := step.2
  cases operation with
  | addAvailablePeer uptime btAddress btAddressType services rssi =>
      cases done
      exact ⟨connection, found, state, address⟩
  | connectionForConnHandle looked =>
      have connects := connects_of_step step (by simp)
      obtain ⟨other, still, alike⟩ := connects.kept ref connection found
      have same := alike not_false
      exact ⟨other, still, (congrArg BleConnection.connected same).symm.trans state,
        (congrArg BleConnection.btAddress same).symm.trans address⟩
  | updateConnection changed change =>
      cases done
      rw [ConnectedWith, connectionAt_updateConnection, found]
      split
      · have kept := between connection
        exact ⟨change connection, rfl, (congrArg BleConnection.connected kept).trans state,
          (congrArg BleConnection.btAddress kept).trans address⟩
      · exact ⟨connection, rfl, state, address⟩
  | _ => exact between.elim

/-- An advertisement of an address. -/
def Advertises (addr : Bytes) : Operation → Prop
  | .addAvailablePeer _ btAddress _ _ _ => btAddress = addr
  | _ => False

/-- The address is among the neighbours when it was, or when it has been advertised. -/
theorem scanned_iff {operations : List Operation}
    (run : Run (Guarded (fun _ operation => operation.ScansOrDiscovers)
      (OperationStep platform)) before operations after) :
    (after.availableNeighbours.find? addr).isSome ↔
      (before.availableNeighbours.find? addr).isSome ∨
        ∃ operation ∈ operations, Advertises addr operation := by
  induction run with
  | nil => simp
  | @cons start next finish operation operations head _ ih =>
      have first : (next.availableNeighbours.find? addr).isSome ↔
          (start.availableNeighbours.find? addr).isSome ∨ Advertises addr operation := by
        obtain ⟨between, step⟩ := head
        cases operation with
        | addAvailablePeer uptime btAddress btAddressType services rssi =>
            cases step.2
            simp only [addAvailablePeer, OrderedMap.find?_insert, Advertises]
            split
            · rename_i same
              simp [same]
            · rename_i other
              simp [Ne.symm other]
        | connectionForConnHandle looked =>
            rw [neighbours_of_step step not_false]
            simp [Advertises]
        | updateConnection changed change =>
            rw [neighbours_of_step step not_false]
            simp [Advertises]
        | _ => exact between.elim
      rw [ih, first, or_assoc]
      simp

/-! ## A further report -/

/-- What a report sets, whatever the object is. -/
def Operation.reports : Operation → BleConnection → BleConnection
  | .reportConnection uptime handle addr addressType => reported uptime handle addr addressType
  | .reportConnectionWithRole uptime handle addr addressType role => fun connection =>
      { reported uptime handle addr addressType connection with role := role }
  | _ => id

/-- What a report should change of a connection: its timestamp, and its role in the overload
with a role. -/
def Operation.refreshes : Operation → BleConnection → BleConnection
  | .reportConnection uptime _ _ _ => fun connection =>
      { connection with lastSeenTime := uptime }
  | .reportConnectionWithRole uptime _ _ _ role => fun connection =>
      { connection with lastSeenTime := uptime, role := role }
  | _ => id

/-- The report is of the handle and the type of address that the connection holds. -/
def Operation.ReportsLink (connection : BleConnection) : Operation → Prop
  | .reportConnection _ handle _ addressType
  | .reportConnectionWithRole _ handle _ addressType _ =>
      connection.connectionHandle = handle ∧ connection.btAddressType = addressType
  | _ => False

/-- The overload with a role. -/
def Operation.SetsRole : Operation → Prop
  | .reportConnectionWithRole .. => True
  | _ => False

/-- Two objects agree in all that a report does not set. -/
structure Operation.AgreesApart (operation : Operation) (left right : BleConnection) :
    Prop where
  btMtu : left.btMtu = right.btMtu
  startGroup : left.packetServiceStartGroupHandle = right.packetServiceStartGroupHandle
  endGroup : left.packetServiceEndGroupHandle = right.packetServiceEndGroupHandle
  value : left.packetCharacteristicValueHandle = right.packetCharacteristicValueHandle
  notification : left.notificationEnabled = right.notificationEnabled
  data : left.hasDataToSend = right.hasDataToSend
  services : left.servicesFound = right.servicesFound
  rssi : left.rssi = right.rssi
  role : ¬ operation.SetsRole → left.role = right.role

/-- A report of one object refreshes another when it is of that link and the objects agree. -/
theorem reports_eq_refreshes {left right : BleConnection} (opens : operation.Opens handle addr)
    (state : right.connected = true) (address : right.btAddress = addr) :
    operation.reports left = operation.refreshes right ↔
      operation.ReportsLink right ∧ operation.AgreesApart left right := by
  obtain ⟨rightHandle, rightAddress, rightType, rightMtu, rightStart, rightEnd, rightValue,
    rightNotification, rightData, rightConnected, rightServices, rightRssi, rightRole,
    rightSeen⟩ := right
  cases state
  cases address
  cases operation with
  | reportConnection uptime opened address addressType =>
      obtain ⟨rfl, rfl⟩ := opens
      simp only [Operation.reports, Operation.refreshes, reported, BleConnection.mk.injEq,
        Operation.ReportsLink]
      constructor
      · rintro ⟨handles, -, types, mtu, first, last, value, notification, data, -, services,
          rssi, role, -⟩
        exact ⟨⟨handles.symm, types.symm⟩, mtu, first, last, value, notification, data,
          services, rssi, fun _ => role⟩
      · rintro ⟨⟨rfl, rfl⟩, agrees⟩
        exact ⟨rfl, trivial, rfl, agrees.btMtu, agrees.startGroup, agrees.endGroup,
          agrees.value, agrees.notification, agrees.data, trivial, agrees.services,
          agrees.rssi, agrees.role not_false, trivial⟩
  | reportConnectionWithRole uptime opened address addressType role =>
      obtain ⟨rfl, rfl⟩ := opens
      simp only [Operation.reports, Operation.refreshes, reported, BleConnection.mk.injEq,
        Operation.ReportsLink]
      constructor
      · rintro ⟨handles, -, types, mtu, first, last, value, notification, data, -, services,
          rssi, -, -⟩
        exact ⟨⟨handles.symm, types.symm⟩, mtu, first, last, value, notification, data,
          services, rssi, fun plain => (plain trivial).elim⟩
      · rintro ⟨⟨rfl, rfl⟩, agrees⟩
        exact ⟨rfl, trivial, rfl, agrees.btMtu, agrees.startGroup, agrees.endGroup,
          agrees.value, agrees.notification, agrees.data, trivial, agrees.services,
          agrees.rssi, trivial, trivial⟩
  | _ => exact opens.elim

theorem agreesApart_self (operation : Operation) (connection : BleConnection) :
    operation.AgreesApart connection connection :=
  ⟨rfl, rfl, rfl, rfl, rfl, rfl, rfl, rfl, fun _ => rfl⟩

/-- The object behind a reported handle. -/
theorem connectionAt_of_opens (opens : operation.Opens handle addr)
    (step : OperationStep platform before operation after)
    (index : (before.connectionsIndex handle).1 = ref) :
    after.connectionAt ref = some (operation.reports (before.reportedObject handle addr)) := by
  have done := step.2
  cases operation with
  | reportConnection uptime opened address addressType =>
      obtain ⟨rfl, rfl⟩ := opens
      cases done
      rw [connectionAt_reportConnection, if_pos index.symm]
      rfl
  | reportConnectionWithRole uptime opened address addressType role =>
      obtain ⟨rfl, rfl⟩ := opens
      cases done
      rw [connectionAt_reportConnectionWithRole, if_pos index.symm]
      rfl
  | _ => exact opens.elim

/-- In every state in which a handle is connected with an address, and after every scanning
and discovery from then on, a further report of the two refreshes the connection and changes
nothing else of it exactly when it is of the same link and the address is no neighbour, which
it becomes with each advertisement, or when the neighbour agrees with the connection in all
that the report does not set. -/
theorem report_refreshes_iff {operations : List Operation} {start now : Tracker}
    (connected : ConnectedWith addr ref start)
    (between : Run (Guarded (fun _ operation => operation.ScansOrDiscovers)
      (OperationStep platform)) start operations now)
    (opens : operation.Opens ref.key addr)
    (step : OperationStep platform now operation after) :
    ∃ connection, now.connectionAt ref = some connection ∧
      (after.connectionAt ref = some (operation.refreshes connection) ↔
        operation.ReportsLink connection ∧
          ∀ neighbour, now.availableNeighbours.find? addr = some neighbour →
            operation.AgreesApart neighbour connection) ∧
      ((now.availableNeighbours.find? addr).isSome ↔
        (start.availableNeighbours.find? addr).isSome ∨
          ∃ operation ∈ operations, Advertises addr operation) := by
  obtain ⟨connection, there, state, address⟩ := between.invariant
    (fun connected step => ConnectedWith.step connected step.1 step.2) connected
  have index := connectionsIndex_of_connectionAt there
  refine ⟨connection, there, ?_, scanned_iff between⟩
  rw [connectionAt_of_opens opens step index, Option.some.injEq,
    reports_eq_refreshes opens state address]
  cases scanned : now.availableNeighbours.find? addr with
  | none => simp [reportedObject, scanned, index, there, agreesApart_self]
  | some neighbour => simp [reportedObject, scanned]

/-! ## A connection with discovery after its first report -/

/-- A handle that is reported as connected. -/
def connectedFirst : Operation :=
  .reportConnectionWithRole 1000000 0x40 [1, 2, 3, 4, 5, 6] 1 hciRoleMaster

/-- Its GATT discovery and its MTU event. -/
def discovery : List Operation :=
  [.updateConnection ⟨0x40, 0⟩ fun connection =>
      { connection with packetCharacteristicValueHandle := 12 },
    .updateConnection ⟨0x40, 0⟩ fun connection => { connection with btMtu := 185 }]

/-- The report of the same connection by another event. -/
def connectedAgain : Operation :=
  .reportConnection 2000000 0x40 [1, 2, 3, 4, 5, 6] 1

/-- Without an advertisement the second report refreshes the connection. -/
theorem report_refreshes_iff_discovered :
    ∃ start now after connection,
      OperationStep bytesSummed (new 100) connectedFirst start ∧
      Run (OperationStep bytesSummed) start discovery now ∧
      OperationStep bytesSummed now connectedAgain after ∧
      now.connectionAt ⟨0x40, 0⟩ = some connection ∧
      after.connectionAt ⟨0x40, 0⟩ = some (connectedAgain.refreshes connection) := by
  let next (tracker : Tracker) (operation : Operation) := operation.next bytesSummed tracker
  have outcome : ((next (new 100) connectedFirst).bind fun start =>
      (follow next discovery start).bind fun now => (next now connectedAgain).map fun _ =>
        ((start.connectionAt ⟨0x40, 0⟩).map fun connection =>
            (connection.connected, connection.btAddress),
          (now.connectionAt ⟨0x40, 0⟩).map fun connection =>
            (connection.connectionHandle, connection.btAddressType),
          now.availableNeighbours.find? [1, 2, 3, 4, 5, 6])) =
      some (some (true, [1, 2, 3, 4, 5, 6]), some (0x40, 1), none) := by decide
  obtain ⟨start, first, rest⟩ := Option.bind_eq_some_iff.mp outcome
  obtain ⟨now, followed, rest⟩ := Option.bind_eq_some_iff.mp rest
  obtain ⟨after, last, shows⟩ := Option.map_eq_some_iff.mp rest
  simp only [Prod.mk.injEq, Option.map_eq_some_iff] at shows
  obtain ⟨⟨linked, there, state, address⟩, ⟨connection, found, handles, types⟩, idle⟩ := shows
  have run := Run.of_follow step_of_next followed
  have discovers : ∀ operation ∈ discovery, operation.ScansOrDiscovers := by
    simp [discovery, Operation.ScansOrDiscovers, Discovers]
  have again := step_of_next last
  have opens : connectedAgain.Opens 0x40 [1, 2, 3, 4, 5, 6] := ⟨rfl, rfl⟩
  obtain ⟨same, still, refreshes, -⟩ := report_refreshes_iff
    ⟨linked, there, state, address⟩ (run.guard discovers) opens again
  cases found.symm.trans still
  refine ⟨start, now, after, connection, step_of_next first, run, again, found, ?_⟩
  exact refreshes.mpr ⟨⟨handles, types⟩, by simp [idle]⟩

/-- An advertisement of the address makes the second report reset the connection. -/
theorem advertised_resets :
    ¬ ∀ (start now after : Tracker) (ref : ConnectionRef) (addr : Bytes)
      (operations : List Operation) (operation : Operation) (connection : BleConnection),
      ConnectedWith addr ref start →
      Run (Guarded (fun _ operation => operation.ScansOrDiscovers)
        (OperationStep bytesSummed)) start operations now →
      operation.Opens ref.key addr →
      OperationStep bytesSummed now operation after →
      now.connectionAt ref = some connection →
      operation.ReportsLink connection →
      after.connectionAt ref = some (operation.refreshes connection) := by
  intro always
  let next (tracker : Tracker) (operation : Operation) := operation.next bytesSummed tracker
  let advertised := discovery ++
    [.addAvailablePeer 1500000 [1, 2, 3, 4, 5, 6] 1 .found (-60)]
  have outcome : ((next (new 100) connectedFirst).bind fun start =>
      (follow next advertised start).bind fun now => (next now connectedAgain).map fun after =>
        ((start.connectionAt ⟨0x40, 0⟩).map fun connection =>
            (connection.connected, connection.btAddress),
          (now.connectionAt ⟨0x40, 0⟩).map fun connection =>
            (connection.connectionHandle, connection.btAddressType, connection.btMtu),
          (after.connectionAt ⟨0x40, 0⟩).map BleConnection.btMtu)) =
      some (some (true, [1, 2, 3, 4, 5, 6]), some (0x40, 1, 185), some 0) := by decide
  obtain ⟨start, first, rest⟩ := Option.bind_eq_some_iff.mp outcome
  obtain ⟨now, followed, rest⟩ := Option.bind_eq_some_iff.mp rest
  obtain ⟨after, last, shows⟩ := Option.map_eq_some_iff.mp rest
  simp only [Prod.mk.injEq, Option.map_eq_some_iff] at shows
  obtain ⟨⟨linked, there, state, address⟩, ⟨connection, found, handles, types, learned⟩,
    reset, finds, lost⟩ := shows
  have between : ∀ operation ∈ advertised, operation.ScansOrDiscovers := by
    simp [advertised, discovery, Operation.ScansOrDiscovers, Discovers]
  have kept := always start now after _ _ advertised connectedAgain connection
    ⟨linked, there, state, address⟩ ((Run.of_follow step_of_next followed).guard between)
    ⟨rfl, rfl⟩ (step_of_next last) found ⟨handles, types⟩
  cases finds.symm.trans kept
  cases lost.symm.trans learned

end BleRepeater.Tracker
