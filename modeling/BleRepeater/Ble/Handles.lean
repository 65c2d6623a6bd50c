import BleRepeater.Ble.Connections

/-!
# Connection handles

A connection object stores the handle under which it stands in the map, but it is only set
when the object is found through that handle or reported as connected.  Once it is set it
stays, and a connected object has it set.
-/

namespace BleRepeater.Tracker

open Transition

/-! ## The object that an operation changes -/

theorem key_connectionsIndex (tracker : Tracker) (handle : UInt16) :
    (tracker.connectionsIndex handle).1.key = handle := by
  unfold connectionsIndex
  split <;> rfl

/-- The object that a handle leads to is the one that is there. -/
theorem connectionsIndex_of_connectionAt {tracker : Tracker} {ref : ConnectionRef}
    {connection : BleConnection} (found : tracker.connectionAt ref = some connection) :
    (tracker.connectionsIndex ref.key).1 = ref := by
  rw [connectionAt_eq_some_iff] at found
  rw [connectionsIndex_of_some found]

theorem connectionAt_assign (tracker : Tracker) (handle : UInt16)
    (change : BleConnection → BleConnection) (ref : ConnectionRef) :
    (tracker.assign handle change).connectionAt ref =
      if ref = (tracker.connectionsIndex handle).1 then
        some (change ((tracker.connectionAt ref).getD {}))
      else tracker.connectionAt ref := by
  unfold assign
  rw [connectionAt_updateConnection, connectionAt_connectionsIndex]
  split <;> rfl

/-- Changing an object does not move it. -/
theorem connectionsIndex_assign (tracker : Tracker) (handle : UInt16)
    (change : BleConnection → BleConnection) :
    ((tracker.assign handle change).connectionsIndex handle).1 =
      (tracker.connectionsIndex handle).1 := by
  have there : (tracker.assign handle change).connectionAt
      (tracker.connectionsIndex handle).1 = some (change
        ((tracker.connectionAt (tracker.connectionsIndex handle).1).getD {})) := by
    rw [connectionAt_assign, if_pos rfl]
  rw [connectionAt_eq_some_iff, key_connectionsIndex] at there
  rw [connectionsIndex_of_some there]
  exact ref_eq (key_connectionsIndex tracker handle).symm rfl

theorem connectionAt_forgetCopy (tracker : Tracker) (handle : UInt16) (ref : ConnectionRef) :
    (tracker.forgetCopy handle).connectionAt ref = tracker.connectionAt ref :=
  rfl

/-- The object that a connection is reported for: that of a neighbour that was scanned, or
the one that is there. -/
def reportedObject (tracker : Tracker) (handle : UInt16) (addr : Bytes) : BleConnection :=
  (tracker.availableNeighbours.find? addr).getD
    ((tracker.connectionAt (tracker.connectionsIndex handle).1).getD {})

/-- What `reportConnection` sets. -/
def reported (uptime : UInt64) (handle : UInt16) (addr : Bytes) (addressType : UInt8)
    (connection : BleConnection) : BleConnection :=
  { connection with
    connectionHandle := handle
    connected := true
    btAddress := addr
    btAddressType := addressType
    lastSeenTime := uptime }

theorem connectionAt_reportConnection (tracker : Tracker) (uptime : UInt64)
    (handle : UInt16) (addr : Bytes) (addressType : UInt8) (ref : ConnectionRef) :
    (tracker.reportConnection uptime handle addr addressType).connectionAt ref =
      if ref = (tracker.connectionsIndex handle).1 then
        some (reported uptime handle addr addressType (tracker.reportedObject handle addr))
      else tracker.connectionAt ref := by
  cases found : tracker.availableNeighbours.find? addr with
  | none =>
      have same : (tracker.reportConnection uptime handle addr addressType).connectionAt ref =
          (tracker.assign handle (reported uptime handle addr addressType)).connectionAt
            ref := by
        simp only [reportConnection, found]
        rfl
      rw [same, connectionAt_assign, reportedObject, found]
      split
      · rename_i here
        rw [here]
        rfl
      · rfl
  | some item =>
      have same : (tracker.reportConnection uptime handle addr addressType).connectionAt ref =
          ((tracker.assign handle fun _ => item).assign handle
            (reported uptime handle addr addressType)).connectionAt ref := by
        simp only [reportConnection, found]
        rfl
      rw [same, connectionAt_assign, connectionsIndex_assign, connectionAt_assign,
        reportedObject, found]
      split <;> rfl

theorem connectionsIndex_reportConnection (tracker : Tracker) (uptime : UInt64)
    (handle : UInt16) (addr : Bytes) (addressType : UInt8) :
    ((tracker.reportConnection uptime handle addr addressType).connectionsIndex handle).1 =
      (tracker.connectionsIndex handle).1 := by
  have there := connectionAt_reportConnection tracker uptime handle addr addressType
    (tracker.connectionsIndex handle).1
  rw [if_pos rfl, connectionAt_eq_some_iff, key_connectionsIndex] at there
  rw [connectionsIndex_of_some there]
  exact ref_eq (key_connectionsIndex tracker handle).symm rfl

theorem connectionAt_reportConnectionWithRole (tracker : Tracker) (uptime : UInt64)
    (handle : UInt16) (addr : Bytes) (addressType role : UInt8) (ref : ConnectionRef) :
    (tracker.reportConnectionWithRole uptime handle addr addressType role).connectionAt ref =
      if ref = (tracker.connectionsIndex handle).1 then
        some { reported uptime handle addr addressType
          (tracker.reportedObject handle addr) with role := role }
      else tracker.connectionAt ref := by
  have same : tracker.reportConnectionWithRole uptime handle addr addressType role =
      (tracker.reportConnection uptime handle addr addressType).assign handle
        fun connection => { connection with role := role } := rfl
  rw [same, connectionAt_assign, connectionsIndex_reportConnection,
    connectionAt_reportConnection]
  split <;> rfl

theorem connectionAt_reportDisconnection (tracker : Tracker) (handle : UInt16)
    (ref : ConnectionRef) :
    (tracker.reportDisconnection handle).connectionAt ref =
      if ref = (tracker.connectionsIndex handle).1 then
        some { (tracker.connectionAt ref).getD {} with
          notificationEnabled := false, connected := false }
      else tracker.connectionAt ref := by
  rw [reportDisconnection_eq, connectionAt_forgetCopy, connectionAt_assign]

/-! ## Handles stay -/

/-- A setter leaves the handle and the state of the connection alone, as all setters that
the main program calls do. -/
def Operation.KeepsHandles : Operation → Prop
  | .updateConnection _ change => ∀ connection,
      (change connection).connectionHandle = connection.connectionHandle ∧
        (change connection).connected = connection.connected
  | _ => True

/-- The operation also erases nothing. -/
structure Operation.Lasts (operation : Operation) : Prop where
  keepsHandles : operation.KeepsHandles
  noCleanup : ∀ uptime, operation ≠ .cleanupStaleItems uptime

variable {platform : Platform} {before after : Tracker} {operation : Operation}

/-- An object that carries the handle of its entry keeps it. -/
theorem handleAt_of_step (step : OperationStep platform before operation after)
    (lasts : operation.Lasts) {ref : ConnectionRef}
    (handled : before.handleAt ref = some ref.key) : after.handleAt ref = some ref.key := by
  obtain ⟨connection, found, same⟩ := Option.map_eq_some_iff.mp handled
  obtain ⟨other, there, alike⟩ :=
    (connects_of_step step lasts.noCleanup).kept ref connection found
  rw [handleAt, there, Option.map_some, Option.some.injEq]
  by_cases touched : operation.Touches ref.key
  · have done := step.2
    cases operation with
    | reportConnection uptime handle addr addressType =>
        cases done
        rw [connectionAt_reportConnection] at there
        split at there
        · cases there
          exact touched
        · cases there.symm.trans found
          exact same
    | reportConnectionWithRole uptime handle addr addressType role =>
        cases done
        rw [connectionAt_reportConnectionWithRole] at there
        split at there
        · cases there
          exact touched
        · cases there.symm.trans found
          exact same
    | reportDisconnection handle =>
        cases done
        rw [connectionAt_reportDisconnection, found] at there
        split at there <;> cases there <;> exact same
    | updateConnection changed change =>
        cases done
        rw [connectionAt_updateConnection, found] at there
        split at there
        · cases there
          exact (lasts.keepsHandles connection).1.trans same
        · cases there
          exact same
    | _ => exact touched.elim
  · have handles := congrArg BleConnection.connectionHandle (alike touched)
    exact handles.symm.trans same

/-- A connected object carries the handle of its entry, and the objects were created
before the next one. -/
structure HandlesKnown (tracker : Tracker) : Prop where
  connected : ∀ ref connection, tracker.connectionAt ref = some connection →
    connection.connected = true → connection.connectionHandle = ref.key
  created : ∀ ref, (tracker.connectionAt ref).isSome →
    ref.generation < tracker.nextGeneration

theorem handlesKnown_new (address : Address) : (new address).HandlesKnown where
  connected ref connection found := by cases found
  created ref there := by cases there

theorem connected_of_step (step : OperationStep platform before operation after)
    (lasts : operation.Lasts) (known : before.HandlesKnown) {ref : ConnectionRef}
    {connection : BleConnection} (found : after.connectionAt ref = some connection)
    (connected : connection.connected = true) : connection.connectionHandle = ref.key := by
  have connects := connects_of_step step lasts.noCleanup
  by_cases touched : operation.Touches ref.key
  · have done := step.2
    cases operation with
    | reportConnection uptime handle addr addressType =>
        cases done
        rw [connectionAt_reportConnection] at found
        split at found
        · cases found
          exact touched
        · exact known.connected ref connection found connected
    | reportConnectionWithRole uptime handle addr addressType role =>
        cases done
        rw [connectionAt_reportConnectionWithRole] at found
        split at found
        · cases found
          exact touched
        · exact known.connected ref connection found connected
    | reportDisconnection handle =>
        cases done
        rw [connectionAt_reportDisconnection] at found
        split at found
        · cases found
          cases connected
        · exact known.connected ref connection found connected
    | updateConnection changed change =>
        cases done
        rw [connectionAt_updateConnection] at found
        split at found
        · obtain ⟨old, there, same⟩ := Option.map_eq_some_iff.mp found
          subst same
          obtain ⟨handles, states⟩ := lasts.keepsHandles old
          rw [states] at connected
          exact handles.trans (known.connected ref old there connected)
        · exact known.connected ref connection found connected
    | _ => exact touched.elim
  · cases there : before.connectionAt ref with
    | none =>
        have idle := (connects.fresh ref connection found there).2.2 touched
        cases idle.symm.trans connected
    | some old =>
        obtain ⟨other, still, alike⟩ := connects.kept ref old there
        cases found.symm.trans still
        have state := congrArg BleConnection.connected (alike touched)
        have handles := congrArg BleConnection.connectionHandle (alike touched)
        exact handles.symm.trans (known.connected ref old there (state.trans connected))

/-- Every object was created before the next one. -/
def Created (tracker : Tracker) : Prop :=
  ∀ ref, (tracker.connectionAt ref).isSome → ref.generation < tracker.nextGeneration

theorem created_new (address : Address) : (new address).Created :=
  fun _ there => by cases there

theorem nextGeneration_cleanupStaleItems {uptime : UInt64}
    (done : before.cleanupStaleItems uptime = some after) :
    after.nextGeneration = before.nextGeneration := by
  obtain ⟨_, _, _, _, rfl⟩ := cleanupStaleItems_eq done
  rfl

theorem Created.step (created : before.Created)
    (step : OperationStep platform before operation after) : after.Created := by
  intro ref there
  obtain ⟨connection, found⟩ := Option.isSome_iff_exists.mp there
  by_cases cleanup : ∃ uptime, operation = .cleanupStaleItems uptime
  · obtain ⟨uptime, rfl⟩ := cleanup
    rw [nextGeneration_cleanupStaleItems step.2]
    apply created ref
    rw [((connectionAt_cleanupStaleItems step.2).mp found).1]
    rfl
  · have connects := connects_of_step step fun uptime same => cleanup ⟨uptime, same⟩
    cases old : before.connectionAt ref with
    | none => exact (connects.fresh ref connection found old).2.1
    | some connection => exact Nat.lt_of_lt_of_le (created ref (by simp [old])) connects.generation

theorem HandlesKnown.step (known : before.HandlesKnown)
    (step : OperationStep platform before operation after) (lasts : operation.Lasts) :
    after.HandlesKnown where
  connected _ _ found connected := connected_of_step step lasts known found connected
  created := Created.step known.created step

theorem HandlesKnown.cleanup {uptime : UInt64} (known : before.HandlesKnown)
    (step : OperationStep platform before (.cleanupStaleItems uptime) after) :
    after.HandlesKnown where
  connected ref connection found :=
    known.connected ref connection ((connectionAt_cleanupStaleItems step.2).mp found).1
  created := Created.step known.created step

/-- Every operation whose setter leaves handles alone keeps the handles known. -/
theorem HandlesKnown.keeps (known : before.HandlesKnown)
    (step : OperationStep platform before operation after)
    (keeps : operation.KeepsHandles) : after.HandlesKnown := by
  by_cases cleanup : ∃ uptime, operation = .cleanupStaleItems uptime
  · obtain ⟨uptime, rfl⟩ := cleanup
    exact known.cleanup step
  · exact known.step step ⟨keeps, fun uptime same => cleanup ⟨uptime, same⟩⟩

end BleRepeater.Tracker
