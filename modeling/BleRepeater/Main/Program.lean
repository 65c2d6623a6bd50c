import BleRepeater.Ble.Links
import BleRepeater.Main.Acquaintance
import BleRepeater.Main.AdvertisingData
import BleRepeater.Main.AnnounceOnce
import BleRepeater.Main.Arrival
import BleRepeater.Main.ConnectGate
import BleRepeater.Main.OpenLinks
import BleRepeater.Network.Integrity

/-!
# The program

The callbacks that `main.cpp` registers with BTstack, and the parts of its main loop, in
whatever order they come.  Every one of them is a sequence of events of the repeater, of
copies of connections, and of connects that were started; what these keep, every run of the
program keeps.
-/

namespace BleRepeater

open Transition Tracker Repeater

/-! ## Discovery -/

/-- `packet_service_uuid`. -/
def packetServiceUuid : Bytes :=
  [0x29, 0x8c, 0xfe, 0xca, 0xa1, 0x0d, 0x49, 0xee, 0x8a, 0x74, 0xe5, 0x13, 0x54, 0x7f, 0x7e, 0xf7]

/-- `packet_characteristic_uuid`. -/
def packetCharacteristicUuid : Bytes :=
  [0xa8, 0xd9, 0x91, 0x67, 0xe5, 0x8c, 0x4a, 0x0c, 0x95, 0x65, 0xe2, 0xf1, 0xa7, 0xfb, 0xc0, 0x5d]

/-- `gatt_client_service_t`. -/
structure GattClientService where
  startGroupHandle : UInt16
  endGroupHandle : UInt16
  uuid16 : UInt16
  uuid128 : Vector UInt8 16

/-- What is read of a `gatt_client_characteristic_t`. -/
structure GattClientCharacteristic where
  valueHandle : UInt16
  uuid16 : UInt16
  uuid128 : Vector UInt8 16

namespace BleConnection

/-- `BleConnection::setMtu`. -/
def setMtu (mtu : UInt16) (connection : BleConnection) : BleConnection :=
  { connection with btMtu := mtu }

/-- `BleConnection::storeHandlesIfServiceMatches`. -/
def storeHandlesIfServiceMatches (service : GattClientService) (connection : BleConnection) :
    BleConnection :=
  if service.uuid128.toList = packetServiceUuid then
    { connection with
      packetServiceStartGroupHandle := service.startGroupHandle
      packetServiceEndGroupHandle := service.endGroupHandle }
  else connection

/-- `BleConnection::storeHandlesIfCharacteristicMatches`. -/
def storeHandlesIfCharacteristicMatches (characteristic : GattClientCharacteristic)
    (connection : BleConnection) : BleConnection :=
  if characteristic.uuid128.toList = packetCharacteristicUuid then
    { connection with packetCharacteristicValueHandle := characteristic.valueHandle }
  else connection

end BleConnection

/-! ## Callbacks -/

/-- The events of `handle_gatt_client_event`; the fields of a completed query are those of
`MainProgram.gattQueryComplete`. -/
inductive GattClientEvent where
  | mtu (conHandle mtu : UInt16)
  | serviceQueryResult (conHandle : UInt16) (service : GattClientService)
  | characteristicQueryResult (conHandle : UInt16) (characteristic : GattClientCharacteristic)
  | queryComplete (conHandle : UInt16) (query : Discovery) (err : UInt8)
  | other

/-- The events of `hci_packet_handler`; those whose case only logs are one. -/
inductive HciEvent where
  | btstackEventState (working : Bool)
  | disconnectionComplete (handle : UInt16)
  | rssiMeasurement (handle : UInt16) (rssi : Int8)
  | leConnectionComplete (handle : UInt16) (address : Bytes) (addressType role : UInt8)
  | advertisingReport (address : Bytes) (addressType : UInt8) (rssi : Int8)
      (data : MainProgram.Memory) (length : UInt8)
  | gapLeConnectionComplete (conHandle : UInt16) (address : Bytes) (addressType role : UInt8)
      (own : Bool) (err : UInt8)
  | other

/-- The events of `att_packet_handler`. -/
inductive AttEvent where
  | connected (handle : UInt16) (address : Bytes) (addressType : UInt8)
  | disconnected (handle : UInt16)
  | other

def hciEventPacket : UInt8 := 0x04

/-- The main program with the advertising data. -/
structure Program where
  main : MainProgram
  advData : AdvData := {}

namespace Program

/-- The program as started. -/
def new (announceAddress : Address) : Program :=
  { main := MainProgram.new announceAddress }

/-- The repeater of the program. -/
def repeater (program : Program) : Repeater := program.main.repeater

/-- The tracker of the program. -/
def tracker (program : Program) : Tracker := program.main.repeater.tracker

def setRepeater (program : Program) (repeater : Repeater) : Program :=
  { program with main := { program.main with repeater } }

def setTracker (program : Program) (tracker : Tracker) : Program :=
  program.setRepeater { program.repeater with tracker }

@[simp] theorem repeater_setRepeater (program : Program) (repeater : Repeater) :
    (program.setRepeater repeater).repeater = repeater := rfl

@[simp] theorem repeater_setTracker (program : Program) (tracker : Tracker) :
    (program.setTracker tracker).repeater = { program.repeater with tracker } := rfl

/-- Look up the connection of a handle, and change it. -/
def changeConnection (program : Program) (conHandle : UInt16)
    (change : BleConnection → BleConnection) : Program :=
  let (connection, tracker) := program.tracker.connectionForConnHandle conHandle
  program.setTracker (tracker.updateConnection connection change)

/-- `handle_gatt_client_event`. -/
def handleGattClientEvent (program : Program) : GattClientEvent → Option Program
  | .mtu conHandle mtu => some (program.changeConnection conHandle (.setMtu mtu))
  | .serviceQueryResult conHandle service =>
      some (program.changeConnection conHandle fun connection =>
        if service.uuid16 = 0 then connection.storeHandlesIfServiceMatches service
        else connection)
  | .characteristicQueryResult conHandle characteristic =>
      some (program.changeConnection conHandle fun connection =>
        if characteristic.uuid16 = 0 then
          connection.storeHandlesIfCharacteristicMatches characteristic
        else connection)
  | .queryComplete conHandle query err => do
      let main ← program.main.gattQueryComplete conHandle query err
      return { program with main }
  | .other => some program

/-- `hci_packet_handler`; `iterate` is the iterator of BTstack over an advertisement. -/
def hciPacketHandler (iterate : MainProgram.AdIterator) (program : Program)
    (packetType : UInt8) (uptime : UInt64) (event : HciEvent) : Option Program :=
  if packetType ≠ hciEventPacket then some program
  else match event with
  | .btstackEventState working =>
      if working then do
        let advData ← program.advData.populateAdvertisingData
        return { program with advData, main := { program.main with scanning := true } }
      else some program
  | .disconnectionComplete handle =>
      some (program.setTracker (program.tracker.reportDisconnection handle))
  | .rssiMeasurement handle _ =>
      -- the RSSI goes to a copy
      some (program.setTracker (program.tracker.connectionForConnHandle handle).2)
  | .leConnectionComplete handle address addressType role =>
      some (program.setTracker
        (program.tracker.reportConnectionWithRole uptime handle address addressType role))
  | .advertisingReport address addressType rssi data length =>
      let services := MainProgram.checkForUuid iterate data length
      if services = .notFound then some program
      else some (program.setTracker
        (program.tracker.addAvailablePeer uptime address addressType services rssi))
  | .gapLeConnectionComplete conHandle address addressType role own err =>
      some { program with
        main := program.main.gapLeConnectionComplete uptime conHandle address addressType role
          own err }
  | .other => some program

/-- `att_packet_handler`. -/
def attPacketHandler (program : Program) (packetType : UInt8) (uptime : UInt64)
    (event : AttEvent) : Program :=
  if packetType ≠ hciEventPacket then program
  else match event with
  | .connected handle address addressType =>
      program.setTracker (program.tracker.reportConnection uptime handle address addressType)
  | .disconnected handle => program.setTracker (program.tracker.reportDisconnection handle)
  | .other => program

end Program

/-- The callbacks, and the parts of the main loop. -/
inductive ProgramEvent where
  | attWriteCallback (uptime : UInt64) (address : Address)
      (connectionHandle attHandle transactionMode offset : UInt16) (buffer : Buffer)
  | handleGattClientEvent (event : GattClientEvent)
  | handleGattClientValueUpdateEvent (uptime : UInt64) (address : Address)
      (update : ValueUpdate)
  | hciPacketHandler (packetType : UInt8) (uptime : UInt64) (event : HciEvent)
  | attPacketHandler (packetType : UInt8) (uptime : UInt64) (event : AttEvent)
  | stopScanHandler
  | packetCanSendNotificationHandler (context : UInt64) (ret : UInt8)
  | packetCanWriteWithoutResponseHandler (context : UInt64) (ret : UInt8)
  | gpioCallback (gpio : UInt32) (fell : Bool)
  | handlePinActivity (uptime : UInt64) (address : Address)
  | announceToConnections (uptime : UInt64)
  | mainLoopGate (loopStart : UInt32) (err : UInt8)
  | sendPackets
  | startScanningForLocalNodes
  | cleanupStaleItems (uptime : UInt64)

/-- What the program is compiled and linked with. -/
structure Surroundings where
  platform : Platform
  database : AttDatabase
  iterate : MainProgram.AdIterator

namespace ProgramEvent

/-- An event of the repeater that a part of the program consists of. -/
def applyEvent (platform : Platform) (program : Program) (event : Event) : Option Program := do
  let repeater ← event.apply platform program.repeater
  return program.setRepeater repeater

/-- What an event makes of the program, unless it follows a pointer to nothing or writes
outside of an array. -/
def apply (surroundings : Surroundings) (program : Program) : ProgramEvent → Option Program
  | .attWriteCallback uptime address connectionHandle attHandle transactionMode offset
      buffer => do
      let repeater ← BleRepeater.attWriteCallback surroundings.platform surroundings.database
        program.repeater uptime address connectionHandle attHandle transactionMode offset buffer
      return program.setRepeater repeater
  | .handleGattClientEvent event => program.handleGattClientEvent event
  | .handleGattClientValueUpdateEvent uptime address update => do
      let repeater ← BleRepeater.handleGattClientValueUpdateEvent surroundings.platform
        program.repeater uptime address update
      return program.setRepeater repeater
  | .hciPacketHandler packetType uptime event =>
      program.hciPacketHandler surroundings.iterate packetType uptime event
  | .attPacketHandler packetType uptime event =>
      some (program.attPacketHandler packetType uptime event)
  | .stopScanHandler => some { program with main := { program.main with scanning := false } }
  | .packetCanSendNotificationHandler context ret =>
      -- the parameter has 16 bits
      applyEvent surroundings.platform program (.tracker (.notifyRawPacket context.toUInt16 ret))
  | .packetCanWriteWithoutResponseHandler context ret =>
      applyEvent surroundings.platform program (.tracker (.writeRawPacket context.toUInt16 ret))
  | .gpioCallback gpio fell =>
      applyEvent surroundings.platform program (.gpioCallback gpio fell)
  | .handlePinActivity uptime address =>
      applyEvent surroundings.platform program (.handlePinActivity uptime address)
  | .announceToConnections uptime =>
      applyEvent surroundings.platform program (.tracker (.announceToConnections uptime))
  | .mainLoopGate loopStart err =>
      some { program with main := program.main.mainLoopGate loopStart err }
  | .sendPackets => applyEvent surroundings.platform program (.tracker .sendPackets)
  | .startScanningForLocalNodes =>
      some { program with main := { program.main with scanning := true } }
  | .cleanupStaleItems uptime =>
      applyEvent surroundings.platform program (.tracker (.cleanupStaleItems uptime))

/-- New objects come to lie where nothing is. -/
def Allowed (program : Program) : ProgramEvent → Prop
  | .attWriteCallback _ address .. | .handleGattClientValueUpdateEvent _ address _
  | .handlePinActivity _ address => program.tracker.packetAt address = none
  | _ => True

end ProgramEvent

/-- One event. -/
def ProgramStep (surroundings : Surroundings) (before : Program) (event : ProgramEvent)
    (after : Program) : Prop :=
  event.Allowed before ∧ event.apply surroundings before = some after

instance (event : ProgramEvent) (program : Program) : Decidable (event.Allowed program) := by
  cases event <;> unfold ProgramEvent.Allowed <;> infer_instance

/-- What an allowed event makes of the program. -/
def ProgramEvent.next (surroundings : Surroundings) (program : Program)
    (event : ProgramEvent) : Option Program :=
  if event.Allowed program then event.apply surroundings program else none

theorem programStep_of_next {surroundings : Surroundings} {before after : Program}
    {event : ProgramEvent} (done : event.next surroundings before = some after) :
    ProgramStep surroundings before event after := by
  rw [ProgramEvent.next, Option.ite_none_right_eq_some] at done
  exact done

/-! ## What the program consists of -/

/-- An event that neither sends nor cleans up, and leaves the pins alone. -/
def Repeater.Event.Calm : Event → Prop
  | .processWrite .. => True
  | .tracker operation =>
      operation ≠ .sendPackets ∧ ∀ uptime, operation ≠ .cleanupStaleItems uptime
  | .gpioCallback .. | .handlePinActivity .. => False

/-- The event of the repeater that an event of the program is, if that is not calm. -/
def ProgramEvent.part : ProgramEvent → Option Event
  | .gpioCallback gpio fell => some (.gpioCallback gpio fell)
  | .handlePinActivity uptime address => some (.handlePinActivity uptime address)
  | .sendPackets => some (.tracker .sendPackets)
  | .cleanupStaleItems uptime => some (.tracker (.cleanupStaleItems uptime))
  | _ => none

/-- What an event of the program may consist of. -/
def ProgramEvent.Permits (event : ProgramEvent) (basic : Event) : Prop :=
  basic.Calm ∨ event.part = some basic

/-- What the program consists of: events of the repeater whose setters leave handles alone,
copies of connections, and connects that were started. -/
inductive BasicStep (platform : Platform) (permits : Event → Prop) :
    Repeater → Repeater → Prop where
  | event {before after : Repeater} {event : Event} : permits event → event.KeepsHandles →
      EventStep platform before event after → BasicStep platform permits before after
  | copy (before : Repeater) (handle : UInt16) : BasicStep platform permits before
      { before with tracker := (before.tracker.outsideRef handle).2 }
  | connectionStarted (before : Repeater) (neighbour : BleConnection) :
      BasicStep platform permits before
        { before with tracker := before.tracker.setConnectionStarted neighbour }

/-- Basic steps, one after the other. -/
abbrev BasicSteps (platform : Platform) (permits : Event → Prop) :
    Repeater → Repeater → Prop :=
  Relation.ReflTransGen (BasicStep platform permits)

theorem BasicSteps.mono {platform : Platform} {permits allows : Event → Prop}
    {before after : Repeater} (steps : BasicSteps platform permits before after)
    (weaker : ∀ event, permits event → allows event) :
    BasicSteps platform allows before after := by
  refine Relation.ReflTransGen.mono (fun start finish step => ?_) _ _ steps
  cases step with
  | event permitted keeps happens => exact .event (weaker _ permitted) keeps happens
  | copy handle => exact .copy start handle
  | connectionStarted neighbour => exact .connectionStarted start neighbour

section Basics

variable {platform : Platform} {before after : Repeater}

/-- An operation that the main program calls. -/
theorem BasicStep.operation {operation : Operation} {tracker : Tracker}
    (calm : (Event.tracker operation).Calm) (main : direct operation = true)
    (keeps : operation.KeepsHandles)
    (done : operation.apply platform before.tracker = some tracker) :
    BasicStep platform Event.Calm before { before with tracker } := by
  have happens : EventStep platform before (.tracker operation) { before with tracker } := by
    refine ⟨main, ?_⟩
    rw [Event.apply, done]
    rfl
  have same : (Event.tracker operation).KeepsHandles := keeps
  exact .event calm same happens

/-- Looking up the connection of a handle. -/
theorem basicStep_connectionForConnHandle (repeater : Repeater) (handle : UInt16) :
    BasicStep platform Event.Calm repeater
      { repeater with tracker := (repeater.tracker.connectionForConnHandle handle).2 } :=
  @BasicStep.operation _ _ (.connectionForConnHandle handle) _ ⟨nofun, nofun⟩ rfl trivial rfl

theorem basicSteps_changeConnection (repeater : Repeater) (handle : UInt16)
    {change : BleConnection → BleConnection}
    (keeps : ∀ connection, (change connection).connectionHandle = connection.connectionHandle ∧
      (change connection).connected = connection.connected) :
    BasicSteps platform Event.Calm repeater { repeater with
      tracker := (repeater.tracker.connectionForConnHandle handle).2.updateConnection
        (repeater.tracker.connectionForConnHandle handle).1 change } := by
  refine .head (basicStep_connectionForConnHandle repeater handle) (.single ?_)
  exact @BasicStep.operation _ _ (.updateConnection _ change) _ ⟨nofun, nofun⟩ rfl keeps rfl

/-- Receiving a packet. -/
theorem BasicStep.processWrite {uptime : UInt64} {address : Address}
    {connection : ConnectionRef} {conHandle offset : UInt16} {buffer : Buffer}
    {tracker : Tracker} (free : before.tracker.packetAt address = none)
    (processed : ProtocolProcessor.processWrite platform before.tracker uptime address connection
      conHandle offset buffer = some tracker) :
    BasicStep platform Event.Calm before { before with tracker } := by
  have happens : EventStep platform before
      (.processWrite uptime address connection conHandle offset buffer)
      { before with tracker } := by
    refine ⟨free, ?_⟩
    rw [Event.apply, processed]
    rfl
  have keeps : (Event.processWrite uptime address connection conHandle offset
      buffer).KeepsHandles := trivial
  have calm : (Event.processWrite uptime address connection conHandle offset
      buffer).Calm := trivial
  exact .event calm keeps happens

theorem basicSteps_attWriteCallback {database : AttDatabase} {uptime : UInt64}
    {address : Address} {connectionHandle attHandle transactionMode offset : UInt16}
    {buffer : Buffer} (free : before.tracker.packetAt address = none)
    (done : attWriteCallback platform database before uptime address connectionHandle attHandle
      transactionMode offset buffer = some after) :
    BasicSteps platform Event.Calm before after := by
  simp only [attWriteCallback] at done
  split at done
  · cases done
    exact .refl
  · split at done
    · cases done
      exact basicSteps_changeConnection before connectionHandle fun _ => ⟨rfl, rfl⟩
    · split at done
      · simp only [Option.bind_eq_bind, Option.bind_eq_some_iff] at done
        obtain ⟨connection, _, tracker, processed, same⟩ := done
        cases same
        rw [← packetAt_connectionForConnHandle _ connectionHandle] at free
        exact .head (basicStep_connectionForConnHandle before connectionHandle)
          (.single (.processWrite free processed))
      · cases done
        exact .single (basicStep_connectionForConnHandle before connectionHandle)

theorem basicSteps_valueUpdate {uptime : UInt64} {address : Address} {update : ValueUpdate}
    (free : before.tracker.packetAt address = none)
    (done : handleGattClientValueUpdateEvent platform before uptime address update =
      some after) : BasicSteps platform Event.Calm before after := by
  cases update with
  | indication handle value =>
      cases done
      exact .refl
  | notification handle value =>
      simp only [handleGattClientValueUpdateEvent, Option.bind_eq_bind,
        Option.bind_eq_some_iff] at done
      obtain ⟨object, _, tracker, processed, same⟩ := done
      cases same
      rw [← packetAt_connectionForConnHandle _ handle] at free
      exact .head (basicStep_connectionForConnHandle before handle)
        (.head (.copy _ handle) (.single (.processWrite free processed)))

end Basics

namespace Program

variable {surroundings : Surroundings} {before after : Program} {event : ProgramEvent}

theorem basicSteps_handleGattClientEvent {platform : Platform} {event : GattClientEvent}
    (done : before.handleGattClientEvent event = some after) :
    BasicSteps platform Event.Calm before.repeater after.repeater := by
  cases event with
  | mtu conHandle mtu =>
      cases done
      exact basicSteps_changeConnection before.repeater conHandle fun _ => ⟨rfl, rfl⟩
  | serviceQueryResult conHandle service =>
      cases done
      refine basicSteps_changeConnection before.repeater conHandle fun connection => ?_
      unfold BleConnection.storeHandlesIfServiceMatches
      split
      · split <;> exact ⟨rfl, rfl⟩
      · exact ⟨rfl, rfl⟩
  | characteristicQueryResult conHandle characteristic =>
      cases done
      refine basicSteps_changeConnection before.repeater conHandle fun connection => ?_
      unfold BleConnection.storeHandlesIfCharacteristicMatches
      split
      · split <;> exact ⟨rfl, rfl⟩
      · exact ⟨rfl, rfl⟩
  | queryComplete conHandle query err =>
      obtain ⟨main, completed, same⟩ := Option.bind_eq_some_iff.mp done
      cases same
      simp only [MainProgram.gattQueryComplete, Option.bind_eq_bind,
        Option.bind_eq_some_iff] at completed
      obtain ⟨connection, _, completed⟩ := completed
      have looked := @basicStep_connectionForConnHandle platform before.repeater conHandle
      split at completed
      · cases completed
        exact .single looked
      · cases completed
        exact .single looked
  | other =>
      cases done
      exact .refl

theorem basicSteps_hciPacketHandler {platform : Platform} {packetType : UInt8}
    {uptime : UInt64} {event : HciEvent}
    (done : before.hciPacketHandler surroundings.iterate packetType uptime event =
      some after) : BasicSteps platform Event.Calm before.repeater after.repeater := by
  simp only [hciPacketHandler] at done
  split at done
  · cases done
    exact .refl
  · cases event with
    | btstackEventState working =>
        dsimp only at done
        split at done
        · obtain ⟨advData, _, same⟩ := Option.bind_eq_some_iff.mp done
          cases same
          exact .refl
        · cases done
          exact .refl
    | disconnectionComplete handle =>
        cases done
        exact .single (@BasicStep.operation _ _ (.reportDisconnection handle) _
          ⟨nofun, nofun⟩ rfl trivial rfl)
    | rssiMeasurement handle rssi =>
        cases done
        exact .single (basicStep_connectionForConnHandle before.repeater handle)
    | leConnectionComplete handle address addressType role =>
        cases done
        exact .single (@BasicStep.operation _ _
          (.reportConnectionWithRole uptime handle address addressType role) _
            ⟨nofun, nofun⟩ rfl trivial rfl)
    | advertisingReport address addressType rssi data length =>
        dsimp only at done
        split at done
        · cases done
          exact .refl
        · cases done
          exact .single (@BasicStep.operation _ _
            (.addAvailablePeer uptime address addressType _ rssi) _ ⟨nofun, nofun⟩ rfl
              trivial rfl)
    | gapLeConnectionComplete conHandle address addressType role own err =>
        cases done
        exact .single (@BasicStep.operation _ _
          (.reportConnectionWithRole uptime conHandle address addressType role) _ ⟨nofun, nofun⟩
            rfl trivial rfl)
    | other =>
        cases done
        exact .refl

theorem basicSteps_attPacketHandler {platform : Platform} (packetType : UInt8)
    (uptime : UInt64) (event : AttEvent) :
    BasicSteps platform Event.Calm before.repeater
      (before.attPacketHandler packetType uptime event).repeater := by
  unfold attPacketHandler
  split
  · exact .refl
  · cases event with
    | connected handle address addressType =>
        exact .single (@BasicStep.operation _ _
          (.reportConnection uptime handle address addressType) _ ⟨nofun, nofun⟩ rfl trivial
            rfl)
    | disconnected handle =>
        exact .single (@BasicStep.operation _ _ (.reportDisconnection handle) _
          ⟨nofun, nofun⟩ rfl trivial rfl)
    | other => exact .refl

theorem basicSteps_mainLoopGate {platform : Platform} (main : MainProgram)
    (loopStart : UInt32) (err : UInt8) :
    BasicSteps platform Event.Calm main.repeater (main.mainLoopGate loopStart err).repeater := by
  unfold MainProgram.mainLoopGate MainProgram.connectToFirstNeighbour
  split
  · split
    · exact .refl
    · split
      · exact .refl
      · split
        · exact .single (.connectionStarted main.repeater _)
        · exact .refl
  · exact .refl

theorem basicSteps_applyEvent {platform : Platform} {permits : Event → Prop} {event : Event}
    (done : ProgramEvent.applyEvent platform before event = some after)
    (permitted : permits event) (keeps : event.KeepsHandles)
    (allowed : event.Allowed before.repeater) :
    BasicSteps platform permits before.repeater after.repeater := by
  obtain ⟨repeater, applied, same⟩ := Option.bind_eq_some_iff.mp done
  cases same
  exact .single (.event permitted keeps ⟨allowed, applied⟩)

/-- An event of the program is a sequence of basic steps. -/
theorem basicSteps_of_step (step : ProgramStep surroundings before event after) :
    BasicSteps surroundings.platform event.Permits before.repeater after.repeater := by
  obtain ⟨allowed, done⟩ := step
  have calm : BasicSteps surroundings.platform Event.Calm before.repeater after.repeater →
      BasicSteps surroundings.platform event.Permits before.repeater after.repeater :=
    fun steps => steps.mono fun _ => Or.inl
  cases event with
  | attWriteCallback =>
      obtain ⟨repeater, written, same⟩ := Option.bind_eq_some_iff.mp done
      cases same
      exact calm (basicSteps_attWriteCallback allowed written)
  | handleGattClientEvent event => exact calm (basicSteps_handleGattClientEvent done)
  | handleGattClientValueUpdateEvent uptime address update =>
      obtain ⟨repeater, updated, same⟩ := Option.bind_eq_some_iff.mp done
      cases same
      exact calm (basicSteps_valueUpdate allowed updated)
  | hciPacketHandler packetType uptime event => exact calm (basicSteps_hciPacketHandler done)
  | attPacketHandler packetType uptime event =>
      cases done
      exact calm (basicSteps_attPacketHandler packetType uptime event)
  | mainLoopGate loopStart err =>
      cases done
      exact calm (basicSteps_mainLoopGate before.main loopStart err)
  | stopScanHandler | startScanningForLocalNodes =>
      cases done
      exact .refl
  | gpioCallback gpio fell => exact basicSteps_applyEvent done (Or.inr rfl) trivial trivial
  | handlePinActivity uptime address =>
      exact basicSteps_applyEvent done (Or.inr rfl) trivial allowed
  | sendPackets | cleanupStaleItems => exact basicSteps_applyEvent done (Or.inr rfl) trivial rfl
  | packetCanSendNotificationHandler | packetCanWriteWithoutResponseHandler
  | announceToConnections =>
      exact basicSteps_applyEvent done (Or.inl ⟨nofun, nofun⟩) trivial rfl

theorem calm_of_step (step : ProgramStep surroundings before event after)
    (calm : event.part = none) :
    BasicSteps surroundings.platform Event.Calm before.repeater after.repeater := by
  refine (basicSteps_of_step step).mono ?_
  rintro basic (quiet | same)
  · exact quiet
  · cases calm.symm.trans same

theorem eventStep_of_part {basic : Event} (step : ProgramStep surroundings before event after)
    (part : event.part = some basic) :
    EventStep surroundings.platform before.repeater basic after.repeater := by
  obtain ⟨allowed, done⟩ := step
  have applied : ∀ {happens : Event}, happens.Allowed before.repeater →
      ProgramEvent.applyEvent surroundings.platform before happens = some after →
      EventStep surroundings.platform before.repeater happens after.repeater := by
    intro happens fits done
    obtain ⟨repeater, applied, same⟩ := Option.bind_eq_some_iff.mp done
    cases same
    exact ⟨fits, applied⟩
  cases event with
  | gpioCallback gpio fell =>
      cases part
      exact applied trivial done
  | handlePinActivity uptime address =>
      cases part
      exact applied allowed done
  | sendPackets | cleanupStaleItems =>
      cases part
      exact applied rfl done
  | _ => cases part

end Program

/-! ## What every run keeps -/

/-- The invariants of the tracker: the maps are in order, the own announce is apart and waits
as it should, handles are known, and neighbours were only scanned. -/
structure WellKept (platform : Platform) (tracker : Tracker) : Prop where
  keyed : Keyed platform tracker
  apart : OwnApart platform tracker
  announcing : tracker.Announcing
  scanned : tracker.NeighboursScanned

theorem wellKept_new (platform : Platform) (address : Address) :
    WellKept platform (Tracker.new address) :=
  ⟨keyed_new platform address, ownApart_new platform address, announcing_new address,
    neighboursScanned_new address⟩

/-- A copy is no connection, but has a generation of its own. -/
theorem WellKept.copy {platform : Platform} {tracker : Tracker}
    (kept : WellKept platform tracker) (handle : UInt16) :
    WellKept platform (tracker.outsideRef handle).2 := by
  obtain ⟨keyed, apart, announcing, scanned⟩ := kept
  have known : (tracker.outsideRef handle).2.HandlesKnown :=
    ⟨announcing.known.connected,
      fun ref there => Nat.lt_succ_of_lt (announcing.known.created ref there)⟩
  have copies : Relists tracker (tracker.outsideRef handle).2 nothing nothing := .of_shelf rfl
  exact ⟨⟨keyed.messages, keyed.packets, keyed.neighbours, keyed.peers, keyed.handles,
      keyed.sentToPeers⟩,
    ⟨copies.separate apart.separate, apart.kept, apart.targeted, apart.broadcast⟩,
    ⟨known, announcing.recorded, announcing.waiting, announcing.broadcast⟩, scanned⟩

theorem WellKept.connectionStarted {platform : Platform} {tracker : Tracker}
    (kept : WellKept platform tracker) (neighbour : BleConnection) :
    WellKept platform (tracker.setConnectionStarted neighbour) := by
  have erased : (tracker.setConnectionStarted neighbour).availableNeighbours =
      tracker.availableNeighbours.erase neighbour.btAddress := rfl
  obtain ⟨keyed, apart, announcing, scanned⟩ := kept
  have starts : Relists tracker (tracker.setConnectionStarted neighbour) nothing nothing :=
    .of_shelf rfl
  have left : ∀ entry ∈ (tracker.setConnectionStarted neighbour).availableNeighbours.entries,
      entry.2.btAddress = entry.1 := by
    intro entry member
    exact keyed.neighbours entry (List.mem_of_mem_filter member)
  exact ⟨⟨keyed.messages, keyed.packets, left, keyed.peers, keyed.handles, keyed.sentToPeers⟩,
    ⟨starts.separate apart.separate, apart.kept, apart.targeted, apart.broadcast⟩,
    ⟨⟨announcing.known.connected, announcing.known.created⟩, announcing.recorded,
      announcing.waiting, announcing.broadcast⟩,
    scanned.of_erased _ erased⟩

theorem WellKept.event {platform : Platform} {before after : Repeater} {event : Event}
    (kept : WellKept platform before.tracker) (keeps : event.KeepsHandles)
    (step : EventStep platform before event after) : WellKept platform after.tracker := by
  obtain ⟨keyed, apart, announcing, scanned⟩ := kept
  have separate := apart.separate
  exact ⟨keyed_of_event keyed step, apart.step step,
    announcing_of_event separate announcing keeps step,
    invariant_of_event NeighboursScanned separate step
      (fun scanned _ step => NeighboursScanned.step scanned step) scanned⟩

theorem WellKept.basicSteps {platform : Platform} {permits : Event → Prop}
    {before after : Repeater} (kept : WellKept platform before.tracker)
    (steps : BasicSteps platform permits before after) :
    WellKept platform after.tracker := by
  induction steps with
  | refl => exact kept
  | tail _ last ih =>
      cases last with
      | event _ keeps step => exact ih.event keeps step
      | copy handle => exact ih.copy handle
      | connectionStarted neighbour => exact ih.connectionStarted neighbour

theorem WellKept.step {surroundings : Surroundings} {before after : Program}
    {event : ProgramEvent} (kept : WellKept surroundings.platform before.tracker)
    (step : ProgramStep surroundings before event after) :
    WellKept surroundings.platform after.tracker :=
  kept.basicSteps (Program.basicSteps_of_step step)

theorem WellKept.run {surroundings : Surroundings} {start finish : Program}
    {events : List ProgramEvent} (kept : WellKept surroundings.platform start.tracker)
    (run : Run (ProgramStep surroundings) start events finish) :
    WellKept surroundings.platform finish.tracker :=
  @Run.invariant _ _ _ (fun program : Program => WellKept surroundings.platform program.tracker)
    _ _ _ run (fun kept step => kept.step step) kept

/-- In every run of the program, whatever order its callbacks and the parts of its main loop
come in, the tracker is well kept. -/
theorem wellKept_of_run {surroundings : Surroundings} {address : Address}
    {events : List ProgramEvent} {finish : Program}
    (run : Run (ProgramStep surroundings) (Program.new address) events finish) :
    WellKept surroundings.platform finish.tracker :=
  (wellKept_new surroundings.platform address).run run

/-! ## Invariants of a step -/

section Invariants

variable {surroundings : Surroundings} {before after : Program} {event : ProgramEvent}

theorem noCleanup_of_permits (cleans : ∀ uptime, event ≠ .cleanupStaleItems uptime) :
    ∀ basic, event.Permits basic → ∀ uptime, basic ≠ .tracker (.cleanupStaleItems uptime) := by
  rintro basic (calm | part) uptime rfl
  · exact calm.2 uptime rfl
  · cases event with
    | cleanupStaleItems other => exact cleans other rfl
    | _ => cases part

theorem noSend_of_permits (sends : event ≠ .sendPackets) :
    ∀ basic, event.Permits basic → basic ≠ .tracker .sendPackets := by
  rintro basic (calm | part) rfl
  · exact calm.1 rfl
  · cases event with
    | sendPackets => exact sends rfl
    | _ => cases part

theorem sent_of_programStep (step : ProgramStep surroundings before .sendPackets after) :
    ∃ targeted broadcast, before.tracker.sendPackets =
      some (after.tracker, targeted, broadcast) :=
  sendPackets_of_event (Program.eventStep_of_part step rfl)

theorem cleans_of_programStep {uptime : UInt64}
    (step : ProgramStep surroundings before (.cleanupStaleItems uptime) after) :
    Cleans before.tracker after.tracker (before.tracker.timeMs uptime) :=
  cleans_cleanupStaleItems (operation_of_event (Program.eventStep_of_part step rfl)).2

end Invariants

section Basic

variable {platform : Platform} {before after : Repeater} {permits : Event → Prop}

theorem spares_of_noCleanup {event : Event}
    (cleans : ∀ uptime, event ≠ .tracker (.cleanupStaleItems uptime)) :
    Spares packet before event := by
  cases event with
  | tracker operation =>
      cases operation with
      | cleanupStaleItems uptime => exact absurd rfl (cleans uptime)
      | _ => exact id
  | _ => trivial

theorem lasts_of_noCleanup {event : Event} (keeps : event.KeepsHandles)
    (cleans : ∀ uptime, event ≠ .tracker (.cleanupStaleItems uptime)) : event.Lasts := by
  cases event with
  | tracker operation => exact ⟨keeps, fun uptime same => cleans uptime (by rw [same])⟩
  | _ => trivial

/-- What basic steps keep together with the invariants, sequences of them keep. -/
theorem invariant_of_basicSteps (property : Tracker → Prop)
    (steps : BasicSteps platform permits before after) (kept : WellKept platform before.tracker)
    (preserved : ∀ {start finish : Repeater}, WellKept platform start.tracker →
      BasicStep platform permits start finish → property start.tracker →
      property finish.tracker) (initial : property before.tracker) : property after.tracker := by
  induction steps with
  | refl => exact initial
  | tail earlier last ih => exact preserved (kept.basicSteps earlier) last ih

end Basic

/-- What a clean-up leaves in place, and every other basic step keeps, a step keeps. -/
theorem invariant_of_programStep {surroundings : Surroundings} {before after : Program}
    {event : ProgramEvent} (property : Tracker → Prop)
    (kept : WellKept surroundings.platform before.tracker)
    (step : ProgramStep surroundings before event after)
    (cleaned : ∀ uptime, event = .cleanupStaleItems uptime → property after.tracker)
    (preserved : ∀ {start finish : Repeater}, WellKept surroundings.platform start.tracker →
      BasicStep surroundings.platform event.Permits start finish →
      (∀ basic, event.Permits basic → ∀ uptime, basic ≠ .tracker (.cleanupStaleItems uptime)) →
      property start.tracker → property finish.tracker)
    (initial : property before.tracker) : property after.tracker := by
  by_cases cleans : ∃ uptime, event = .cleanupStaleItems uptime
  · obtain ⟨uptime, same⟩ := cleans
    exact cleaned uptime same
  · have noCleanup := noCleanup_of_permits fun uptime same => cleans ⟨uptime, same⟩
    exact invariant_of_basicSteps property (Program.basicSteps_of_step step) kept
      (fun kept step => preserved kept step noCleanup) initial

/-! ## A session -/

/-- The surroundings of the sessions below. -/
def bench : Surroundings where
  platform := bytesSummed
  database := ⟨9, 8, by decide⟩
  iterate := MainProgram.adIterator

/-- BTstack comes up, another repeater is heard and connected to, and its characteristic is
discovered. -/
def discoversPeer : List ProgramEvent :=
  [.hciPacketHandler hciEventPacket 0 (.btstackEventState true),
    .hciPacketHandler hciEventPacket 10 (.advertisingReport [1, 2, 3, 4, 5, 6] 0 (-60)
      (fun index => AdvData.full.bytes.getD index 0) AdvData.full.len),
    .stopScanHandler,
    .mainLoopGate 3000000 0,
    .hciPacketHandler hciEventPacket 20
      (.gapLeConnectionComplete 0x40 [1, 2, 3, 4, 5, 6] 0 hciRoleMaster true 0),
    .handleGattClientEvent (.serviceQueryResult 0x40
      ⟨1, 12, 0, ⟨packetServiceUuid.toArray, by decide⟩⟩),
    .handleGattClientEvent (.queryComplete 0x40 .primaryServices 0),
    .handleGattClientEvent (.characteristicQueryResult 0x40
      ⟨3, 0, ⟨packetCharacteristicUuid.toArray, by decide⟩⟩),
    .handleGattClientEvent (.queryComplete 0x40 .characteristics 0)]

/-- What enables notifications. -/
def subscribing : Buffer :=
  ⟨[1, 0], by decide⟩

/-- A peer connects and enables notifications. -/
def peerSubscribes : List ProgramEvent :=
  [.hciPacketHandler hciEventPacket 30
      (.leConnectionComplete 0x41 [6, 5, 4, 3, 2, 1] 0 hciRoleSlave),
    .attPacketHandler hciEventPacket 30 (.connected 0x41 [6, 5, 4, 3, 2, 1] 0),
    .attWriteCallback 40 300 0x41 bench.database.clientConfigurationHandle
      attTransactionModeNone 0 subscribing]

/-- An announce comes in, and is passed on. -/
def announceArrives : List ProgramEvent :=
  [.attWriteCallback 50 200 0x41 bench.database.valueHandle attTransactionModeNone 0
      ⟨[1, 65, 3, 1, 0, 0, 0, 0, 0, 0, 0, 0, 0, 0, 0, 0, 0, 0, 0, 6, 0], by decide⟩,
    .announceToConnections 60,
    .sendPackets,
    .packetCanSendNotificationHandler 0x41 0,
    .packetCanWriteWithoutResponseHandler 0x40 0]

theorem wellKept_of_session : ∃ finish,
    Run (ProgramStep bench) (Program.new 100)
      (discoversPeer ++ peerSubscribes ++ announceArrives) finish ∧
    finish.tracker.connections.entries.length = 2 ∧ WellKept bench.platform finish.tracker := by
  have outcome : (follow (ProgramEvent.next bench)
      (discoversPeer ++ peerSubscribes ++ announceArrives) (Program.new 100)).map
        (fun finish => finish.tracker.connections.entries.length) = some 2 := by decide
  obtain ⟨finish, followed, count⟩ := Option.map_eq_some_iff.mp outcome
  have run := Run.of_follow programStep_of_next followed
  exact ⟨finish, run, count, wellKept_of_run run⟩

end BleRepeater
