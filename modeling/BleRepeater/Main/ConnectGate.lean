import BleRepeater.Main.Repeater

/-!
# The connection gate

Three flags of the main program stand for what it has asked of BTstack: to connect to a
neighbour, to discover the services of a peer, to discover its characteristics.  The main
loop starts to connect only while all three are clear.  BTstack accepts a request or
answers with an error, and completes what it has accepted later; what is outstanding is
kept beside the program.
-/

namespace BleRepeater

open Transition Tracker Repeater

/-! ## Neighbours -/

namespace BleConnection

/-- `BleConnection::isRepeater`. -/
def isRepeater (connection : BleConnection) : Bool :=
  connection.servicesFound == .andNameFound

/-- `BleConnection::isRandom`. -/
def isRandom (connection : BleConnection) : Bool :=
  connection.btAddressType == bdAddrTypeLeRandom

/-- `BleConnection::canAndNeedToDiscoverPacketCharacteristicsQuery`, without the service
that it fills in for the query. -/
def canAndNeedToDiscoverPacketCharacteristicsQuery (connection : BleConnection) : Bool :=
  decide (connection.packetServiceStartGroupHandle > 0) &&
    connection.packetCharacteristicValueHandle == 0

end BleConnection

namespace Tracker

/-- `BleConnectionTracker::getConnectableNeighbours`. -/
def getConnectableNeighbours (tracker : Tracker) : List BleConnection :=
  (tracker.availableNeighbours.entries.map Prod.snd).filter fun connection =>
    (decide (tracker.timestampOffsetMs ≥ buildTimeMs) || connection.isRepeater) &&
      !connection.connected && !connection.isRandom

/-- `BleConnectionTracker::getConnectionForAddress`. -/
def getConnectionForAddress (tracker : Tracker) (address : Bytes) : Option ConnectionRef :=
  (tracker.connections.entries.find? fun entry =>
    entry.2.connection.connected && entry.2.connection.btAddress == address).map
      fun entry => ⟨entry.1, entry.2.generation⟩

/-- `BleConnectionTracker::setConnectionStarted`. -/
def setConnectionStarted (tracker : Tracker) (neighbour : BleConnection) : Tracker :=
  { tracker with
    availableNeighbours := tracker.availableNeighbours.erase neighbour.btAddress }

end Tracker

/-! ## The program -/

/-- What BTstack has accepted and not completed yet: the calls of `gap_connect`, and the
queries, by the handles of their connections. -/
structure Outstanding where
  connects : Nat := 0
  primaryServices : List UInt16 := []
  characteristics : List UInt16 := []

namespace Outstanding

/-- Nothing is outstanding. -/
def Idle (outstanding : Outstanding) : Prop :=
  outstanding.connects = 0 ∧ outstanding.primaryServices = [] ∧
    outstanding.characteristics = []

end Outstanding

/-- The repeater with the globals of `main.cpp` that the gate is about, and what is
outstanding. -/
structure MainProgram where
  repeater : Repeater
  scanning : Bool := false
  connectionInProgress : Bool := false
  disconnectionStartedAt : UInt32 := 0
  discoverPrimaryServices : Bool := false
  discoverCharacteristicsForService : Bool := false
  outstanding : Outstanding := {}

/-- The two queries. -/
inductive Discovery where
  | primaryServices
  | characteristics
  deriving DecidableEq

/-- The queries of one kind that are outstanding. -/
def Outstanding.queries (outstanding : Outstanding) : Discovery → List UInt16
  | .primaryServices => outstanding.primaryServices
  | .characteristics => outstanding.characteristics

/-- One query is completed. -/
def Outstanding.complete (outstanding : Outstanding) (conHandle : UInt16) :
    Discovery → Outstanding
  | .primaryServices =>
      { outstanding with
        primaryServices := outstanding.primaryServices.erase conHandle }
  | .characteristics =>
      { outstanding with
        characteristics := outstanding.characteristics.erase conHandle }

namespace MainProgram

/-- The program as started. -/
def new (announceAddress : Address) : MainProgram :=
  { repeater := Repeater.new announceAddress }

/-- The condition on the flags at the gate. -/
def flagsClear (program : MainProgram) : Bool :=
  !program.connectionInProgress && !program.discoverPrimaryServices &&
    !program.discoverCharacteristicsForService

/-- `connect_to_first_neighbour`; `err` is what `gap_connect` would return. -/
def connectToFirstNeighbour (program : MainProgram) (err : UInt8) : MainProgram × Bool :=
  match program.repeater.tracker.getConnectableNeighbours with
  | [] => (program, false)
  | neighbour :: _ =>
      if (program.repeater.tracker.getConnectionForAddress neighbour.btAddress).isSome then
        (program, false)
      else if err = 0 then
        ({ program with
          repeater := { program.repeater with
            tracker := program.repeater.tracker.setConnectionStarted neighbour }
          connectionInProgress := true
          outstanding := { program.outstanding with
            connects := program.outstanding.connects + 1 } }, true)
      else
        (program, false)

/-- `two_seconds_in_us`. -/
def twoSecondsInUs : UInt32 := 2000000

/-- The gate in the main loop. -/
def mainLoopGate (program : MainProgram) (loopStart : UInt32) (err : UInt8) : MainProgram :=
  if !program.scanning && program.flagsClear &&
      decide (program.disconnectionStartedAt < loopStart - twoSecondsInUs) then
    (program.connectToFirstNeighbour err).1
  else
    program

/-- The case `HCI_EVENT_META_GAP` of `hci_packet_handler` for a completed connection; `err`
is the answer to the query for the services.  `own` tells whether a `gap_connect` is
completed in this way. -/
def gapLeConnectionComplete (program : MainProgram) (uptime : UInt64) (conHandle : UInt16)
    (address : Bytes) (addressType role : UInt8) (own : Bool) (err : UInt8) : MainProgram :=
  { program with
    repeater := { program.repeater with
      tracker := program.repeater.tracker.reportConnectionWithRole uptime conHandle address
        addressType role }
    connectionInProgress := false
    discoverPrimaryServices := true
    outstanding := { program.outstanding with
      connects := if own then program.outstanding.connects - 1
        else program.outstanding.connects
      primaryServices := if err = 0 then conHandle :: program.outstanding.primaryServices
        else program.outstanding.primaryServices } }

/-- The case `GATT_EVENT_QUERY_COMPLETE` of `handle_gatt_client_event`; `err` is the answer
to the query for the characteristics. -/
def gattQueryComplete (program : MainProgram) (conHandle : UInt16) (query : Discovery)
    (err : UInt8) : Option MainProgram := do
  let (ref, tracker) := program.repeater.tracker.connectionForConnHandle conHandle
  let connection ← tracker.connectionAt ref
  let outstanding := program.outstanding.complete conHandle query
  let program := { program with
    repeater := { program.repeater with tracker }
    discoverPrimaryServices := false
    discoverCharacteristicsForService := false
    outstanding }
  if connection.canAndNeedToDiscoverPacketCharacteristicsQuery then
    return { program with
      discoverCharacteristicsForService := true
      outstanding := { outstanding with
        characteristics := if err = 0 then conHandle :: outstanding.characteristics
          else outstanding.characteristics } }
  else
    return program

end MainProgram

/-- What happens to the program. -/
inductive MainEvent where
  | mainLoopGate (loopStart : UInt32) (err : UInt8)
  | gapLeConnectionComplete (uptime : UInt64) (conHandle : UInt16) (address : Bytes)
      (addressType role : UInt8) (own : Bool) (err : UInt8)
  | gattQueryComplete (conHandle : UInt16) (query : Discovery) (err : UInt8)
  | startScanningForLocalNodes
  | stopScanHandler
  | other (event : Event)

namespace MainEvent

def apply (platform : Platform) (program : MainProgram) : MainEvent → Option MainProgram
  | .mainLoopGate loopStart err => some (program.mainLoopGate loopStart err)
  | .gapLeConnectionComplete uptime conHandle address addressType role own err =>
      some (program.gapLeConnectionComplete uptime conHandle address addressType role own
        err)
  | .gattQueryComplete conHandle query err => program.gattQueryComplete conHandle query err
  | .startScanningForLocalNodes => some { program with scanning := true }
  | .stopScanHandler => some { program with scanning := false }
  | .other event => do
      let repeater ← event.apply platform program.repeater
      return { program with repeater }

/-- BTstack completes what it has accepted, and that once. -/
def Allowed (program : MainProgram) : MainEvent → Prop
  | .gapLeConnectionComplete _ _ _ _ _ own _ =>
      own = true → program.outstanding.connects > 0
  | .gattQueryComplete conHandle query _ =>
      conHandle ∈ program.outstanding.queries query
  | .other event => event.Allowed program.repeater
  | _ => True

end MainEvent

/-- One event. -/
def MainStep (platform : Platform) (before : MainProgram) (event : MainEvent)
    (after : MainProgram) : Prop :=
  event.Allowed before ∧ event.apply platform before = some after

/-! ## Exact flags -/

/-- Each flag is set exactly while a request of its kind is outstanding, and the gate is
open to a connect exactly while nothing is. -/
structure FlagsExact (program : MainProgram) : Prop where
  connect : program.connectionInProgress = true ↔ program.outstanding.connects > 0
  primaryServices : program.discoverPrimaryServices = true ↔
    program.outstanding.primaryServices ≠ []
  characteristics : program.discoverCharacteristicsForService = true ↔
    program.outstanding.characteristics ≠ []
  gate : program.flagsClear = true ↔ program.outstanding.Idle

/-- The gate follows from the flags. -/
theorem FlagsExact.of_flags {program : MainProgram}
    (connect : program.connectionInProgress = true ↔ program.outstanding.connects > 0)
    (primaryServices : program.discoverPrimaryServices = true ↔
      program.outstanding.primaryServices ≠ [])
    (characteristics : program.discoverCharacteristicsForService = true ↔
      program.outstanding.characteristics ≠ []) : FlagsExact program := by
  refine ⟨connect, primaryServices, characteristics, ?_⟩
  have noConnect : program.connectionInProgress = false ↔
      program.outstanding.connects = 0 := by
    rw [← Bool.not_eq_true, connect, Nat.not_lt, Nat.le_zero]
  have noPrimary : program.discoverPrimaryServices = false ↔
      program.outstanding.primaryServices = [] := by
    rw [← Bool.not_eq_true, primaryServices, not_not]
  have noCharacteristics : program.discoverCharacteristicsForService = false ↔
      program.outstanding.characteristics = [] := by
    rw [← Bool.not_eq_true, characteristics, not_not]
  simp only [MainProgram.flagsClear, Bool.and_eq_true, Bool.not_eq_true', noConnect,
    noPrimary, noCharacteristics, Outstanding.Idle, and_assoc]

theorem flagsExact_new (address : Address) : FlagsExact (MainProgram.new address) := by
  apply FlagsExact.of_flags <;> simp [MainProgram.new]

/-- The connection whose query is complete is one whose characteristics are wanted. -/
def DiscoversNext (program : MainProgram) (conHandle : UInt16) : Prop :=
  let (ref, tracker) := program.repeater.tracker.connectionForConnHandle conHandle
  (tracker.connectionAt ref).any fun connection =>
    connection.canAndNeedToDiscoverPacketCharacteristicsQuery

instance decidableDiscoversNext (program : MainProgram) (conHandle : UInt16) :
    Decidable (DiscoversNext program conHandle) := by
  unfold DiscoversNext
  infer_instance

/-- A completed connection is that of the only pending connect, or comes while none is
pending, and the discovery that it starts is accepted, unless another one is outstanding.
A completed query leaves no query outstanding, except those for characteristics if it
starts one itself; and if none is left, that one is accepted. -/
def MeetsFlags (program : MainProgram) : MainEvent → Prop
  | .gapLeConnectionComplete _ _ _ _ _ own err =>
      program.outstanding.connects = (if own then 1 else 0) ∧
        (err = 0 ∨ program.outstanding.primaryServices ≠ [])
  | .gattQueryComplete conHandle query err =>
      (program.outstanding.complete conHandle query).primaryServices = [] ∧
        (DiscoversNext program conHandle → err = 0 ∨
          (program.outstanding.complete conHandle query).characteristics ≠ []) ∧
        (¬ DiscoversNext program conHandle →
          (program.outstanding.complete conHandle query).characteristics = [])
  | _ => True

instance decidableMeetsFlags (program : MainProgram) (event : MainEvent) :
    Decidable (MeetsFlags program event) := by
  cases event <;> unfold MeetsFlags <;> infer_instance

variable {platform : Platform} {before after : MainProgram}

theorem flagsExact_connectToFirstNeighbour (kept : FlagsExact before) (err : UInt8) :
    FlagsExact (before.connectToFirstNeighbour err).1 := by
  unfold MainProgram.connectToFirstNeighbour
  split
  · exact kept
  · split
    · exact kept
    · split
      · exact .of_flags (by simp) kept.primaryServices kept.characteristics
      · exact kept

theorem flagsExact_mainLoopGate (kept : FlagsExact before) (loopStart : UInt32)
    (err : UInt8) : FlagsExact (before.mainLoopGate loopStart err) := by
  unfold MainProgram.mainLoopGate
  split
  · exact flagsExact_connectToFirstNeighbour kept err
  · exact kept

theorem flagsExact_gapLeConnectionComplete_iff (kept : FlagsExact before) {uptime : UInt64}
    {conHandle : UInt16} {address : Bytes} {addressType role : UInt8} {own : Bool}
    {err : UInt8} (pending : own = true → before.outstanding.connects > 0) :
    FlagsExact (before.gapLeConnectionComplete uptime conHandle address addressType role own
        err) ↔
      before.outstanding.connects = (if own then 1 else 0) ∧
        (err = 0 ∨ before.outstanding.primaryServices ≠ []) := by
  have connects : (if own then before.outstanding.connects - 1
      else before.outstanding.connects) > 0 ↔
      before.outstanding.connects ≠ (if own then 1 else 0) := by
    cases own with
    | true =>
        have some := pending rfl
        simp only [if_true]
        omega
    | false => simp [Nat.pos_iff_ne_zero]
  have queries : (if err = 0 then conHandle :: before.outstanding.primaryServices
      else before.outstanding.primaryServices) ≠ [] ↔
      (err = 0 ∨ before.outstanding.primaryServices ≠ []) := by
    split <;> simp [*]
  constructor
  · intro next
    have connect := next.connect
    have primaryServices := next.primaryServices
    simp only [MainProgram.gapLeConnectionComplete, connects, queries, Bool.false_eq_true,
      false_iff, not_not, true_iff] at connect primaryServices
    exact ⟨connect, primaryServices⟩
  · rintro ⟨single, accepted⟩
    apply FlagsExact.of_flags
    · simp only [MainProgram.gapLeConnectionComplete, connects, Bool.false_eq_true,
        false_iff, not_not]
      exact single
    · simp only [MainProgram.gapLeConnectionComplete, queries, true_iff]
      exact accepted
    · exact kept.characteristics

theorem connects_complete (outstanding : Outstanding) (conHandle : UInt16)
    (query : Discovery) :
    (outstanding.complete conHandle query).connects = outstanding.connects := by
  cases query <;> rfl

/-- What a completed query leaves of the program. -/
theorem gattQueryComplete_eq {conHandle : UInt16} {query : Discovery} {err : UInt8}
    (done : before.gattQueryComplete conHandle query err = some after) :
    after.connectionInProgress = before.connectionInProgress ∧
      after.discoverPrimaryServices = false ∧
      (after.discoverCharacteristicsForService = true ↔ DiscoversNext before conHandle) ∧
      after.outstanding.connects = before.outstanding.connects ∧
      after.outstanding.primaryServices =
        (before.outstanding.complete conHandle query).primaryServices ∧
      (after.outstanding.characteristics ≠ [] ↔
        (before.outstanding.complete conHandle query).characteristics ≠ [] ∨
          DiscoversNext before conHandle ∧ err = 0) := by
  simp only [MainProgram.gattQueryComplete, Option.bind_eq_bind,
    Option.bind_eq_some_iff] at done
  obtain ⟨connection, there, done⟩ := done
  have next : DiscoversNext before conHandle ↔
      connection.canAndNeedToDiscoverPacketCharacteristicsQuery = true := by
    simp [DiscoversNext, there]
  split at done
  · rename_i wanted
    cases done
    refine ⟨rfl, rfl, by simp [next, wanted], connects_complete .., rfl, ?_⟩
    simp only [next, wanted, true_and]
    split <;> simp [*]
  · rename_i unwanted
    cases done
    refine ⟨rfl, rfl, by simp [next, unwanted], connects_complete .., rfl, ?_⟩
    simp [next, unwanted]

theorem flagsExact_gattQueryComplete_iff (kept : FlagsExact before) {conHandle : UInt16}
    {query : Discovery} {err : UInt8}
    (done : before.gattQueryComplete conHandle query err = some after) :
    FlagsExact after ↔ MeetsFlags before (.gattQueryComplete conHandle query err) := by
  obtain ⟨flag, primaryFlag, characteristicsFlag, connects, primary, characteristics⟩ :=
    gattQueryComplete_eq done
  have connect : after.connectionInProgress = true ↔ after.outstanding.connects > 0 := by
    rw [flag, connects]
    exact kept.connect
  constructor
  · intro next
    have emptied := next.primaryServices
    have discovers := next.characteristics
    rw [primaryFlag, primary] at emptied
    rw [characteristicsFlag, characteristics] at discovers
    refine ⟨by simpa using emptied, ?_, ?_⟩
    · intro wanted
      exact (discovers.mp wanted).symm.imp And.right id
    · intro unwanted
      by_contra left
      exact unwanted (discovers.mpr (Or.inl left))
  · rintro ⟨emptied, accepted, finished⟩
    apply FlagsExact.of_flags connect
    · rw [primaryFlag, primary, emptied]
      simp
    · rw [characteristicsFlag, characteristics]
      constructor
      · intro wanted
        exact (accepted wanted).symm.imp id fun zero => ⟨wanted, zero⟩
      · rintro (left | ⟨wanted, _⟩)
        · by_contra unwanted
          exact left (finished unwanted)
        · exact wanted

/-- From exact flags, an event leads to exact flags exactly when it meets the condition. -/
theorem flagsExact_of_step_iff {event : MainEvent} (kept : FlagsExact before)
    (step : MainStep platform before event after) :
    FlagsExact after ↔ MeetsFlags before event := by
  obtain ⟨allowed, done⟩ := step
  cases event with
  | mainLoopGate loopStart err =>
      cases done
      exact iff_of_true (flagsExact_mainLoopGate kept loopStart err) trivial
  | gapLeConnectionComplete uptime conHandle address addressType role own err =>
      cases done
      exact flagsExact_gapLeConnectionComplete_iff kept allowed
  | gattQueryComplete conHandle query err => exact flagsExact_gattQueryComplete_iff kept done
  | startScanningForLocalNodes =>
      cases done
      exact iff_of_true (.of_flags kept.connect kept.primaryServices kept.characteristics)
        trivial
  | stopScanHandler =>
      cases done
      exact iff_of_true (.of_flags kept.connect kept.primaryServices kept.characteristics)
        trivial
  | other event =>
      obtain ⟨repeater, _, same⟩ := Option.bind_eq_some_iff.mp done
      cases same
      exact iff_of_true (.of_flags kept.connect kept.primaryServices kept.characteristics)
        trivial

theorem mainStep_functional {event : MainEvent} {left right : MainProgram}
    (first : MainStep platform before event left)
    (second : MainStep platform before event right) : left = right :=
  Option.some.inj (first.2.symm.trans second.2)

/-- The flags are exact throughout a run exactly when every event meets the condition. -/
theorem flagsExact_throughout_iff {address : Address} {events : List MainEvent}
    {finish : MainProgram}
    (run : Run (MainStep platform) (MainProgram.new address) events finish) :
    Throughout (MainStep platform) FlagsExact (MainProgram.new address) events ↔
      Run (Guarded MeetsFlags (MainStep platform)) (MainProgram.new address) events finish :=
  run.throughout_iff_guarded mainStep_functional flagsExact_of_step_iff
    (flagsExact_new address)

instance decidableMainAllowed (program : MainProgram) (event : MainEvent) :
    Decidable (event.Allowed program) := by
  cases event <;> unfold MainEvent.Allowed <;> infer_instance

/-- What an allowed event makes of the program. -/
def MainEvent.next (platform : Platform) (program : MainProgram) (event : MainEvent) :
    Option MainProgram :=
  if event.Allowed program then event.apply platform program else none

theorem mainStep_of_next {event : MainEvent}
    (done : event.next platform before = some after) :
    MainStep platform before event after := by
  rw [MainEvent.next, Option.ite_none_right_eq_some] at done
  exact done

/-- What an allowed event that meets the condition makes of the program. -/
def MainEvent.meetingNext (platform : Platform) (program : MainProgram) (event : MainEvent) :
    Option MainProgram :=
  if MeetsFlags program event then event.next platform program else none

theorem guarded_of_meetingNext {event : MainEvent}
    (done : event.meetingNext platform before = some after) :
    Guarded MeetsFlags (MainStep platform) before event after := by
  rw [MainEvent.meetingNext, Option.ite_none_right_eq_some] at done
  exact ⟨done.1, mainStep_of_next done.2⟩

/-- A repeater is found, and the main loop starts to connect to it. -/
def connecting : List MainEvent :=
  [.other (.tracker (.addAvailablePeer 0 [1, 2, 3, 4, 5, 6] 0 .andNameFound 0)),
    .mainLoopGate 5000000 0]

/-- The connection is completed, and its service and characteristic are found. -/
def discovering : List MainEvent :=
  [.gapLeConnectionComplete 0 0x40 [1, 2, 3, 4, 5, 6] 0 hciRoleMaster true 0,
    .other (.tracker (.updateConnection ⟨0x40, 0⟩ fun connection =>
      { connection with packetServiceStartGroupHandle := 1 })),
    .gattQueryComplete 0x40 .primaryServices 0,
    .other (.tracker (.updateConnection ⟨0x40, 0⟩ fun connection =>
      { connection with packetCharacteristicValueHandle := 9 })),
    .gattQueryComplete 0x40 .characteristics 0]

theorem flagsExact_throughout_iff_discovering :
    Throughout (MainStep bytesSummed) FlagsExact (MainProgram.new 100)
      (connecting ++ discovering) := by
  obtain ⟨finish, done⟩ := Option.isSome_iff_exists.mp
    (show (follow (MainEvent.meetingNext bytesSummed) (connecting ++ discovering)
      (MainProgram.new 100)).isSome by decide)
  have guarded : Run (Guarded MeetsFlags (MainStep bytesSummed)) (MainProgram.new 100)
      (connecting ++ discovering) finish := Run.of_follow guarded_of_meetingNext done
  have run : Run (MainStep bytesSummed) (MainProgram.new 100) (connecting ++ discovering)
      finish := guarded.mono And.right
  exact (flagsExact_throughout_iff run).mpr guarded

/-- While the repeater connects to a neighbour, another one connects to it. -/
def approached : List MainEvent :=
  connecting ++ [.gapLeConnectionComplete 0 0x41 [7, 7, 7, 7, 7, 7] 0 hciRoleSlave false 0]

/-- Another one connects to the repeater, and the query for its services is rejected. -/
def rejected : List MainEvent :=
  [.gapLeConnectionComplete 0 0x41 [7, 7, 7, 7, 7, 7] 0 hciRoleSlave false 0x16]

/-- An incoming connection clears the flag of a pending connect, and a rejected query sets
a flag that nothing will clear. -/
theorem flags_inexact :
    (∃ finish, Run (MainStep bytesSummed) (MainProgram.new 100) approached finish ∧
      finish.connectionInProgress = false ∧ finish.outstanding.connects = 1 ∧
      ¬ Throughout (MainStep bytesSummed) FlagsExact (MainProgram.new 100) approached) ∧
    ∃ finish, Run (MainStep bytesSummed) (MainProgram.new 100) rejected finish ∧
      finish.discoverPrimaryServices = true ∧ finish.outstanding.Idle ∧
      ¬ Throughout (MainStep bytesSummed) FlagsExact (MainProgram.new 100) rejected := by
  constructor
  · have outcome : (follow (MainEvent.next bytesSummed) approached (MainProgram.new 100)).map
        (fun program => (program.connectionInProgress, program.outstanding.connects)) =
          some (false, 1) := by decide
    obtain ⟨finish, done, same⟩ := Option.map_eq_some_iff.mp outcome
    obtain ⟨flag, connects⟩ := Prod.mk.inj same
    have run : Run (MainStep bytesSummed) (MainProgram.new 100) approached finish :=
      Run.of_follow mainStep_of_next done
    refine ⟨finish, run, flag, connects, ?_⟩
    intro throughout
    have kept := throughout approached [] finish (by simp) run
    have pending := kept.connect.mpr (by simp [connects])
    rw [flag] at pending
    cases pending
  · have outcome : (follow (MainEvent.next bytesSummed) rejected (MainProgram.new 100)).map
        (fun program => (program.discoverPrimaryServices, program.outstanding.connects,
          program.outstanding.primaryServices, program.outstanding.characteristics)) =
          some (true, 0, [], []) := by decide
    obtain ⟨finish, done, same⟩ := Option.map_eq_some_iff.mp outcome
    obtain ⟨flag, same⟩ := Prod.mk.inj same
    obtain ⟨connects, same⟩ := Prod.mk.inj same
    obtain ⟨primary, characteristics⟩ := Prod.mk.inj same
    have run : Run (MainStep bytesSummed) (MainProgram.new 100) rejected finish :=
      Run.of_follow mainStep_of_next done
    refine ⟨finish, run, flag, ⟨connects, primary, characteristics⟩, ?_⟩
    intro throughout
    have kept := throughout rejected [] finish (by simp) run
    exact kept.primaryServices.mp flag primary

end BleRepeater
