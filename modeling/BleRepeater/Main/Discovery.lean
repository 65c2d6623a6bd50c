import BleRepeater.Main.OpenLinks
import BleRepeater.Main.Program
import BleRepeater.Main.Serving

/-!
# Discovery

What a repeater knows of a link is what the events of BTstack told it: who is connected, in
which role, and under which handle packets are written to the peer.  Each is there exactly if
the last event that speaks of it brought it, and the connection object was not replaced or
erased since.  By that a call of `sendPackets` finds where its packets go.
-/

namespace BleRepeater

open Transition Tracker Repeater

/-! ## What an event does to a link -/

/-- What a write to the client configuration makes of a link. -/
def Link.configure (database : AttDatabase) (buffer : Buffer) (link : Link) : Link :=
  let enabled := littleEndianRead16 buffer == configurationNotification
  { link with
    notificationEnabled := enabled
    packetCharacteristicValueHandle :=
      if enabled then database.valueHandle else link.packetCharacteristicValueHandle }

namespace ProgramEvent

/-- What an event of GATT tells of the link of one handle. -/
def tells (database : AttDatabase) : ProgramEvent → Option (UInt16 × (Link → Link))
  | .attWriteCallback _ _ connectionHandle attHandle transactionMode _ buffer =>
      if transactionMode = attTransactionModeNone ∧
          attHandle = database.clientConfigurationHandle then
        some (connectionHandle, Link.configure database buffer)
      else none
  | .handleGattClientEvent (.mtu conHandle mtu) =>
      some (conHandle, fun link => { link with btMtu := mtu })
  | .handleGattClientEvent (.serviceQueryResult conHandle service) =>
      if service.uuid16 = 0 ∧ service.uuid128.toList = packetServiceUuid then
        some (conHandle, fun link =>
          { link with
            packetServiceStartGroupHandle := service.startGroupHandle
            packetServiceEndGroupHandle := service.endGroupHandle })
      else none
  | .handleGattClientEvent (.characteristicQueryResult conHandle characteristic) =>
      if characteristic.uuid16 = 0 ∧
          characteristic.uuid128.toList = packetCharacteristicUuid then
        some (conHandle, fun link =>
          { link with packetCharacteristicValueHandle := characteristic.valueHandle })
      else none
  | _ => none

/-- The operation of the tracker by which an event reports a connection, or cleans up. -/
def reports : ProgramEvent → Option Operation
  | .hciPacketHandler packetType uptime event =>
      if packetType ≠ hciEventPacket then none
      else match event with
      | .disconnectionComplete handle => some (.reportDisconnection handle)
      | .leConnectionComplete handle address addressType role
      | .gapLeConnectionComplete handle address addressType role _ _ =>
          some (.reportConnectionWithRole uptime handle address addressType role)
      | _ => none
  | .attPacketHandler packetType uptime event =>
      if packetType ≠ hciEventPacket then none
      else match event with
      | .connected handle address addressType =>
          some (.reportConnection uptime handle address addressType)
      | .disconnected handle => some (.reportDisconnection handle)
      | .other => none
  | .cleanupStaleItems uptime => some (.cleanupStaleItems uptime)
  | _ => none

/-- What an event makes of the link of a handle. -/
def relink (database : AttDatabase) (tracker : Tracker) (event : ProgramEvent)
    (handle : UInt16) (link : Link) : Link :=
  match event.tells database, event.reports with
  | some (told, change), _ => if handle = told then change link else link
  | none, some operation => operation.relink tracker handle link
  | none, none => link

end ProgramEvent

section Steps

variable {surroundings : Surroundings} {before after : Program} {event : ProgramEvent}

end Steps

/-! ## What an event brings and what it drops -/

/-- The link of a connection object that is replaced by that of a neighbour, if there is
one. -/
def Link.renewed (tracker : Tracker) (addr : Bytes) (link : Link) : Link :=
  if (tracker.availableNeighbours.find? addr).isSome then {} else link

namespace Tracker

/-- The operation replaces the connection object of a handle by that of a neighbour, or erases
it. -/
def Operation.Resets (tracker : Tracker) (handle : UInt16) (operation : Operation) : Prop :=
  (∃ addr, operation.Opens handle addr ∧ (tracker.availableNeighbours.find? addr).isSome) ∨
  ∃ uptime, operation = .cleanupStaleItems uptime ∧
    (tracker.connections.find? handle).any fun entry =>
      connectionStale (tracker.timeMs uptime) entry.connection

/-- The own role that an operation reports with a connection. -/
def Operation.cast : Operation → Option UInt8
  | .reportConnectionWithRole _ _ _ _ role => some role
  | _ => none

section Operations

variable {tracker : Tracker} {handle : UInt16} {operation : Operation}

theorem resets_of_opens {addr : Bytes} (opens : operation.Opens handle addr) :
    operation.Resets tracker handle ↔ (tracker.availableNeighbours.find? addr).isSome := by
  have only : ∀ other, operation.Opens handle other → other = addr := by
    intro other opened
    cases operation with
    | reportConnection => exact opened.2.symm.trans opens.2
    | reportConnectionWithRole => exact opened.2.symm.trans opens.2
    | _ => exact opens.elim
  constructor
  · rintro (⟨other, opened, listed⟩ | ⟨uptime, rfl, _⟩)
    · rwa [only other opened] at listed
    · exact opens.elim
  · intro listed
    exact Or.inl ⟨addr, opens, listed⟩

/-- What an operation does to the link of a handle: it opens it, closes it, erases it, or
leaves it alone. -/
inductive Relinks (tracker : Tracker) (handle : UInt16) (link : Link) :
    Operation → Link → Prop where
  | opens {operation : Operation} {addr : Bytes} : operation.Opens handle addr →
      Relinks tracker handle link operation
        { link.renewed tracker addr with
          connected := true
          role := operation.cast.getD (link.renewed tracker addr).role }
  | closes : Relinks tracker handle link (.reportDisconnection handle)
      { link with notificationEnabled := false, connected := false }
  | erases {uptime : UInt64} {entry : ConnectionEntry} :
      tracker.connections.find? handle = some entry →
      connectionStale (tracker.timeMs uptime) entry.connection = true →
      Relinks tracker handle link (.cleanupStaleItems uptime) {}
  | leaves {operation : Operation} : (∀ addr, ¬ operation.Opens handle addr) →
      operation ≠ .reportDisconnection handle → ¬ operation.Resets tracker handle →
      Relinks tracker handle link operation link

theorem relinks (tracker : Tracker) (handle : UInt16) (link : Link) (operation : Operation) :
    Relinks tracker handle link operation (operation.relink tracker handle link) := by
  -- an operation that opens no link, closes none and cleans nothing up
  have leaves : (∀ addr, ¬ operation.Opens handle addr) →
      operation ≠ .reportDisconnection handle →
      (∀ uptime, operation = .cleanupStaleItems uptime →
        ¬ (tracker.connections.find? handle).any fun entry =>
          connectionStale (tracker.timeMs uptime) entry.connection) →
      Relinks tracker handle link operation link := by
    intro closed other fresh
    refine .leaves closed other ?_
    rintro (⟨addr, opens, _⟩ | ⟨uptime, same, stale⟩)
    · exact closed addr opens
    · exact fresh uptime same stale
  cases operation with
  | reportConnection uptime opened addr addressType =>
      by_cases here : handle = opened
      · subst here
        rw [Operation.relink, if_pos rfl]
        exact @Relinks.opens _ _ _ (.reportConnection uptime handle addr addressType) _
          ⟨rfl, rfl⟩
      · rw [Operation.relink, if_neg here]
        exact leaves (fun _ opens => here opens.1.symm) (by simp) (by simp)
  | reportConnectionWithRole uptime opened addr addressType role =>
      by_cases here : handle = opened
      · subst here
        rw [Operation.relink, if_pos rfl]
        exact @Relinks.opens _ _ _
          (.reportConnectionWithRole uptime handle addr addressType role) _ ⟨rfl, rfl⟩
      · rw [Operation.relink, if_neg here]
        exact leaves (fun _ opens => here opens.1.symm) (by simp) (by simp)
  | reportDisconnection closed =>
      by_cases here : handle = closed
      · subst here
        rw [Operation.relink, if_pos rfl]
        exact .closes
      · rw [Operation.relink, if_neg here]
        refine leaves (fun _ => id) ?_ (by simp)
        rintro ⟨⟩
        exact here rfl
  | cleanupStaleItems uptime =>
      rw [Operation.relink]
      split
      · rename_i stale
        obtain ⟨entry, found, stale⟩ := (Option.any_eq_true _ _).mp stale
        exact .erases found stale
      · rename_i fresh
        refine leaves (fun _ => id) (by simp) ?_
        rintro _ ⟨⟩
        exact fresh
  | _ => exact leaves (fun _ => id) (by simp) (by simp)

end Operations

end Tracker

namespace ProgramEvent

/-- The event reports that the handle is connected. -/
def Opens (handle : UInt16) (event : ProgramEvent) : Prop :=
  ∃ operation addr, event.reports = some operation ∧ operation.Opens handle addr

/-- The event reports that the handle is disconnected. -/
def Closes (handle : UInt16) (event : ProgramEvent) : Prop :=
  event.reports = some (.reportDisconnection handle)

/-- The event replaces the connection object of a handle by that of a neighbour, or erases
it. -/
def Resets (handle : UInt16) (program : Program) (event : ProgramEvent) : Prop :=
  ∃ operation, event.reports = some operation ∧ operation.Resets program.tracker handle

/-- The event reports the own role on the handle. -/
def Casts (handle : UInt16) (role : UInt8) (event : ProgramEvent) : Prop :=
  ∃ operation addr, event.reports = some operation ∧ operation.Opens handle addr ∧
    operation.cast = some role

/-- Another role is reported, or the connection object is reset. -/
def Recasts (handle : UInt16) (role : UInt8) (program : Program) (event : ProgramEvent) :
    Prop :=
  (∃ other, other ≠ role ∧ event.Casts handle other) ∨ event.Resets handle program

/-- The event says under which handle packets are written to the peer: the characteristic is
discovered, or the peer enables notifications of the own one. -/
inductive Teaches (database : AttDatabase) (conHandle value : UInt16) : ProgramEvent → Prop where
  | discovered {characteristic : GattClientCharacteristic} : characteristic.uuid16 = 0 →
      characteristic.uuid128.toList = packetCharacteristicUuid →
      characteristic.valueHandle = value → Teaches database conHandle value
        (.handleGattClientEvent (.characteristicQueryResult conHandle characteristic))
  | enabled {uptime : UInt64} {address : Address} {offset : UInt16} {buffer : Buffer} :
      littleEndianRead16 buffer = configurationNotification → database.valueHandle = value →
      Teaches database conHandle value (.attWriteCallback uptime address conHandle
        database.clientConfigurationHandle attTransactionModeNone offset buffer)

/-- Another value handle is learned, or the connection object is reset. -/
def Unteaches (database : AttDatabase) (conHandle value : UInt16) (program : Program)
    (event : ProgramEvent) : Prop :=
  (∃ other, other ≠ value ∧ event.Teaches database conHandle other) ∨
    event.Resets conHandle program

variable {database : AttDatabase} {event : ProgramEvent} {conHandle : UInt16}
  {change : Link → Link}

/-- An event of GATT reports nothing; it tells the value handle of the link or leaves it, and the
link stays as open as it was. -/
structure Telling (database : AttDatabase) (event : ProgramEvent) (conHandle : UInt16)
    (change : Link → Link) : Prop where
  silent : event.reports = none
  others : ∀ other value, event.Teaches database other value → other = conHandle
  connected : ∀ link, (change link).connected = link.connected
  role : ∀ link, (change link).role = link.role
  value : (∃ value, event.Teaches database conHandle value ∧
      ∀ link, (change link).packetCharacteristicValueHandle = value) ∨
    (∀ value, ¬ event.Teaches database conHandle value) ∧
      ∀ link, (change link).packetCharacteristicValueHandle =
        link.packetCharacteristicValueHandle

/-- What tells no value handle. -/
theorem Telling.of_silent {gattEvent : GattClientEvent}
    (teaches : ∀ other value,
      ¬ (handleGattClientEvent gattEvent).Teaches database other value)
    (keeps : ∀ link, (change link).connected = link.connected ∧
      (change link).role = link.role ∧
      (change link).packetCharacteristicValueHandle = link.packetCharacteristicValueHandle) :
    Telling database (.handleGattClientEvent gattEvent) conHandle change where
  silent := rfl
  others other value taught := (teaches other value taught).elim
  connected link := (keeps link).1
  role link := (keeps link).2.1
  value := Or.inr ⟨teaches conHandle, fun link => (keeps link).2.2⟩

theorem telling_of_tells (told : event.tells database = some (conHandle, change)) :
    Telling database event conHandle change := by
  cases event with
  | attWriteCallback uptime address connectionHandle attHandle transactionMode offset buffer =>
      rw [tells] at told
      split at told
      · rename_i configuration
        obtain ⟨rfl, rfl⟩ := configuration
        cases told
        refine ⟨rfl, ?_, fun _ => rfl, fun _ => rfl, ?_⟩
        · intro other value teaches
          cases teaches
          rfl
        · cases enabled : littleEndianRead16 buffer == configurationNotification with
          | true =>
              refine Or.inl ⟨database.valueHandle, .enabled (beq_iff_eq.mp enabled) rfl, ?_⟩
              intro link
              simp [Link.configure, enabled]
          | false =>
              refine Or.inr ⟨?_, fun link => by simp [Link.configure, enabled]⟩
              intro value teaches
              cases teaches with
              | enabled notifies => simp [notifies] at enabled
      · cases told
  | handleGattClientEvent event =>
      cases event with
      | mtu handle mtu =>
          cases told
          exact .of_silent (by rintro other value ⟨⟩) fun link => ⟨rfl, rfl, rfl⟩
      | serviceQueryResult handle service =>
          rw [tells] at told
          split at told <;> cases told
          exact .of_silent (by rintro other value ⟨⟩) fun link => ⟨rfl, rfl, rfl⟩
      | characteristicQueryResult handle characteristic =>
          rw [tells] at told
          split at told <;> cases told
          rename_i found
          refine ⟨rfl, ?_, fun _ => rfl, fun _ => rfl,
            Or.inl ⟨_, .discovered found.1 found.2 rfl, fun _ => rfl⟩⟩
          intro other value teaches
          cases teaches
          rfl
      | queryComplete | other => cases told
  | _ => cases told

theorem Teaches.unique {left right : UInt16} (first : event.Teaches database conHandle left)
    (second : event.Teaches database conHandle right) : left = right := by
  cases first with
  | discovered _ _ same =>
      cases second with
      | discovered _ _ other => exact same.symm.trans other
  | enabled _ same =>
      cases second with
      | enabled _ other => exact same.symm.trans other

/-- An event that tells nothing of a link teaches no value handle. -/
theorem not_teaches_of_tells (told : event.tells database = none) (value : UInt16) :
    ¬ event.Teaches database conHandle value := by
  intro teaches
  cases teaches with
  | discovered short same => simp [tells, short, same] at told
  | enabled => simp [tells] at told

/-- What an event does to the link of a handle: it tells something of it, or it reports
something, or it leaves it alone. -/
inductive Moves (database : AttDatabase) (tracker : Tracker) (handle : UInt16) (link : Link)
    (event : ProgramEvent) : Link → Prop where
  | tells {change : Link → Link} : Telling database event handle change →
      Moves database tracker handle link event (change link)
  | reports {operation : Operation} {after : Link} : event.reports = some operation →
      (∀ value, ¬ event.Teaches database handle value) →
      Relinks tracker handle link operation after →
      Moves database tracker handle link event after
  | leaves : event.reports = none → (∀ value, ¬ event.Teaches database handle value) →
      Moves database tracker handle link event link

theorem moves (database : AttDatabase) (tracker : Tracker) (event : ProgramEvent)
    (handle : UInt16) (link : Link) :
    Moves database tracker handle link event (event.relink database tracker handle link) := by
  unfold relink
  cases told : event.tells database with
  | some both =>
      obtain ⟨conHandle, change⟩ := both
      have telling := telling_of_tells told
      dsimp only
      split
      · rename_i same
        cases same
        exact .tells telling
      · rename_i other
        exact .leaves telling.silent
          fun value teaches => other (telling.others handle value teaches)
  | none =>
      have teaches := fun value => @not_teaches_of_tells _ _ handle told value
      cases reported : event.reports with
      | some operation =>
          exact .reports reported teaches (relinks tracker handle link operation)
      | none => exact .leaves reported teaches

/-! ## What an event brings, one field each -/

section Fields

variable {tracker : Tracker} {handle : UInt16} {after : Link}

/-- A report says of the handle whether it is connected. -/
theorem Moves.connected
    (moves : Moves database tracker handle (tracker.linkAt handle) event after) :
    after.connected = true ↔ event.Opens handle ∨
      (tracker.linkAt handle).connected = true ∧ ¬ event.Closes handle := by
  cases moves with
  | tells telling =>
      have silent := telling.silent
      rw [telling.connected]
      simp [Opens, Closes, silent]
  | leaves silent => simp [Opens, Closes, silent]
  | reports reported _ relinks =>
      simp only [Opens, Closes, reported, Option.some.injEq]
      cases relinks with
      | opens opened => exact iff_of_true rfl (Or.inl ⟨_, _, rfl, opened⟩)
      | closes =>
          refine iff_of_false (by simp) ?_
          rintro (⟨_, _, rfl, opened⟩ | ⟨_, stays⟩)
          · exact opened
          · exact stays rfl
      | @erases uptime entry found stale =>
          -- what the clean-up erases was disconnected
          have closed : (tracker.linkAt handle).connected = false := by
            rw [linkAt, found]
            simp only [connectionStale, Bool.and_eq_true, Bool.not_eq_true'] at stale
            exact stale.1
          refine iff_of_false (by simp) ?_
          rintro (⟨_, _, rfl, opened⟩ | ⟨connected, _⟩)
          · exact opened
          · rw [closed] at connected
            cases connected
      | leaves closed other _ =>
          constructor
          · exact fun connected => Or.inr ⟨connected, other⟩
          · rintro (⟨_, addr, rfl, opened⟩ | ⟨connected, _⟩)
            · exact (closed addr opened).elim
            · exact connected

/-- A report may say what the own role is; a reset forgets it. -/
theorem Moves.role {link : Link} (moves : Moves database tracker handle link event after)
    {role : UInt8} (valid : role ≠ hciRoleInvalid) {program : Program}
    (same : program.tracker = tracker) :
    after.role = role ↔ event.Casts handle role ∨
      link.role = role ∧ ¬ event.Recasts handle role program := by
  subst same
  cases moves with
  | tells telling =>
      rw [telling.role]
      simp [Casts, Recasts, Resets, telling.silent]
  | leaves silent => simp [Casts, Recasts, Resets, silent]
  | @reports operation _ reported _ relinks =>
      have casts : ∀ other, event.Casts handle other ↔
          (∃ addr, operation.Opens handle addr) ∧ operation.cast = some other := by
        simp [Casts, reported]
      have resets : event.Resets handle program ↔ operation.Resets program.tracker handle := by
        simp [Resets, reported]
      simp only [Recasts, casts, resets]
      cases relinks with
      | @opens _ addr opened =>
          have opens : ∃ addr, operation.Opens handle addr := ⟨addr, opened⟩
          rw [resets_of_opens opened]
          by_cases listed : (program.tracker.availableNeighbours.find? addr).isSome = true
          · cases reportedRole : operation.cast <;> simp [Link.renewed, listed, opens, valid.symm]
          · cases reportedRole : operation.cast with
            | none => simp [Link.renewed, listed]
            | some other =>
                simp only [Option.getD_some, opens, Option.some.injEq, true_and, listed]
                grind
      | closes => simp [Operation.Opens, Operation.Resets]
      | @erases uptime entry found stale =>
          refine iff_of_false valid.symm ?_
          rintro (⟨⟨_, opened⟩, _⟩ | ⟨_, stays⟩)
          · exact opened
          · refine stays (Or.inr (Or.inr ⟨uptime, rfl, ?_⟩))
            rw [found]
            exact stale
      | leaves closed _ stays => simp [closed, stays]

/-- An event that teaches says what the value handle is; a reset forgets it. -/
theorem Moves.value {link : Link} (moves : Moves database tracker handle link event after)
    {value : UInt16} (nonzero : value ≠ 0) {program : Program}
    (same : program.tracker = tracker) :
    after.packetCharacteristicValueHandle = value ↔ event.Teaches database handle value ∨
      link.packetCharacteristicValueHandle = value ∧
        ¬ event.Unteaches database handle value program := by
  subst same
  cases moves with
  | tells telling =>
      have kept : ¬ event.Resets handle program := by
        rintro ⟨operation, reported, _⟩
        rw [telling.silent] at reported
        cases reported
      rcases telling.value with ⟨taught, teaches, learned⟩ | ⟨untaught, unchanged⟩
      · rw [learned]
        constructor
        · rintro rfl
          exact Or.inl teaches
        · rintro (other | ⟨_, stays⟩)
          · exact teaches.unique other
          · exact not_ne_iff.mp fun differs => stays (Or.inl ⟨taught, differs, teaches⟩)
      · rw [unchanged]
        simp [Unteaches, untaught, kept]
  | leaves silent untaught => simp [Unteaches, Resets, silent, untaught]
  | @reports operation _ reported untaught relinks =>
      have forgets : event.Unteaches database handle value program ↔
          operation.Resets program.tracker handle := by
        simp [Unteaches, Resets, reported, untaught]
      rw [forgets, or_iff_right (untaught value)]
      cases relinks with
      | @opens _ addr opened =>
          rw [resets_of_opens opened]
          by_cases listed : (program.tracker.availableNeighbours.find? addr).isSome = true
          · simp [Link.renewed, listed, nonzero.symm]
          · simp [Link.renewed, listed]
      | closes => simp [Operation.Resets, Operation.Opens]
      | erases found stale =>
          refine iff_of_false nonzero.symm fun both => both.2 (Or.inr ⟨_, rfl, ?_⟩)
          rw [found]
          exact stale
      | leaves _ _ stays => exact (and_iff_left stays).symm

end Fields

end ProgramEvent

/-! ## Runs -/

section Runs

variable {surroundings : Surroundings} {address : Address} {events : List ProgramEvent}
  {finish : Program}

end Runs

namespace Tracker

variable {tracker : Tracker} {handle : UInt16}

section Calls

variable {after : Tracker} {targeted broadcast : List Consideration}

end Calls

end Tracker

end BleRepeater
