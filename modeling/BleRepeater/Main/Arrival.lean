import BleRepeater.Main.Receiving

/-!
# The link over which a packet arrives

A packet comes in by `att_write_callback` or as a notification.  Both callbacks look up the
connection and hand it to `processWrite`, but the second one takes a copy of it.  What is
recorded as the link of arrival is then the address of a local variable.
-/

namespace BleRepeater

open Transition Tracker ProtocolProcessor Repeater

/-! ## The callbacks -/

/-- The attribute handles that are assigned to the characteristic of `ble_repeater.gatt`
when the program is built. -/
structure AttDatabase where
  clientConfigurationHandle : UInt16
  valueHandle : UInt16
  distinct : clientConfigurationHandle ≠ valueHandle

def attTransactionModeNone : UInt16 := 0

/-- `GATT_CLIENT_CHARACTERISTICS_CONFIGURATION_NOTIFICATION`. -/
def configurationNotification : UInt16 := 1

/-- `little_endian_read_16` at the start of a buffer. -/
def littleEndianRead16 (buffer : Buffer) : UInt16 :=
  (buffer.bytes.getD 0 0).toUInt16 ||| (buffer.bytes.getD 1 0).toUInt16 <<< 8

/-- What a write to the client configuration sets in the connection. -/
def configure (database : AttDatabase) (buffer : Buffer) (context : BleConnection) :
    BleConnection :=
  let enabled := littleEndianRead16 buffer == configurationNotification
  { context with
    notificationEnabled := enabled
    packetCharacteristicValueHandle :=
      if enabled then database.valueHandle else context.packetCharacteristicValueHandle }

/-- `att_write_callback`; what is stored comes to lie at `address`. -/
def attWriteCallback (platform : Platform) (database : AttDatabase) (repeater : Repeater)
    (uptime : UInt64) (address : Address)
    (connectionHandle attHandle transactionMode offset : UInt16) (buffer : Buffer) :
    Option Repeater :=
  if transactionMode ≠ attTransactionModeNone then
    some repeater
  else
    let (context, tracker) := repeater.tracker.connectionForConnHandle connectionHandle
    if attHandle = database.clientConfigurationHandle then
      some { repeater with
        tracker := tracker.updateConnection context (configure database buffer) }
    else if attHandle = database.valueHandle then do
      let connection ← tracker.connectionAt context
      let tracker ← processWrite platform tracker uptime address context
        connection.connectionHandle offset buffer
      return { repeater with tracker }
    else
      some { repeater with tracker }

/-- The events that `handle_gatt_client_value_update_event` knows. -/
inductive ValueUpdate where
  | notification (handle : UInt16) (value : Buffer)
  | indication (handle : UInt16) (value : Buffer)

/-- `handle_gatt_client_value_update_event`. -/
def handleGattClientValueUpdateEvent (platform : Platform) (repeater : Repeater)
    (uptime : UInt64) (address : Address) : ValueUpdate → Option Repeater
  | .notification handle value => do
      let (found, tracker) := repeater.tracker.connectionForConnHandle handle
      let object ← tracker.connectionAt found
      -- `auto` copies the object, and the copy is gone when the callback returns
      let (connection, tracker) := tracker.outsideRef handle
      let tracker ← processWrite platform tracker uptime address connection
        object.connectionHandle 0 value
      return { repeater with tracker }
  | .indication _ _ => some repeater

/-- The two callbacks that receive packets, and all other events. -/
inductive Callback where
  | attWriteCallback (uptime : UInt64) (address : Address)
      (connectionHandle attHandle transactionMode offset : UInt16) (buffer : Buffer)
  | handleGattClientValueUpdateEvent (uptime : UInt64) (address : Address)
      (update : ValueUpdate)
  | other (event : Event)

namespace Callback

def apply (platform : Platform) (database : AttDatabase) (repeater : Repeater) :
    Callback → Option Repeater
  | .attWriteCallback uptime address connectionHandle attHandle transactionMode offset
      buffer =>
      BleRepeater.attWriteCallback platform database repeater uptime address
        connectionHandle attHandle transactionMode offset buffer
  | .handleGattClientValueUpdateEvent uptime address update =>
      BleRepeater.handleGattClientValueUpdateEvent platform repeater uptime address update
  | .other event => event.apply platform repeater

/-- New objects come to lie where nothing is, and packets are received by the two callbacks
alone. -/
def Allowed (repeater : Repeater) : Callback → Prop
  | .attWriteCallback _ address .. => repeater.tracker.packetAt address = none
  | .handleGattClientValueUpdateEvent _ address _ =>
      repeater.tracker.packetAt address = none
  | .other (.processWrite ..) => False
  | .other event => event.Allowed repeater

/-- Setters leave handles alone. -/
def KeepsHandles : Callback → Prop
  | .other (.tracker operation) => operation.KeepsHandles
  | _ => True

/-- No clean-up. -/
def Lasts : Callback → Prop
  | .other event => event.Lasts
  | _ => True

/-- The callback brings a new packet over the connection with a handle; it comes to lie at
an address. -/
def Brings (platform : Platform) (database : AttDatabase) (repeater : Repeater)
    (handle : UInt16) (packet : Address) : Callback → Prop
  | .attWriteCallback _ address connectionHandle attHandle transactionMode offset buffer =>
      transactionMode = attTransactionModeNone ∧ attHandle = database.valueHandle ∧
        connectionHandle = handle ∧ address = packet ∧
        (received offset buffer).New platform repeater.tracker
  | .handleGattClientValueUpdateEvent _ address (.notification connectionHandle value) =>
      connectionHandle = handle ∧ address = packet ∧
        (received 0 value).New platform repeater.tracker
  | _ => False

/-- The callback is `att_write_callback`. -/
def ByWrite : Callback → Prop
  | .attWriteCallback .. => True
  | _ => False

end Callback

/-- One callback. -/
def CallbackStep (platform : Platform) (database : AttDatabase) (before : Repeater)
    (callback : Callback) (after : Repeater) : Prop :=
  callback.Allowed before ∧ callback.apply platform database before = some after

/-! ## What callbacks keep -/

theorem packetAt_connectionForConnHandle (tracker : Tracker) (handle : UInt16)
    (packet : Address) :
    (tracker.connectionForConnHandle handle).2.packetAt packet = tracker.packetAt packet := by
  unfold connectionForConnHandle connectionsIndex
  split
  · split <;> rfl
  · rfl

theorem untargeted_of_direct {operation : Operation} (main : direct operation = true)
    (packet : Address) (connection : BleConnection) :
    operation ≠ .enqueueTargetedPacket packet connection := by
  rintro rfl
  cases main

section Callbacks

variable {platform : Platform} {database : AttDatabase} {before after : Repeater}
  {callback : Callback}

/-- What operations, received packets, and connection objects outside the map keep, a
callback keeps. -/
theorem invariant_of_callback (property : Tracker → Prop)
    (separate : before.tracker.Separate)
    (step : CallbackStep platform database before callback after)
    (keeps : callback.KeepsHandles)
    (operates : ∀ {start operation finish}, property start → operation.KeepsHandles →
      (callback.Lasts → operation.Lasts) →
      (∀ packet connection, operation ≠ .enqueueTargetedPacket packet connection) →
      OperationStep platform start operation finish → property finish)
    (receives : ∀ {start finish fresh}, property start → start.announce.address ≠ fresh →
      Receives start finish fresh → property finish)
    (outside : ∀ {start} handle, property start → property (start.outsideRef handle).2)
    (initial : property before.tracker) :
    after.tracker.Separate ∧ property after.tracker := by
  have finds : ∀ handle, OperationStep platform before.tracker
      (.connectionForConnHandle handle)
      (before.tracker.connectionForConnHandle handle).2 := fun _ => ⟨trivial, rfl⟩
  have found : ∀ handle, (callback.Lasts →
      (Operation.connectionForConnHandle handle).Lasts) →
      (before.tracker.connectionForConnHandle handle).2.Separate ∧
      property (before.tracker.connectionForConnHandle handle).2 :=
    fun handle lasts =>
      have leaves : (Operation.connectionForConnHandle handle).KeepsHandles := trivial
      ⟨separate.step (finds handle),
        operates initial leaves lasts (by simp) (finds handle)⟩
  cases callback with
  | attWriteCallback uptime address connectionHandle attHandle transactionMode offset
      buffer =>
      obtain ⟨free, done⟩ := step
      have middle := found connectionHandle fun _ => ⟨trivial, by simp⟩
      simp only [Callback.apply, attWriteCallback] at done
      split at done
      · cases done
        exact ⟨separate, initial⟩
      · split at done
        · cases done
          have sets : OperationStep platform
              (before.tracker.connectionForConnHandle connectionHandle).2
              (.updateConnection (before.tracker.connectionForConnHandle connectionHandle).1
                (configure database buffer)) _ := ⟨trivial, rfl⟩
          have same : (Operation.updateConnection
              (before.tracker.connectionForConnHandle connectionHandle).1
              (configure database buffer)).KeepsHandles := fun _ => ⟨rfl, rfl⟩
          exact ⟨middle.1.step sets,
            operates middle.2 same (fun _ => ⟨same, by simp⟩) (by simp) sets⟩
        · split at done
          · simp only [Option.bind_eq_bind, Option.bind_eq_some_iff] at done
            obtain ⟨connection, _, tracker, processed, same⟩ := done
            cases same
            change Tracker.packetAt _ _ = none at free
            rw [← packetAt_connectionForConnHandle _ connectionHandle] at free
            obtain ⟨effect, apart⟩ := receives_of_processWrite middle.1 free processed
            exact ⟨apart, receives middle.2 (announce_ne_of_free free) effect⟩
          · cases done
            exact middle
  | handleGattClientValueUpdateEvent uptime address update =>
      obtain ⟨free, done⟩ := step
      cases update with
      | indication handle value =>
          cases done
          exact ⟨separate, initial⟩
      | notification handle value =>
          have middle := found handle fun _ => ⟨trivial, by simp⟩
          simp only [Callback.apply, handleGattClientValueUpdateEvent, Option.bind_eq_bind,
            Option.bind_eq_some_iff] at done
          obtain ⟨object, _, tracker, processed, same⟩ := done
          cases same
          have copies : Relists (before.tracker.connectionForConnHandle handle).2
              ((before.tracker.connectionForConnHandle handle).2.outsideRef handle).2
              nothing nothing := .of_shelf rfl
          have copied := copies.separate middle.1
          change Tracker.packetAt _ _ = none at free
          rw [← packetAt_connectionForConnHandle _ handle] at free
          obtain ⟨effect, apart⟩ := receives_of_processWrite copied free processed
          exact ⟨apart,
            receives (outside handle middle.2) (announce_ne_of_free free) effect⟩
  | other event =>
      have occurs : EventStep platform before event after := by
        refine ⟨?_, step.2⟩
        have allowed := step.1
        cases event with
        | processWrite => exact allowed.elim
        | _ => exact allowed
      refine ⟨separate_of_event separate occurs, ?_⟩
      rcases receives_or_operation separate occurs with ⟨⟨fresh, other, effect⟩, _⟩ |
        ⟨operation, rfl, main, operation_step⟩
      · exact receives initial other effect
      · exact operates initial keeps id (untargeted_of_direct main) operation_step

/-- The handles are known, and nothing but the announce is targeted. -/
structure Linked (tracker : Tracker) : Prop where
  known : tracker.HandlesKnown
  targeted : ∀ entry ∈ tracker.targetedPacketsToSendList.entries,
    entry.1 = tracker.announce.address

theorem linked_new (address : Address) : Linked (Tracker.new address) :=
  ⟨handlesKnown_new address, by simp [Tracker.new]⟩

theorem Linked.operation {start finish : Tracker} {operation : Operation}
    (linked : Linked start) (keeps : operation.KeepsHandles)
    (untargeted : ∀ packet connection, operation ≠ .enqueueTargetedPacket packet connection)
    (step : OperationStep platform start operation finish) : Linked finish := by
  obtain ⟨place, _, targeted⟩ := places_of_step step
  refine ⟨linked.known.keeps step keeps, ?_⟩
  intro entry member
  rw [place]
  rcases targeted entry member with old | new
  · exact linked.targeted entry old
  · cases operation with
    | enqueueTargetedPacket packet connection =>
        exact absurd rfl (untargeted packet connection)
    | announceToConnections uptime => exact Eq.symm new
    | _ => exact new.elim

theorem Linked.receives {start finish : Tracker} {fresh : Address} (linked : Linked start)
    (receives : Receives start finish fresh) : Linked finish := by
  refine ⟨receives.handlesKnown linked.known, ?_⟩
  intro entry member
  rw [receives.targeted] at member
  rw [receives.announce]
  exact linked.targeted entry member

/-- A copy of a connection is no connection. -/
theorem Linked.outside {start : Tracker} (handle : UInt16) (linked : Linked start) :
    Linked (start.outsideRef handle).2 where
  known := ⟨linked.known.connected,
    fun ref there => Nat.lt_succ_of_lt (linked.known.created ref there)⟩
  targeted := linked.targeted

theorem linked_of_callback (separate : before.tracker.Separate)
    (linked : Linked before.tracker)
    (step : CallbackStep platform database before callback after)
    (keeps : callback.KeepsHandles) : after.tracker.Separate ∧ Linked after.tracker :=
  invariant_of_callback Linked separate step keeps
    (fun linked keeps _ untargeted step => linked.operation keeps untargeted step)
    (fun linked _ receives => linked.receives receives)
    (fun handle linked => linked.outside handle) linked

/-! ## The entry of a received packet -/

theorem connected_of_available {tracker : Tracker} {ref : ConnectionRef}
    (listed : ref ∈ tracker.availableConnections) :
    ∃ connection, tracker.connectionAt ref = some connection ∧
      connection.connected = true := by
  obtain ⟨⟨key, generation, connection⟩, member, same⟩ := List.mem_map.mp listed
  obtain ⟨inside, open'⟩ := List.mem_filter.mp member
  cases same
  have there : tracker.connectionAt ⟨key, generation⟩ = some connection :=
    connectionAt_eq_some_iff.mpr (OrderedMap.find?_eq_some_iff.mpr inside)
  exact ⟨connection, there, (Bool.and_eq_true _ _ ▸ open').1⟩

/-- At most one pointer of a key leads somewhere. -/
theorem ref_eq_of_live {tracker : Tracker} {ref other : ConnectionRef}
    {connection : BleConnection} (key : other.key = ref.key)
    (there : tracker.connectionAt other = some connection)
    (live : (tracker.connectionAt ref).isSome) : other = ref := by
  obtain ⟨object, found⟩ := Option.isSome_iff_exists.mp live
  have left := connectionAt_eq_some_iff.mp there
  have right := connectionAt_eq_some_iff.mp found
  rw [key, right] at left
  exact ref_eq key (congrArg ConnectionEntry.generation (Option.some.inj left)).symm

/-- A connection that is there is recorded for a packet of someone else. -/
structure Held (packet : Address) (ref : ConnectionRef) (tracker : Tracker) : Prop where
  linked : Linked tracker
  stored : packet ≠ tracker.announce.address
  there : (tracker.connectionAt ref).isSome
  recorded : (packet, ref) ∈ tracker.packetsConnectionsSentList.entries

theorem Held.operation {start finish : Tracker} {operation : Operation} {packet : Address}
    {ref : ConnectionRef} (held : Held packet ref start) (lasts : operation.Lasts)
    (untargeted : ∀ packet connection, operation ≠ .enqueueTargetedPacket packet connection)
    (step : OperationStep platform start operation finish) : Held packet ref finish := by
  have connects := connects_of_step step lasts.noCleanup
  have created := held.linked.known.created ref held.there
  refine ⟨held.linked.operation lasts.keepsHandles untargeted step, ?_,
    connects.live held.there, connects.remembered _ held.recorded created⟩
  rw [(places_of_step step).1]
  exact held.stored

theorem Held.receives {start finish : Tracker} {fresh packet : Address}
    {ref : ConnectionRef} (held : Held packet ref start)
    (receives : Receives start finish fresh) : Held packet ref finish where
  linked := held.linked.receives receives
  stored := receives.announce.symm ▸ held.stored
  there := (receives.connectionAt ref).symm ▸ held.there
  recorded := receives.remembered _ held.recorded

theorem Held.outside {start : Tracker} {packet : Address} {ref : ConnectionRef}
    (handle : UInt16) (held : Held packet ref start) :
    Held packet ref (start.outsideRef handle).2 :=
  ⟨held.linked.outside handle, held.stored, held.there, held.recorded⟩

theorem held_of_callbacks {packet : Address} {ref : ConnectionRef}
    {callbacks : List Callback} (separate : before.tracker.Separate)
    (held : Held packet ref before.tracker)
    (run : Run (Guarded (fun _ callback => callback.KeepsHandles ∧ callback.Lasts)
      (CallbackStep platform database)) before callbacks after) :
    Held packet ref after.tracker := by
  have preserved : ∀ {start callback finish},
      start.tracker.Separate ∧ Held packet ref start.tracker →
      Guarded (fun _ callback => callback.KeepsHandles ∧ callback.Lasts)
        (CallbackStep platform database) start callback finish →
      finish.tracker.Separate ∧ Held packet ref finish.tracker := by
    intro start callback finish both step
    obtain ⟨⟨keeps, lasts⟩, step⟩ := step
    exact invariant_of_callback (Held packet ref) both.1 step keeps
      (fun held _ operationLasts untargeted step =>
        held.operation (operationLasts lasts) untargeted step)
      (fun held _ receives => held.receives receives)
      (fun handle held => held.outside handle) both.2
  exact (run.invariant preserved ⟨separate, held⟩).2

/-- A packet is not sendable to a connection whose handle is recorded for it. -/
theorem not_sendable {tracker : Tracker} {packet : Address} {connection ref : ConnectionRef}
    {handle : UInt16} (decided : tracker.sendable packet connection = some true)
    (handled : tracker.handleAt connection = some handle)
    (recorded : (packet, ref) ∈ tracker.packetsConnectionsSentList.entries) :
    tracker.handleAt ref ≠ some handle := by
  obtain ⟨other, there, visited⟩ := Option.bind_eq_some_iff.mp decided
  cases handled.symm.trans there
  have listed : (packet, ref) ∈ tracker.packetsConnectionsSentList.find packet :=
    MultiMap.mem_find.mpr ⟨⟨ref, recorded⟩, recorded, Nat.le_refl _⟩
  exact visitHandles_true visited _ listed

/-- The packet is never handed to the handle of the connection that is recorded. -/
theorem Held.not_handed {tracker last : Tracker} {targeted broadcast : List Consideration}
    {packet : Address} {ref : ConnectionRef} (held : Held packet ref tracker)
    (sent : tracker.sendPackets = some (last, targeted, broadcast))
    {consideration : Consideration} (member : consideration ∈ targeted ++ broadcast)
    (same : consideration.packet = packet) (handed : consideration.handed = true) :
    consideration.before.handleAt consideration.connection ≠ some ref.key := by
  have effect := sendPackets_sendsOnly sent
  rcases List.mem_append.mp member with first | second
  · have listed := effect.pair_of_targeted first
    exact absurd (same.symm.trans (held.linked.targeted _ listed)) held.stored
  · have decided := (decided_of_sendPackets sent).2 consideration second
    have open' := (mem_broadcastPairs.mp (effect.pair_of_broadcast second)).2
    obtain ⟨connection, there, connected⟩ := connected_of_available open'
    intro handled
    have key : consideration.connection.key = ref.key := by
      have known := held.linked.known.connected _ connection there connected
      rw [handleAt_of_settled decided.settled, handleAt, there, Option.map_some,
        Option.some.injEq] at handled
      exact known.symm.trans handled
    have ours : consideration.connection = ref :=
      ref_eq_of_live key there held.there
    have decision := decided.decision
    rw [handed, same] at decision
    have recorded := decided.sent _ held.recorded
    exact not_sendable decision handled recorded (ours ▸ handled)

/-! ## The two paths -/

theorem sent_connectionForConnHandle (tracker : Tracker) (handle : UInt16) :
    (tracker.connectionForConnHandle handle).2.packetsConnectionsSentList =
      tracker.packetsConnectionsSentList :=
  congrArg Shelf.sent (shelf_connectionForConnHandle tracker handle)

theorem new_connectionForConnHandle {tracker : Tracker} {handle : UInt16}
    {received : Received} (new : received.New platform tracker) :
    received.New platform (tracker.connectionForConnHandle handle).2 := by
  have same := shelf_connectionForConnHandle tracker handle
  have messages : (tracker.connectionForConnHandle handle).2.messages = tracker.messages :=
    congrArg Shelf.messages same
  have packets : (tracker.connectionForConnHandle handle).2.packets = tracker.packets :=
    congrArg Shelf.packets same
  cases received with
  | ignored => exact new
  | announce announce => rwa [Received.New, packets]
  | message message => rwa [Received.New, messages]

theorem key_connectionForConnHandle (tracker : Tracker) (handle : UInt16) :
    (tracker.connectionForConnHandle handle).1.key = handle := by
  unfold connectionForConnHandle
  split <;> exact key_connectionsIndex tracker handle

/-- The sent-list entry that is made for a packet refers to the connection under a handle.
In every later state of a run without clean-ups the entry can be followed, and what
`sendPackets` hands over of the packet does not go to the handle. -/
def RecordsArrival (platform : Platform) (database : AttDatabase) (handle : UInt16)
    (packet : Address) (before after : Repeater) : Prop :=
  ∃ ref, ref.key = handle ∧ (after.tracker.connectionAt ref).isSome ∧
    after.tracker.packetsConnectionsSentList =
      before.tracker.packetsConnectionsSentList.emplace packet ref ∧
    ∀ callbacks later,
      Run (Guarded (fun _ callback => callback.KeepsHandles ∧ callback.Lasts)
        (CallbackStep platform database)) after callbacks later →
      (later.tracker.connectionAt ref).isSome ∧
        ∀ next targeted broadcast consideration,
          later.tracker.sendPackets = some (next, targeted, broadcast) →
          consideration ∈ targeted ++ broadcast → consideration.packet = packet →
          consideration.handed = true →
          consideration.before.handleAt consideration.connection ≠ some handle

theorem recordsArrival_of_write {uptime : UInt64} {packet : Address}
    {handle attHandle transactionMode offset : UInt16} {buffer : Buffer}
    (separate : before.tracker.Separate) (linked : Linked before.tracker)
    (brings : Callback.Brings platform database before handle packet
      (.attWriteCallback uptime packet handle attHandle transactionMode offset buffer))
    (step : CallbackStep platform database before
      (.attWriteCallback uptime packet handle attHandle transactionMode offset buffer)
      after) :
    RecordsArrival platform database handle packet before after := by
  obtain ⟨separateAfter, linkedAfter⟩ := linked_of_callback separate linked step trivial
  obtain ⟨plain, value, _, _, new⟩ := brings
  obtain ⟨free, done⟩ := step
  have other : attHandle ≠ database.clientConfigurationHandle := fun same =>
    database.distinct (same.symm.trans value)
  simp only [Callback.apply, attWriteCallback, if_neg (not_not.mpr plain), if_neg other,
    if_pos value, Option.bind_eq_bind, Option.bind_eq_some_iff] at done
  obtain ⟨connection, there, tracker, processed, same⟩ := done
  cases same
  have board := board_processWrite_new (new_connectionForConnHandle new) processed
  have sent := congrArg Board.sent board
  have connections : tracker.connections =
      (before.tracker.connectionForConnHandle handle).2.connections :=
    congrArg Board.connections board
  change tracker.packetsConnectionsSentList = (before.tracker.connectionForConnHandle
    handle).2.packetsConnectionsSentList.emplace packet _ at sent
  rw [sent_connectionForConnHandle] at sent
  have live : (tracker.connectionAt
      (before.tracker.connectionForConnHandle handle).1).isSome := by
    rw [connectionAt, connections]
    exact Option.isSome_iff_exists.mpr ⟨connection, there⟩
  have place : tracker.announce.address = before.tracker.announce.address := by
    have finds : OperationStep platform before.tracker (.connectionForConnHandle handle)
        (before.tracker.connectionForConnHandle handle).2 := ⟨trivial, rfl⟩
    have same := (places_of_step finds).1
    change Tracker.packetAt _ _ = none at free
    rw [← packetAt_connectionForConnHandle _ handle] at free
    have receives := (receives_of_processWrite (separate.step finds) free processed).1
    exact receives.announce.trans same
  have held : Held packet (before.tracker.connectionForConnHandle handle).1 tracker := by
    refine ⟨linkedAfter, ?_, live, ?_⟩
    · rw [place]
      exact (announce_ne_of_free free).symm
    · rw [sent]
      exact MultiMap.mem_emplace.mpr (Or.inl rfl)
  have key := key_connectionForConnHandle before.tracker handle
  refine ⟨_, key, live, sent, ?_⟩
  intro callbacks later run
  have stays := held_of_callbacks separateAfter held run
  refine ⟨stays.there, ?_⟩
  intro next targeted broadcast consideration called member same handed
  have never := stays.not_handed called member same handed
  rwa [key] at never

/-- Of a packet that is processed with a copy, the address of the copy is recorded. -/
theorem processWrite_copy {tracker last : Tracker} {uptime : UInt64} {packet : Address}
    {handle conHandle offset : UInt16} {buffer : Buffer}
    (new : (received offset buffer).New platform tracker)
    (done : processWrite platform (tracker.outsideRef handle).2 uptime packet
      (tracker.outsideRef handle).1 conHandle offset buffer = some last) :
    last.connections = tracker.connections ∧
      last.packetsConnectionsSentList = tracker.packetsConnectionsSentList.emplace packet
        ⟨handle, tracker.nextGeneration⟩ := by
  have newer : (received offset buffer).New platform (tracker.outsideRef handle).2 := by
    cases found : received offset buffer <;> rw [found] at new <;> exact new
  have board := board_processWrite_new newer done
  exact ⟨congrArg Board.connections board, congrArg Board.sent board⟩

theorem not_recordsArrival_of_notification {uptime : UInt64} {packet : Address}
    {handle : UInt16} {value : Buffer} (linked : Linked before.tracker)
    (brings : Callback.Brings platform database before handle packet
      (.handleGattClientValueUpdateEvent uptime packet (.notification handle value)))
    (step : CallbackStep platform database before
      (.handleGattClientValueUpdateEvent uptime packet (.notification handle value)) after) :
    ¬ RecordsArrival platform database handle packet before after := by
  obtain ⟨_, _, new⟩ := brings
  obtain ⟨_, done⟩ := step
  simp only [Callback.apply, handleGattClientValueUpdateEvent, Option.bind_eq_bind,
    Option.bind_eq_some_iff] at done
  obtain ⟨object, _, tracker, processed, same⟩ := done
  cases same
  rintro ⟨ref, _, live, recorded, _⟩
  obtain ⟨connections, sent⟩ := processWrite_copy (new_connectionForConnHandle new) processed
  rw [sent_connectionForConnHandle] at sent
  have copy := MultiMap.emplace_inj (recorded.symm.trans sent)
  subst copy
  have finds : OperationStep platform before.tracker (.connectionForConnHandle handle)
      (before.tracker.connectionForConnHandle handle).2 := ⟨trivial, rfl⟩
  have known := linked.known.keeps finds trivial
  -- the copy has a generation that no object has yet
  have copied := known.created ⟨handle,
    (before.tracker.connectionForConnHandle handle).2.nextGeneration⟩
  rw [connectionAt, ← connections] at copied
  exact Nat.lt_irrefl _ (copied live)

theorem linked_of_callbacks {address : Address} {callbacks : List Callback}
    (run : Run (Guarded (fun _ callback => callback.KeepsHandles)
      (CallbackStep platform database)) (Repeater.new address) callbacks before) :
    before.tracker.Separate ∧ Linked before.tracker := by
  have preserved : ∀ {start callback finish},
      start.tracker.Separate ∧ Linked start.tracker →
      Guarded (fun _ callback => callback.KeepsHandles) (CallbackStep platform database)
        start callback finish → finish.tracker.Separate ∧ Linked finish.tracker := by
    intro start callback finish both step
    exact linked_of_callback both.1 both.2 step.2 step.1
  exact run.invariant preserved ⟨separate_new address, linked_new address⟩

/-- In every state that callbacks reach, the link over which a new packet arrives is recorded
for good exactly if the packet arrives by `att_write_callback`. -/
theorem arrival_recorded_iff {address packet : Address} {callbacks : List Callback}
    {handle : UInt16}
    (run : Run (Guarded (fun _ callback => callback.KeepsHandles)
      (CallbackStep platform database)) (Repeater.new address) callbacks before)
    (brings : callback.Brings platform database before handle packet)
    (step : CallbackStep platform database before callback after) :
    RecordsArrival platform database handle packet before after ↔ callback.ByWrite := by
  obtain ⟨separate, linked⟩ := linked_of_callbacks run
  cases callback with
  | attWriteCallback uptime place connectionHandle attHandle transactionMode offset buffer =>
      obtain ⟨rfl, rfl⟩ : connectionHandle = handle ∧ place = packet :=
        ⟨brings.2.2.1, brings.2.2.2.1⟩
      exact iff_of_true (recordsArrival_of_write separate linked brings step) trivial
  | handleGattClientValueUpdateEvent uptime place update =>
      cases update with
      | notification connectionHandle value =>
          obtain ⟨rfl, rfl⟩ : connectionHandle = handle ∧ place = packet :=
            ⟨brings.1, brings.2.1⟩
          exact iff_of_false (not_recordsArrival_of_notification linked brings step) id
      | indication connectionHandle value => exact brings.elim
  | other event => exact brings.elim

end Callbacks

instance decidableAllowed (callback : Callback) (repeater : Repeater) :
    Decidable (callback.Allowed repeater) :=
  match callback with
  | .attWriteCallback _ address .. | .handleGattClientValueUpdateEvent _ address _
  | .other (.handlePinActivity _ address) =>
      inferInstanceAs (Decidable (repeater.tracker.packetAt address = none))
  | .other (.processWrite ..) => isFalse id
  | .other (.gpioCallback ..) => isTrue trivial
  | .other (.tracker operation) => inferInstanceAs (Decidable (direct operation = true))

/-- What an allowed callback makes of a repeater. -/
def Callback.next (platform : Platform) (database : AttDatabase) (repeater : Repeater)
    (callback : Callback) : Option Repeater :=
  if callback.Allowed repeater then callback.apply platform database repeater else none

theorem callback_of_next {platform : Platform} {database : AttDatabase}
    {before after : Repeater} {callback : Callback}
    (done : callback.next platform database before = some after) :
    CallbackStep platform database before callback after := by
  rw [Callback.next, Option.ite_none_right_eq_some] at done
  exact done

/-- The attribute handles of the examples. -/
def attHandles : AttDatabase :=
  ⟨14, 13, by decide⟩

/-- A link to a neighbour opens, and its packet characteristic is found. -/
def neighbourFound : List Callback :=
  [.other (.tracker (.reportConnectionWithRole 0 0x40 [1, 2, 3, 4, 5, 6] 0 hciRoleMaster)),
    .other (.tracker (.updateConnection ⟨0x40, 0⟩ fun connection =>
      { connection with packetCharacteristicValueHandle := 13 }))]

theorem neighbourFound_keepsHandles : ∀ callback ∈ neighbourFound, callback.KeepsHandles := by
  intro callback member
  simp only [neighbourFound, List.mem_cons, List.not_mem_nil, or_false] at member
  rcases member with rfl | rfl
  · trivial
  · exact fun connection => ⟨rfl, rfl⟩

/-- A message of id 5. -/
def messageFive : Buffer :=
  ⟨[1, 66, 7, 0, 0, 0, 0, 0, 0, 3, 232, 0, 0, 0, 0, 0, 0, 0, 0, 9, 0,
    0, 0, 0, 0, 0, 0, 3, 232, 1, 5, 0, 0, 3, 98, 121, 101], by decide⟩

theorem arrival_recorded_iff_write :
    ∃ before after, Run (Guarded (fun _ callback => callback.KeepsHandles)
        (CallbackStep bytesSummed attHandles)) (Repeater.new 100) neighbourFound before ∧
      CallbackStep bytesSummed attHandles before
        (.attWriteCallback 0 200 0x40 13 0 0 messageFive) after ∧
      RecordsArrival bytesSummed attHandles 0x40 200 before after := by
  obtain ⟨before, reached⟩ := Option.isSome_iff_exists.mp (show (follow
    (Callback.next bytesSummed attHandles) neighbourFound (Repeater.new 100)).isSome
      by decide)
  have outcome : ((follow (Callback.next bytesSummed attHandles) neighbourFound
      (Repeater.new 100)).bind fun before =>
        if (received 0 messageFive).New bytesSummed before.tracker then
          Callback.next bytesSummed attHandles before
            (.attWriteCallback 0 200 0x40 13 0 0 messageFive)
        else none).isSome := by decide
  rw [reached, Option.bind_some] at outcome
  obtain ⟨after, done⟩ := Option.isSome_iff_exists.mp outcome
  obtain ⟨new, done⟩ := Option.ite_none_right_eq_some.mp done
  have run := (Run.of_follow callback_of_next reached).guard neighbourFound_keepsHandles
  have step := callback_of_next done
  have brings : Callback.Brings bytesSummed attHandles before 0x40 200
      (.attWriteCallback 0 200 0x40 13 0 0 messageFive) := ⟨rfl, rfl, rfl, rfl, new⟩
  exact ⟨before, after, run, step, (arrival_recorded_iff run brings step).mpr trivial⟩

/-- The message arrives as a notification.  The entry that is made for it refers to a copy
that is gone, and the next `sendPackets` follows it. -/
theorem notification_dangles :
    ∃ before after, Run (Guarded (fun _ callback => callback.KeepsHandles)
        (CallbackStep bytesSummed attHandles)) (Repeater.new 100) neighbourFound before ∧
      CallbackStep bytesSummed attHandles before
        (.handleGattClientValueUpdateEvent 0 200 (.notification 0x40 messageFive)) after ∧
      Callback.Brings bytesSummed attHandles before 0x40 200
        (.handleGattClientValueUpdateEvent 0 200 (.notification 0x40 messageFive)) ∧
      ¬ RecordsArrival bytesSummed attHandles 0x40 200 before after ∧
      after.tracker.sendPackets.isNone := by
  obtain ⟨before, reached⟩ := Option.isSome_iff_exists.mp (show (follow
    (Callback.next bytesSummed attHandles) neighbourFound (Repeater.new 100)).isSome
      by decide)
  have outcome : ((follow (Callback.next bytesSummed attHandles) neighbourFound
      (Repeater.new 100)).bind fun before =>
        if (received 0 messageFive).New bytesSummed before.tracker then
          (Callback.next bytesSummed attHandles before (.handleGattClientValueUpdateEvent 0 200
            (.notification 0x40 messageFive))).map fun after =>
              (after, after.tracker.sendPackets.isNone)
        else none).map Prod.snd = some true := by decide
  rw [reached, Option.bind_some] at outcome
  obtain ⟨⟨after, stuck⟩, done, same⟩ := Option.map_eq_some_iff.mp outcome
  obtain ⟨new, made⟩ := Option.ite_none_right_eq_some.mp done
  obtain ⟨last, arrived, pair⟩ := Option.map_eq_some_iff.mp made
  cases pair
  have run := (Run.of_follow callback_of_next reached).guard neighbourFound_keepsHandles
  have step := callback_of_next arrived
  have brings : Callback.Brings bytesSummed attHandles before 0x40 200
      (.handleGattClientValueUpdateEvent 0 200 (.notification 0x40 messageFive)) :=
    ⟨rfl, rfl, new⟩
  exact ⟨before, after, run, step, brings,
    not_recordsArrival_of_notification (linked_of_callbacks run).2 brings step, same⟩

end BleRepeater
