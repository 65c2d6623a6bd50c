import BleRepeater.Ble.Effects

/-!
# Connection references

Two lists refer to connections by pointer, and only cleaning up erases connections.  A
clean-up tests the entries of the lists and the connections themselves with the same
predicate, so no reference is left to a connection that is gone.
-/

namespace BleRepeater.Tracker

open Transition

/-! ## The objects behind the pointers -/

theorem connectionAt_eq_some_iff {tracker : Tracker} {ref : ConnectionRef}
    {connection : BleConnection} :
    tracker.connectionAt ref = some connection ↔
      tracker.connections.find? ref.key = some ⟨ref.generation, connection⟩ := by
  unfold connectionAt
  cases found : tracker.connections.find? ref.key with
  | none => simp
  | some entry =>
      obtain ⟨generation, object⟩ := entry
      simp only [Option.some.injEq, ConnectionEntry.mk.injEq]
      split
      · rename_i same
        simp [same]
      · rename_i other
        simp [other]

theorem ref_eq {ref other : ConnectionRef} (key : other.key = ref.key)
    (generation : other.generation = ref.generation) : other = ref := by
  cases ref
  cases other
  cases key
  cases generation
  rfl

/-- Changing one object changes no other. -/
theorem connectionAt_updateConnection (tracker : Tracker) (ref other : ConnectionRef)
    (change : BleConnection → BleConnection) :
    (tracker.updateConnection ref change).connectionAt other =
      if other = ref then (tracker.connectionAt other).map change
      else tracker.connectionAt other := by
  simp only [connectionAt, updateConnection, OrderedMap.find?_modify]
  by_cases key : other.key = ref.key
  · rw [if_pos key, key]
    cases tracker.connections.find? ref.key with
    | none => simp
    | some entry =>
        by_cases same : other = ref
        · subst same
          by_cases current : entry.generation = other.generation <;> simp [current]
        · have different : ref.generation ≠ other.generation :=
            fun generation => same (ref_eq key generation.symm)
          rw [if_neg same]
          by_cases current : entry.generation = ref.generation <;> simp [current, different]
  · have same : other ≠ ref := fun same => key (congrArg ConnectionRef.key same)
    rw [if_neg key, if_neg same]

theorem connectionsIndex_of_some {tracker : Tracker} {handle : UInt16}
    {entry : ConnectionEntry} (found : tracker.connections.find? handle = some entry) :
    tracker.connectionsIndex handle = (⟨handle, entry.generation⟩, tracker) := by
  simp [connectionsIndex, found]

theorem connectionsIndex_of_none {tracker : Tracker} {handle : UInt16}
    (absent : tracker.connections.find? handle = none) :
    tracker.connectionsIndex handle = (⟨handle, tracker.nextGeneration⟩,
      { tracker with
        connections := tracker.connections.insert handle ⟨tracker.nextGeneration, {}⟩
        nextGeneration := tracker.nextGeneration + 1 }) := by
  simp [connectionsIndex, absent]

/-- `connections[handle]` creates an object if there is none, and changes no other. -/
theorem connectionAt_connectionsIndex (tracker : Tracker) (handle : UInt16)
    (other : ConnectionRef) :
    (tracker.connectionsIndex handle).2.connectionAt other =
      if other = (tracker.connectionsIndex handle).1 then
        some ((tracker.connectionAt other).getD {})
      else tracker.connectionAt other := by
  cases found : tracker.connections.find? handle with
  | some entry =>
      rw [connectionsIndex_of_some found]
      split
      · rename_i same
        subst same
        simp [connectionAt, found]
      · rfl
  | none =>
      rw [connectionsIndex_of_none found]
      simp only [connectionAt, OrderedMap.find?_insert]
      by_cases key : other.key = handle
      · rw [if_pos key, key, found]
        by_cases same : other = ⟨handle, tracker.nextGeneration⟩
        · subst same
          simp
        · have different : tracker.nextGeneration ≠ other.generation :=
            fun generation => same (ref_eq key generation.symm)
          rw [if_neg same]
          simp [different]
      · have same : other ≠ ⟨handle, tracker.nextGeneration⟩ :=
          fun same => key (congrArg ConnectionRef.key same)
        rw [if_neg key, if_neg same]

/-! ## What an operation does to connections -/

/-- Connections that differ at most in their mark for pending data, the one field that
sending changes. -/
def Alike (left right : BleConnection) : Prop :=
  { left with hasDataToSend := false } = { right with hasDataToSend := false }

/-- What every operation but cleaning up does: connections stay, and those at handles that
it does not touch stay alike; new ones come with generations of their own, and are not
connected at handles that it does not touch; and the lists name connections that they named
before, that are there, or that the operation records. -/
structure Connects (before after : Tracker) (touched : UInt16 → Prop)
    (records : ConnectionRef → Prop) : Prop where
  generation : before.nextGeneration ≤ after.nextGeneration
  kept : ∀ ref connection, before.connectionAt ref = some connection →
    ∃ other, after.connectionAt ref = some other ∧
      (¬ touched ref.key → Alike connection other)
  fresh : ∀ ref connection, after.connectionAt ref = some connection →
    before.connectionAt ref = none →
    before.nextGeneration ≤ ref.generation ∧ ref.generation < after.nextGeneration ∧
      (¬ touched ref.key → connection.connected = false)
  sent : ∀ entry ∈ after.packetsConnectionsSentList.entries,
    entry ∈ before.packetsConnectionsSentList.entries ∨
      (after.connectionAt entry.2).isSome ∨ records entry.2
  targeted : ∀ entry ∈ after.targetedPacketsToSendList.entries,
    entry ∈ before.targetedPacketsToSendList.entries ∨ (after.connectionAt entry.2).isSome
  remembered : ∀ entry ∈ before.packetsConnectionsSentList.entries,
    entry.2.generation < before.nextGeneration →
    entry ∈ after.packetsConnectionsSentList.entries

namespace Connects

variable {before middle after : Tracker} {touched : UInt16 → Prop}
  {records : ConnectionRef → Prop}

theorem refl (tracker : Tracker) : Connects tracker tracker touched records where
  generation := Nat.le_refl _
  kept _ connection found := ⟨connection, found, fun _ => rfl⟩
  fresh _ _ found absent := by
    rw [found] at absent
    cases absent
  sent _ := Or.inl
  targeted _ := Or.inl
  remembered _ member _ := member

theorem live (connects : Connects before after touched records) {ref : ConnectionRef}
    (there : (before.connectionAt ref).isSome) : (after.connectionAt ref).isSome := by
  obtain ⟨connection, found⟩ := Option.isSome_iff_exists.mp there
  obtain ⟨other, still, _⟩ := connects.kept ref connection found
  simp [still]

theorem trans (first : Connects before middle touched records)
    (second : Connects middle after touched records) :
    Connects before after touched records where
  generation := Nat.le_trans first.generation second.generation
  kept ref connection found := by
    obtain ⟨between, still, alike⟩ := first.kept ref connection found
    obtain ⟨other, there, likewise⟩ := second.kept ref between still
    exact ⟨other, there, fun untouched => (alike untouched).trans (likewise untouched)⟩
  fresh ref connection found absent := by
    cases between : middle.connectionAt ref with
    | none =>
        obtain ⟨new, bound, idle⟩ := second.fresh ref connection found between
        exact ⟨Nat.le_trans first.generation new, bound, idle⟩
    | some object =>
        obtain ⟨new, bound, idle⟩ := first.fresh ref object between absent
        obtain ⟨other, there, alike⟩ := second.kept ref object between
        cases found.symm.trans there
        refine ⟨new, Nat.lt_of_lt_of_le bound second.generation, ?_⟩
        intro untouched
        have same := congrArg BleConnection.connected (alike untouched)
        exact same.symm.trans (idle untouched)
  sent entry member := by
    rcases second.sent entry member with old | there | recorded
    · rcases first.sent entry old with older | there | recorded
      · exact Or.inl older
      · exact Or.inr (Or.inl (second.live there))
      · exact Or.inr (Or.inr recorded)
    · exact Or.inr (Or.inl there)
    · exact Or.inr (Or.inr recorded)
  targeted entry member := by
    rcases second.targeted entry member with old | there
    · rcases first.targeted entry old with older | there
      · exact Or.inl older
      · exact Or.inr (second.live there)
    · exact Or.inr there
  remembered entry member bound := by
    have still := first.remembered entry member bound
    exact second.remembered entry still (Nat.lt_of_lt_of_le bound first.generation)

end Connects

/-- The connections and the lists that name them. -/
structure Board where
  connections : OrderedMap UInt16 ConnectionEntry
  nextGeneration : Nat
  sent : MultiMap Address ConnectionRef
  targeted : MultiMap Address ConnectionRef

/-- What connection references are about. -/
def board (tracker : Tracker) : Board where
  connections := tracker.connections
  nextGeneration := tracker.nextGeneration
  sent := tracker.packetsConnectionsSentList
  targeted := tracker.targetedPacketsToSendList

theorem connectionAt_of_board {before after : Tracker} (same : after.board = before.board)
    (ref : ConnectionRef) : after.connectionAt ref = before.connectionAt ref := by
  have connections : after.connections = before.connections := congrArg Board.connections same
  rw [connectionAt, connectionAt, connections]

theorem Connects.of_board {before after : Tracker} {touched : UInt16 → Prop}
    {records : ConnectionRef → Prop} (same : after.board = before.board) :
    Connects before after touched records := by
  have generation : after.nextGeneration = before.nextGeneration :=
    congrArg Board.nextGeneration same
  have sent : after.packetsConnectionsSentList = before.packetsConnectionsSentList :=
    congrArg Board.sent same
  have targeted : after.targetedPacketsToSendList = before.targetedPacketsToSendList :=
    congrArg Board.targeted same
  refine ⟨generation.ge, ?_, ?_, ?_, ?_, ?_⟩
  · intro ref connection found
    exact ⟨connection, (connectionAt_of_board same ref).trans found, fun _ => rfl⟩
  · intro ref connection found absent
    rw [connectionAt_of_board same, absent] at found
    cases found
  · intro entry member
    exact Or.inl (sent ▸ member)
  · intro entry member
    exact Or.inl (targeted ▸ member)
  · intro entry member _
    exact sent.symm ▸ member

/-- An object that is created and not connected. -/
theorem Connects.of_created {before after : Tracker} {touched : UInt16 → Prop}
    {records : ConnectionRef → Prop} {handle : UInt16} (created : BleConnection)
    (idle : created.connected = false) (absent : before.connections.find? handle = none)
    (objects : ∀ ref, after.connectionAt ref =
      if ref = ⟨handle, before.nextGeneration⟩ then some created else before.connectionAt ref)
    (generation : after.nextGeneration = before.nextGeneration + 1)
    (sent : after.packetsConnectionsSentList = before.packetsConnectionsSentList)
    (targeted : after.targetedPacketsToSendList = before.targetedPacketsToSendList) :
    Connects before after touched records where
  generation := by omega
  kept ref connection found := by
    have other : ref ≠ ⟨handle, before.nextGeneration⟩ := by
      rintro rfl
      simp [connectionAt, absent] at found
    exact ⟨connection, by rw [objects, if_neg other, found], fun _ => rfl⟩
  fresh ref connection found absent := by
    rw [objects] at found
    split at found
    · rename_i same
      cases found
      subst same
      exact ⟨Nat.le_refl _, Nat.lt_of_lt_of_eq (Nat.lt_succ_self _) generation.symm,
        fun _ => idle⟩
    · rw [absent] at found
      cases found
  sent entry member := Or.inl (sent ▸ member)
  targeted entry member := Or.inl (targeted ▸ member)
  remembered entry member _ := sent.symm ▸ member

section Operations

variable {touched : UInt16 → Prop} {records : ConnectionRef → Prop}

theorem connects_connectionsIndex (tracker : Tracker) (handle : UInt16) :
    Connects tracker (tracker.connectionsIndex handle).2 touched records := by
  cases found : tracker.connections.find? handle with
  | some entry =>
      rw [connectionsIndex_of_some found]
      exact .refl tracker
  | none =>
      have created := connectionAt_connectionsIndex tracker handle
      have unknown : tracker.connectionAt ⟨handle, tracker.nextGeneration⟩ = none := by
        simp [connectionAt, found]
      rw [connectionsIndex_of_none found] at created ⊢
      refine .of_created {} rfl found ?_ rfl rfl rfl
      intro ref
      rw [created]
      split
      · rename_i same
        subst same
        rw [unknown]
        rfl
      · rfl

theorem connects_connectionForConnHandle (tracker : Tracker) (handle : UInt16) :
    Connects tracker (tracker.connectionForConnHandle handle).2 touched records := by
  unfold connectionForConnHandle
  cases found : tracker.connections.find? handle with
  | some entry => exact connects_connectionsIndex tracker handle
  | none =>
      have created := connectionAt_connectionsIndex tracker handle
      have unknown : tracker.connectionAt ⟨handle, tracker.nextGeneration⟩ = none := by
        simp [connectionAt, found]
      dsimp only
      rw [connectionsIndex_of_none found] at created ⊢
      refine .of_created { connectionHandle := handle } rfl found ?_ rfl rfl rfl
      intro ref
      rw [connectionAt_updateConnection, created]
      split
      · rename_i same
        subst same
        rw [unknown]
        rfl
      · rfl

/-- What `connectionForConnHandle` returns is there. -/
theorem connectionForConnHandle_isSome (tracker : Tracker) (handle : UInt16) :
    ((tracker.connectionForConnHandle handle).2.connectionAt
      (tracker.connectionForConnHandle handle).1).isSome := by
  have indexed := connectionAt_connectionsIndex tracker handle
    (tracker.connectionsIndex handle).1
  rw [if_pos rfl] at indexed
  unfold connectionForConnHandle
  cases found : tracker.connections.find? handle with
  | some entry => simp [indexed]
  | none =>
      dsimp only
      rw [connectionAt_updateConnection, if_pos rfl, indexed]
      rfl

theorem connects_updateConnection (tracker : Tracker) (ref : ConnectionRef)
    (change : BleConnection → BleConnection) (touches : touched ref.key) :
    Connects tracker (tracker.updateConnection ref change) touched records where
  generation := Nat.le_refl _
  kept other connection found := by
    rw [connectionAt_updateConnection]
    split
    · rename_i same
      subst same
      exact ⟨change connection, by rw [found]; rfl, fun untouched => absurd touches untouched⟩
    · exact ⟨connection, found, fun _ => rfl⟩
  fresh other connection found absent := by
    rw [connectionAt_updateConnection, absent] at found
    split at found <;> cases found
  sent _ := Or.inl
  targeted _ := Or.inl
  remembered _ member _ := member

/-- `connections[handle]`, changed. -/
def assign (tracker : Tracker) (handle : UInt16) (change : BleConnection → BleConnection) :
    Tracker :=
  (tracker.connectionsIndex handle).2.updateConnection (tracker.connectionsIndex handle).1 change

theorem connects_assign (tracker : Tracker) (handle : UInt16)
    (change : BleConnection → BleConnection) (touches : touched handle) :
    Connects tracker (tracker.assign handle change) touched records := by
  have key : (tracker.connectionsIndex handle).1.key = handle := by
    unfold connectionsIndex
    split <;> rfl
  exact (connects_connectionsIndex tracker handle).trans
    (connects_updateConnection _ _ change (key.symm ▸ touches))

theorem connects_reportConnection (tracker : Tracker) (uptime : UInt64) (handle : UInt16)
    (addr : Bytes) (addressType : UInt8) (touches : touched handle) :
    Connects tracker (tracker.reportConnection uptime handle addr addressType) touched
      records := by
  have assign : ∀ tracker change, Connects tracker (assign tracker handle change) touched
      records := fun tracker change => connects_assign tracker handle change touches
  have forget : ∀ tracker : Tracker, ∀ neighbours, Connects tracker
      { tracker with availableNeighbours := neighbours } touched records :=
    fun tracker neighbours => .of_board rfl
  unfold reportConnection
  dsimp only
  split
  · exact (assign _ _).trans ((assign _ _).trans (forget _ _))
  · exact (assign _ _).trans (forget _ _)

theorem connects_reportConnectionWithRole (tracker : Tracker) (uptime : UInt64)
    (handle : UInt16) (addr : Bytes) (addressType role : UInt8) (touches : touched handle) :
    Connects tracker (tracker.reportConnectionWithRole uptime handle addr addressType role)
      touched records := by
  unfold reportConnectionWithRole
  dsimp only
  exact (connects_reportConnection tracker uptime handle addr addressType touches).trans
    (connects_assign _ handle _ touches)

/-- What a disconnection does once the connection is marked. -/
def forgetCopy (tracker : Tracker) (handle : UInt16) : Tracker :=
  { tracker with
    handlePeerMap := tracker.handlePeerMap.erase handle
    packetsConnectionsSentList := tracker.packetsConnectionsSentList.eraseIf
      fun packet connection => decide (packet = tracker.announce.address) &&
        decide (connection = ⟨handle, tracker.nextGeneration⟩)
    nextGeneration := tracker.nextGeneration + 1 }

theorem reportDisconnection_eq (tracker : Tracker) (handle : UInt16) :
    tracker.reportDisconnection handle = (tracker.assign handle fun connection =>
      { connection with notificationEnabled := false, connected := false }).forgetCopy handle :=
  rfl

/-- The pointer that a disconnection compares with is that of a copy, so nothing that a list
names is forgotten. -/
theorem connects_forgetCopy (tracker : Tracker) (handle : UInt16) :
    Connects tracker (tracker.forgetCopy handle) touched records where
  generation := Nat.le_succ _
  kept ref connection found := ⟨connection, found, fun _ => rfl⟩
  fresh ref connection found absent := by cases found.symm.trans absent
  sent entry member := Or.inl (MultiMap.mem_eraseIf.mp member).1
  targeted _ := Or.inl
  remembered entry member bound := by
    have other : entry.2 ≠ ⟨handle, tracker.nextGeneration⟩ := fun same =>
      Nat.ne_of_lt bound (congrArg ConnectionRef.generation same)
    exact MultiMap.mem_eraseIf.mpr ⟨member, by simp [other]⟩

theorem connects_reportDisconnection (tracker : Tracker) (handle : UInt16)
    (touches : touched handle) :
    Connects tracker (tracker.reportDisconnection handle) touched records := by
  rw [reportDisconnection_eq]
  exact (connects_assign tracker handle _ touches).trans (connects_forgetCopy _ handle)

theorem connects_enqueueTargetedPacket {tracker after : Tracker} {packet : Address}
    {toConnection : BleConnection}
    (done : tracker.enqueueTargetedPacket packet toConnection = some after) :
    Connects tracker after touched records := by
  have there := connectionForConnHandle_isSome tracker toConnection.connectionHandle
  obtain ⟨_, _, ⟨_, rfl⟩ | ⟨_, rfl⟩⟩ := enqueueTargetedPacket_cases done
  · refine (connects_connectionForConnHandle tracker toConnection.connectionHandle).trans
      ⟨Nat.le_refl _, ?_, ?_, fun _ => Or.inl, ?_, fun _ member _ => member⟩
    · intro ref connection found
      exact ⟨connection, found, fun _ => rfl⟩
    · intro ref connection found absent
      cases found.symm.trans absent
    · intro entry member
      rcases MultiMap.mem_emplace.mp member with same | old
      · subst same
        exact Or.inr there
      · exact Or.inl old
  · exact .refl _

theorem connects_enqueueBroadcastPacket {tracker after : Tracker} {packet : Address}
    (done : tracker.enqueueBroadcastPacket packet = some after) :
    Connects tracker after touched records := by
  apply Connects.of_board
  rw [enqueueBroadcastPacket_frame done]
  rfl

theorem connects_enqueueBroadcastPacketFrom {tracker after : Tracker} {packet : Address}
    {fromConnection : ConnectionRef} {fromPeer : UInt64}
    (done : tracker.enqueueBroadcastPacketFrom packet fromConnection fromPeer = some after)
    (recorded : records fromConnection) : Connects tracker after touched records := by
  unfold enqueueBroadcastPacketFrom at done
  refine Connects.trans ?_ (connects_enqueueBroadcastPacket done)
  refine ⟨Nat.le_refl _, ?_, ?_, ?_, fun _ => Or.inl, ?_⟩
  · intro ref connection found
    exact ⟨connection, found, fun _ => rfl⟩
  · intro ref connection found absent
    cases found.symm.trans absent
  · intro entry member
    rcases MultiMap.mem_emplace.mp member with same | old
    · subst same
      exact Or.inr (Or.inr recorded)
    · exact Or.inl old
  · intro entry member _
    exact MultiMap.mem_emplace.mpr (Or.inr member)

theorem connects_announceEach {uptime : UInt64} {announcedTo : List ConnectionRef}
    {connections : List BleConnection} {tracker after : Tracker}
    (done : announceEach uptime announcedTo connections tracker = some after) :
    Connects tracker after touched records := by
  refine announceEach_invariant (motive := fun current =>
    Connects tracker current touched records) done ?_ (.refl _)
  intro current next connection connects queued
  have stamped : Connects current (current.stampAnnounce uptime) touched records :=
    .of_board rfl
  exact (connects.trans stamped).trans (connects_enqueueTargetedPacket queued)

theorem connects_announceToConnections {platform : Platform} {uptime : UInt64}
    {tracker after : Tracker}
    (done : announceToConnections platform tracker uptime = some after) :
    Connects tracker after touched records := by
  have ready : Connects tracker (setupAnnounceIfNeeded platform tracker) touched records := by
    apply Connects.of_board
    unfold setupAnnounceIfNeeded
    split <;> rfl
  exact ready.trans (connects_announceEach done)

theorem alike_of_settled {before after : Tracker} (same : after.settled = before.settled)
    {ref : ConnectionRef} {connection : BleConnection}
    (found : before.connectionAt ref = some connection) :
    ∃ other, after.connectionAt ref = some other ∧ Alike connection other := by
  have quiet : after.quiet.connectionAt ref = before.quiet.connectionAt ref :=
    congrArg (fun tracker => tracker.connectionAt ref) same
  rw [connectionAt_quiet, connectionAt_quiet, found, Option.map_some,
    Option.map_eq_some_iff] at quiet
  obtain ⟨other, there, alike⟩ := quiet
  exact ⟨other, there, alike.symm⟩

theorem connects_sendPackets {tracker after : Tracker} {targeted broadcast : List Consideration}
    (sent : tracker.sendPackets = some (after, targeted, broadcast)) :
    Connects tracker after touched records := by
  have effect := sendPackets_sendsOnly sent
  have generation : after.nextGeneration = tracker.nextGeneration :=
    (congrArg Tracker.nextGeneration effect.settled :)
  refine ⟨generation.ge, ?_, ?_, ?_, ?_, ?_⟩
  · intro ref connection found
    obtain ⟨other, there, alike⟩ := alike_of_settled effect.settled found
    exact ⟨other, there, fun _ => alike⟩
  · intro ref connection found absent
    obtain ⟨other, there, _⟩ := alike_of_settled effect.settled.symm found
    cases there.symm.trans absent
  · intro entry member
    rcases (effect.sent entry).mp member with old | ⟨consideration, considered, _, same⟩
    · exact Or.inl old
    · have followed := handleAt_considered sent considered
      rw [← handleAt_of_settled effect.settled] at followed
      subst same
      exact Or.inr (Or.inl (by simpa [handleAt] using followed))
  · intro entry member
    exact Or.inl ((effect.targeted entry).mp member).1
  · intro entry member _
    exact (effect.sent entry).mpr (Or.inl member)

theorem connects_rawPacketCallback (queue : RawQueue) (tracker : Tracker) (conHandle : UInt16)
    (ret : UInt8) :
    Connects tracker (rawPacketCallback queue tracker conHandle ret).tracker touched
      records := by
  refine rawPacketCallback_invariant (motive := fun current =>
    Connects tracker current touched records) ret ?_ ?_ (.refl _)
  · intro current connects
    exact connects.trans (connects_connectionsIndex _ _)
  · intro current packets connects
    refine connects.trans (.of_board ?_)
    cases queue <;> rfl

end Operations

/-- The handles whose connections an operation changes. -/
def Operation.Touches : Operation → UInt16 → Prop
  | .reportConnection _ handle _ _ => Eq handle
  | .reportConnectionWithRole _ handle _ _ _ => Eq handle
  | .reportDisconnection handle => Eq handle
  | .updateConnection connection _ => Eq connection.key
  | _ => fun _ => False

/-- The connection that an operation is told to record. -/
def Operation.Records : Operation → ConnectionRef → Prop
  | .enqueueBroadcastPacketFrom _ fromConnection _ => Eq fromConnection
  | _ => fun _ => False

theorem board_checkSenderInPeers (tracker : Tracker) (sender : UInt64) :
    (tracker.checkSenderInPeers sender).board = tracker.board := by
  unfold checkSenderInPeers
  split <;> rfl

theorem board_possiblyUpdateTimeOffset (tracker : Tracker) (uptime timestampMs : UInt64) :
    (tracker.possiblyUpdateTimeOffset uptime timestampMs).board = tracker.board := by
  unfold possiblyUpdateTimeOffset
  dsimp only
  split <;> rfl

/-- The operations that leave the connections as they are. -/
def Operation.LeavesConnections : Operation → Prop
  | .storeMessageAndReturnIfNew .. | .storePacketAndReturnIfNew .. | .checkSenderInPeers ..
  | .enqueueBroadcastPacket .. | .enqueueBroadcastPacketFrom .. | .addAvailablePeer ..
  | .setConnectionHandleForPeer .. | .possiblyUpdateTimeOffset .. | .updatePeer .. => True
  | _ => False

theorem connections_enqueueBroadcastPacket {tracker after : Tracker} {packet : Address}
    (done : tracker.enqueueBroadcastPacket packet = some after) :
    after.connections = tracker.connections := by
  rw [enqueueBroadcastPacket_frame done]

theorem connections_of_step {platform : Platform} {before after : Tracker}
    {operation : Operation} (step : OperationStep platform before operation after)
    (leaves : operation.LeavesConnections) : after.connections = before.connections := by
  obtain ⟨_, done⟩ := step
  cases operation with
  | storeMessageAndReturnIfNew address message =>
      cases done
      rw [storeMessageAndReturnIfNew_frame]
  | storePacketAndReturnIfNew address passAlong =>
      cases done
      rw [storePacketAndReturnIfNew_frame]
  | enqueueBroadcastPacket packet => exact connections_enqueueBroadcastPacket done
  | enqueueBroadcastPacketFrom packet fromConnection fromPeer =>
      exact (connections_enqueueBroadcastPacket done).trans rfl
  | checkSenderInPeers sender =>
      cases done
      exact congrArg Board.connections (board_checkSenderInPeers before sender)
  | possiblyUpdateTimeOffset uptime timestampMs =>
      cases done
      exact congrArg Board.connections
        (board_possiblyUpdateTimeOffset before uptime timestampMs)
  | addAvailablePeer | setConnectionHandleForPeer | updatePeer =>
      cases done
      rfl
  | _ => exact leaves.elim

theorem connects_of_step {platform : Platform} {before after : Tracker} {operation : Operation}
    (step : OperationStep platform before operation after)
    (other : ∀ uptime, operation ≠ .cleanupStaleItems uptime) :
    Connects before after operation.Touches operation.Records := by
  obtain ⟨_, done⟩ := step
  cases operation with
  | cleanupStaleItems uptime => exact absurd rfl (other uptime)
  | enqueueTargetedPacket packet toConnection => exact connects_enqueueTargetedPacket done
  | enqueueBroadcastPacket packet => exact connects_enqueueBroadcastPacket done
  | enqueueBroadcastPacketFrom packet fromConnection fromPeer =>
      exact connects_enqueueBroadcastPacketFrom done rfl
  | announceToConnections uptime => exact connects_announceToConnections done
  | sendPackets =>
      obtain ⟨⟨last, targeted, broadcast⟩, sent, same⟩ := Option.map_eq_some_iff.mp done
      cases same
      exact connects_sendPackets sent
  | storeMessageAndReturnIfNew address message =>
      cases done
      apply Connects.of_board
      rw [storeMessageAndReturnIfNew_frame]
      rfl
  | storePacketAndReturnIfNew address passAlong =>
      cases done
      apply Connects.of_board
      rw [storePacketAndReturnIfNew_frame]
      rfl
  | checkSenderInPeers sender =>
      cases done
      exact .of_board (board_checkSenderInPeers before sender)
  | possiblyUpdateTimeOffset uptime timestampMs =>
      cases done
      exact .of_board (board_possiblyUpdateTimeOffset before uptime timestampMs)
  | connectionForConnHandle handle =>
      cases done
      exact connects_connectionForConnHandle before handle
  | reportConnection uptime handle addr addressType =>
      cases done
      exact connects_reportConnection before uptime handle addr addressType rfl
  | reportConnectionWithRole uptime handle addr addressType role =>
      cases done
      exact connects_reportConnectionWithRole before uptime handle addr addressType role rfl
  | reportDisconnection handle =>
      cases done
      exact connects_reportDisconnection before handle rfl
  | notifyRawPacket conHandle ret =>
      cases done
      exact connects_rawPacketCallback .notify before conHandle ret
  | writeRawPacket conHandle ret =>
      cases done
      exact connects_rawPacketCallback .write before conHandle ret
  | updateConnection connection change =>
      cases done
      exact connects_updateConnection before connection change rfl
  | addAvailablePeer uptime btAddress btAddressType services rssi =>
      cases done
      exact .of_board rfl
  | setConnectionHandleForPeer conHandle peer =>
      cases done
      exact .of_board rfl
  | updatePeer peer change =>
      cases done
      exact .of_board rfl

/-! ## Cleaning up -/

theorem connections_cleanupStaleItems {before after : Tracker} {uptime : UInt64}
    (done : before.cleanupStaleItems uptime = some after) :
    after.connections = before.connections.eraseIf fun _ entry =>
      connectionStale (before.timeMs uptime) entry.connection := by
  obtain ⟨_, _, _, _, rfl⟩ := cleanupStaleItems_eq done
  rfl

/-- A clean-up erases the connections that are not connected and were not seen recently. -/
theorem connectionAt_cleanupStaleItems {before after : Tracker} {uptime : UInt64}
    (done : before.cleanupStaleItems uptime = some after) {ref : ConnectionRef}
    {connection : BleConnection} :
    after.connectionAt ref = some connection ↔ before.connectionAt ref = some connection ∧
      connectionStale (before.timeMs uptime) connection = false := by
  rw [connectionAt_eq_some_iff, connections_cleanupStaleItems done, OrderedMap.find?_eraseIf,
    connectionAt_eq_some_iff]

/-! ## References to connections -/

/-- Every reference that a list holds is to a connection that is there. -/
structure ConnectionsLive (tracker : Tracker) : Prop where
  sent : ∀ entry ∈ tracker.packetsConnectionsSentList.entries,
    (tracker.connectionAt entry.2).isSome
  targeted : ∀ entry ∈ tracker.targetedPacketsToSendList.entries,
    (tracker.connectionAt entry.2).isSome

/-- The connection that a packet came from is given as `connectionForConnHandle` returns it
for its handle. -/
def ReturnedReference (tracker : Tracker) : Operation → Prop
  | .enqueueBroadcastPacketFrom _ fromConnection _ =>
      tracker.connectionForConnHandle fromConnection.key = (fromConnection, tracker)
  | _ => True

instance decidableReturnedReference (tracker : Tracker) :
    (operation : Operation) → Decidable (tracker.ReturnedReference operation)
  | .enqueueBroadcastPacketFrom _ fromConnection _ =>
      inferInstanceAs (Decidable
        (tracker.connectionForConnHandle fromConnection.key = (fromConnection, tracker)))
  | .storeMessageAndReturnIfNew .. | .storePacketAndReturnIfNew .. | .checkSenderInPeers ..
  | .enqueueTargetedPacket .. | .enqueueBroadcastPacket .. | .connectionForConnHandle ..
  | .addAvailablePeer .. | .reportConnection .. | .reportConnectionWithRole ..
  | .reportDisconnection .. | .setConnectionHandleForPeer .. | .possiblyUpdateTimeOffset ..
  | .announceToConnections .. | .sendPackets | .notifyRawPacket .. | .writeRawPacket ..
  | .cleanupStaleItems .. | .updateConnection .. | .updatePeer .. => isTrue trivial

theorem connectionAt_of_recorded {tracker : Tracker} {operation : Operation}
    (returned : tracker.ReturnedReference operation) {ref : ConnectionRef}
    (recorded : operation.Records ref) : (tracker.connectionAt ref).isSome := by
  cases operation with
  | enqueueBroadcastPacketFrom packet fromConnection fromPeer =>
      have there := connectionForConnHandle_isSome tracker fromConnection.key
      rw [returned] at there
      exact recorded ▸ there
  | _ => exact recorded.elim

theorem ConnectionsLive.step {platform : Platform} {before after : Tracker}
    {operation : Operation} (live : before.ConnectionsLive)
    (returned : before.ReturnedReference operation)
    (step : OperationStep platform before operation after) : after.ConnectionsLive := by
  by_cases cleanup : ∃ uptime, operation = .cleanupStaleItems uptime
  · obtain ⟨uptime, rfl⟩ := cleanup
    have cleans := cleans_cleanupStaleItems step.2
    have kept : ∀ entry : Address × ConnectionRef, before.packetConnectionStale
        (before.timeMs uptime) entry.1 entry.2 = some false →
        (after.connectionAt entry.2).isSome := by
      intro entry fresh
      obtain ⟨_, connection, _, found, _, seen⟩ := packetConnectionStale_eq_false.mp fresh
      rw [(connectionAt_cleanupStaleItems step.2).mpr ⟨found, seen⟩]
      rfl
    exact ⟨fun entry member => kept entry ((cleans.sent entry).mp member).2,
      fun entry member => kept entry ((cleans.targeted entry).mp member).2⟩
  · have connects := connects_of_step step fun uptime same => cleanup ⟨uptime, same⟩
    refine ⟨?_, ?_⟩
    · intro entry member
      rcases connects.sent entry member with old | there | recorded
      · exact connects.live (live.sent entry old)
      · exact there
      · exact connects.live (connectionAt_of_recorded returned recorded)
    · intro entry member
      rcases connects.targeted entry member with old | there
      · exact connects.live (live.targeted entry old)
      · exact there

/-- In every run of operations the lists refer to connections that are there, and a clean-up
leaves every connection that is connected. -/
theorem connectionReferences_live {platform : Platform} {address : Address}
    {operations : List Operation} {tracker : Tracker}
    (run : Run (Guarded ReturnedReference (OperationStep platform)) (new address) operations
      tracker) :
    tracker.ConnectionsLive ∧ ∀ uptime cleaned,
      OperationStep platform tracker (.cleanupStaleItems uptime) cleaned →
      ∀ ref connection, tracker.connectionAt ref = some connection →
        connection.connected = true → cleaned.connectionAt ref = some connection := by
  have initial : (new address).ConnectionsLive := ⟨by simp [new], by simp [new]⟩
  refine ⟨run.invariant (fun live step => live.step step.1 step.2) initial, ?_⟩
  intro uptime cleaned step ref connection found connected
  apply (connectionAt_cleanupStaleItems step.2).mpr
  exact ⟨found, by simp [connectionStale, connected]⟩

/-- A message comes in over a connection that stays up, another connection is lost, and both
are cleaned up for. -/
def lostConnection : List Operation :=
  [.reportConnection 0 0x40 [1, 2, 3, 4, 5, 6] 0,
    .reportConnection 0 0x41 [1, 2, 3, 4, 5, 7] 0,
    .storeMessageAndReturnIfNew 200
      { packetType := typeMessage, packetTtl := 3, packetTimestamp := 1000000 },
    .checkSenderInPeers 0,
    .enqueueBroadcastPacketFrom 200 ⟨0x40, 0⟩ 0,
    .reportDisconnection 0x41,
    .cleanupStaleItems 700000000]

theorem connectionReferences_live_lost :
    ∃ tracker, Run (Guarded ReturnedReference (OperationStep bytesSummed)) (new 100)
        lostConnection tracker ∧ tracker.ConnectionsLive ∧
      tracker.packetsConnectionsSentList.entries = [(200, ⟨0x40, 0⟩)] ∧
      tracker.connectionRefs = [⟨0x40, 0⟩] := by
  let next (tracker : Tracker) (operation : Operation) : Option Tracker :=
    if tracker.ReturnedReference operation then operation.next bytesSummed tracker else none
  have outcome : (follow next lostConnection (new 100)).map (fun tracker =>
      (tracker.packetsConnectionsSentList.entries, tracker.connectionRefs)) =
      some ([(200, ⟨0x40, 0⟩)], [⟨0x40, 0⟩]) := by decide
  obtain ⟨tracker, done, same⟩ := Option.map_eq_some_iff.mp outcome
  obtain ⟨sent, refs⟩ := Prod.mk.inj same
  have sound : ∀ {before operation after}, next before operation = some after →
      Guarded ReturnedReference (OperationStep bytesSummed) before operation after := by
    intro before operation after done
    obtain ⟨returned, done⟩ := Option.ite_none_right_eq_some.mp done
    exact ⟨returned, step_of_next done⟩
  have run := Run.of_follow sound done
  exact ⟨tracker, run, (connectionReferences_live run).1, sent, refs⟩

end BleRepeater.Tracker
