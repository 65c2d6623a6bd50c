import BleRepeater.Ble.Handles
import BleRepeater.Ble.Recipients

/-!
# Announcing to connections

`announceToConnections` enqueues the own announce for every open link to which it was not
sent, again and again until it is sent.  No pair that waits in the targeted list is in the
sent list, so the first one of a call is handed over, and that empties the list.
-/

namespace BleRepeater.Tracker

open Transition

/-! ## The searches for a handle -/

theorem findHandle_iff {tracker : Tracker} {handle : UInt16} {refs : List ConnectionRef}
    {found : Bool} (decided : tracker.findHandle handle refs = some found) :
    found = true ↔ ∃ ref ∈ refs, tracker.handleAt ref = some handle := by
  induction refs with
  | nil =>
      cases decided
      simp
  | cons ref refs ih =>
      obtain ⟨other, there, rest⟩ := Option.bind_eq_some_iff.mp decided
      split at rest
      · rename_i same
        subst same
        cases rest
        simp [there]
      · rename_i different
        rw [ih rest]
        simp [there, different]

theorem visitHandles_true {tracker : Tracker} {handle : UInt16}
    {entries : List (Address × ConnectionRef)}
    (visited : tracker.visitHandles handle entries = some true) :
    ∀ entry ∈ entries, tracker.handleAt entry.2 ≠ some handle := by
  induction entries with
  | nil => simp
  | cons entry entries ih =>
      obtain ⟨other, there, rest⟩ := Option.bind_eq_some_iff.mp visited
      obtain ⟨sendable, later, same⟩ := Option.bind_eq_some_iff.mp rest
      simp only [Option.pure_def, Option.some.injEq, Bool.and_eq_true,
        decide_eq_true_eq] at same
      obtain ⟨different, wanted⟩ := same
      subst wanted
      rw [List.forall_mem_cons]
      refine ⟨?_, ih later⟩
      rw [there]
      exact fun equal => different (Option.some.inj equal)

theorem recorded_iff_equalRange {tracker : Tracker} {packet : Address} {handle : UInt16} :
    tracker.Recorded packet handle ↔
      ∃ ref ∈ tracker.packetsConnectionsSentList.equalRange packet,
        tracker.handleAt ref = some handle := by
  simp [Recorded]

/-- A targeted packet is handed over unless the sent list holds the handle for it. -/
theorem packetNeeded_iff {tracker : Tracker} {packet : Address} {connection : ConnectionRef}
    {handle : UInt16} {handed : Bool}
    (decided : tracker.packetNeeded packet connection = some handed)
    (handled : tracker.handleAt connection = some handle) :
    handed = true ↔ ¬ tracker.Recorded packet handle := by
  obtain ⟨other, there, decided⟩ := Option.bind_eq_some_iff.mp decided
  cases handled.symm.trans there
  obtain ⟨found, searched, decided⟩ := Option.bind_eq_some_iff.mp decided
  cases decided
  rw [recorded_iff_equalRange, ← findHandle_iff searched]
  simp

/-! ## Enqueueing announces -/

/-- The tracker without what announcing changes: its announce and the targeted list. -/
def unannounced (tracker : Tracker) : Tracker :=
  { tracker with
    announce := ⟨tracker.announce.address, Announce.new⟩
    targetedPacketsToSendList := .empty }

theorem handleAt_of_unannounced {before after : Tracker}
    (same : after.unannounced = before.unannounced) (ref : ConnectionRef) :
    after.handleAt ref = before.handleAt ref :=
  congrArg (fun tracker => tracker.handleAt ref) same

theorem announceAddress_of_unannounced {before after : Tracker}
    (same : after.unannounced = before.unannounced) :
    after.announce.address = before.announce.address := by
  have place := congrArg (fun tracker : Tracker => tracker.announce.address) same
  exact place

theorem findHandle_of_unannounced {before after : Tracker}
    (same : after.unannounced = before.unannounced) (handle : UInt16)
    (refs : List ConnectionRef) :
    after.findHandle handle refs = before.findHandle handle refs := by
  have handles := handleAt_of_unannounced same
  induction refs with
  | nil => rfl
  | cons ref refs ih => simp [findHandle, handles, ih]

/-- A connection that is there is enqueued for as it is. -/
theorem enqueueTargetedPacket_eq {tracker : Tracker} {packet : Address} {object : Packet}
    {ref : ConnectionRef} {connection : BleConnection}
    (there : tracker.connectionAt ref = some connection)
    (handled : connection.connectionHandle = ref.key)
    (found : tracker.packetAt packet = some object) :
    tracker.enqueueTargetedPacket packet connection = some (
      if object.base.packetTtl > 0 then
        { tracker with
          targetedPacketsToSendList := tracker.targetedPacketsToSendList.emplace packet ref }
      else tracker) := by
  have stored := connectionAt_eq_some_iff.mp there
  have same : tracker.connectionForConnHandle connection.connectionHandle =
      (ref, tracker) := by
    rw [handled, connectionForConnHandle]
    simp only [stored]
    rw [connectionsIndex_of_some stored]
  simp only [enqueueTargetedPacket, found, same, Option.bind_eq_bind, Option.bind_some]
  split <;> rfl

theorem enqueueTargetedPacket_spec {tracker after : Tracker} {packet : Address}
    {ref : ConnectionRef} {connection : BleConnection}
    (there : tracker.connectionAt ref = some connection)
    (handled : connection.connectionHandle = ref.key)
    (done : tracker.enqueueTargetedPacket packet connection = some after) :
    after.unannounced = tracker.unannounced ∧
      ∀ entry ∈ after.targetedPacketsToSendList.entries,
        entry ∈ tracker.targetedPacketsToSendList.entries ∨ entry = (packet, ref) := by
  obtain ⟨object, found, _⟩ := Option.bind_eq_some_iff.mp done
  rw [enqueueTargetedPacket_eq there handled found, Option.some.injEq] at done
  subst done
  split
  · refine ⟨rfl, ?_⟩
    intro entry member
    exact (MultiMap.mem_emplace.mp member).symm
  · exact ⟨rfl, fun entry => Or.inl⟩

/-- Connections as copied from the map: the available ones are there, under their
handles. -/
def Copied (tracker : Tracker) (connections : List BleConnection) : Prop :=
  ∀ connection ∈ connections, available connection = true →
    ∃ ref, tracker.connectionAt ref = some connection ∧
      connection.connectionHandle = ref.key

theorem Copied.of_unannounced {before after : Tracker} {connections : List BleConnection}
    (copied : before.Copied connections) (same : after.unannounced = before.unannounced) :
    after.Copied connections := by
  intro connection member open'
  obtain ⟨ref, there, handled⟩ := copied connection member open'
  have still : after.connectionAt ref = before.connectionAt ref :=
    congrArg (fun tracker => tracker.connectionAt ref) same
  exact ⟨ref, still.trans there, handled⟩

/-- The loop only enqueues the announce, for connections under whose handles it has not
been announced. -/
theorem announceEach_spec {uptime : UInt64} {announcedTo : List ConnectionRef}
    {connections : List BleConnection} {tracker after : Tracker}
    (copied : tracker.Copied connections)
    (done : announceEach uptime announcedTo connections tracker = some after) :
    after.unannounced = tracker.unannounced ∧
      ∀ entry ∈ after.targetedPacketsToSendList.entries,
        entry ∈ tracker.targetedPacketsToSendList.entries ∨
          entry.1 = tracker.announce.address ∧
          tracker.handleAt entry.2 = some entry.2.key ∧
          tracker.findHandle entry.2.key announcedTo = some false := by
  induction connections generalizing tracker with
  | nil =>
      cases done
      exact ⟨rfl, fun entry => Or.inl⟩
  | cons connection connections ih =>
      have others : tracker.Copied connections := fun other member =>
        copied other (List.mem_cons_of_mem _ member)
      rcases announceEach_cons done with
        ⟨_, done⟩ | ⟨next, open', unannounced, queued, done⟩
      · exact ih others done
      · obtain ⟨ref, there, handled⟩ := copied connection (by simp) open'
        have stamped : (tracker.stampAnnounce uptime).connectionAt ref = some connection :=
          there
        obtain ⟨same, queue⟩ := enqueueTargetedPacket_spec stamped handled queued
        change next.unannounced = tracker.unannounced at same
        obtain ⟨restSame, restQueue⟩ := ih (others.of_unannounced same) done
        refine ⟨restSame.trans same, ?_⟩
        intro entry member
        rcases restQueue entry member with old | ⟨announced, handles, unfoundLater⟩
        · rcases queue entry old with older | rfl
          · exact Or.inl older
          · refine Or.inr ⟨rfl, ?_, ?_⟩
            · rw [handleAt, there, Option.map_some, handled]
            · rw [← handled, unannounced]
        · rw [handleAt_of_unannounced same] at handles
          rw [findHandle_of_unannounced same] at unfoundLater
          have place := announceAddress_of_unannounced same
          exact Or.inr ⟨announced.trans place, handles, unfoundLater⟩

/-- A stamped announce that may travel waits for the connection that it is enqueued for. -/
theorem enqueueTargetedPacket_stampAnnounce {uptime : UInt64} {tracker after : Tracker}
    {ref : ConnectionRef} {connection : BleConnection}
    (there : tracker.connectionAt ref = some connection)
    (handled : connection.connectionHandle = ref.key)
    (travels : tracker.announce.object.packetTtl > 0)
    (done : (tracker.stampAnnounce uptime).enqueueTargetedPacket tracker.announce.address
      connection = some after) :
    after = { tracker.stampAnnounce uptime with
      targetedPacketsToSendList :=
        tracker.targetedPacketsToSendList.emplace tracker.announce.address ref } := by
  have stamped : (tracker.stampAnnounce uptime).connectionAt ref = some connection := there
  have own : (tracker.stampAnnounce uptime).packetAt tracker.announce.address =
      some (.announce { tracker.announce.object with
        packetTimestamp := tracker.timeMs uptime }) := by
    simp [packetAt, stampAnnounce, updateAnnounce]
  have enqueued := enqueueTargetedPacket_eq stamped handled own
  rw [if_pos (show (Packet.announce { tracker.announce.object with
    packetTimestamp := tracker.timeMs uptime }).base.packetTtl > 0 from travels)] at enqueued
  exact Option.some.inj (done.symm.trans enqueued)

/-- The loop enqueues the announce for every open connection under whose handle it has not
been announced, and what waited keeps waiting. -/
theorem announceEach_queues {uptime : UInt64} {announcedTo : List ConnectionRef}
    {connections : List BleConnection} {tracker after : Tracker} {ref : ConnectionRef}
    {connection : BleConnection} (copied : tracker.Copied connections)
    (done : announceEach uptime announcedTo connections tracker = some after)
    (travels : tracker.announce.object.packetTtl > 0)
    (clock : tracker.timestampOffsetMs ≥ buildTimeMs)
    (there : tracker.connectionAt ref = some connection)
    (handled : connection.connectionHandle = ref.key)
    (open' : available connection = true)
    (unfound : tracker.findHandle ref.key announcedTo ≠ some true)
    (waits : connection ∈ connections ∨
      (tracker.announce.address, ref) ∈ tracker.targetedPacketsToSendList.entries) :
    (tracker.announce.address, ref) ∈ after.targetedPacketsToSendList.entries := by
  induction connections generalizing tracker with
  | nil =>
      cases done
      exact waits.resolve_left (by simp)
  | cons first connections ih =>
      have others : tracker.Copied connections := fun other member =>
        copied other (List.mem_cons_of_mem _ member)
      have passed : first ≠ connection → connection ∈ connections ∨
          (tracker.announce.address, ref) ∈ tracker.targetedPacketsToSendList.entries := by
        intro different
        exact waits.imp (fun member =>
          (List.mem_cons.mp member).resolve_left (Ne.symm different)) id
      rcases announceEach_cons done with
        ⟨passes, done⟩ | ⟨next, firstOpen, _, queued, done⟩
      · refine ih others done travels clock there unfound (passed ?_)
        rintro rfl
        rcases passes with unwanted | announced
        · simp [open', clock] at unwanted
        · exact unfound (handled ▸ announced)
      · obtain ⟨link, known, carries⟩ := copied first (by simp) firstOpen
        have same := enqueueTargetedPacket_stampAnnounce known carries travels queued
        have unchanged : next.unannounced = tracker.unannounced := by
          rw [same]
          rfl
        have list : next.targetedPacketsToSendList =
            tracker.targetedPacketsToSendList.emplace tracker.announce.address link := by
          rw [same]
        have place := announceAddress_of_unannounced unchanged
        rw [← place]
        apply ih (others.of_unannounced unchanged) done
        · rw [same]
          exact travels
        · rw [same]
          exact clock
        · rw [same]
          exact there
        · rw [findHandle_of_unannounced unchanged]
          exact unfound
        · rw [place, list, MultiMap.mem_emplace]
          by_cases here : first = connection
          · subst here
            right
            left
            rw [← connectionsIndex_of_connectionAt known, ← carries, handled,
              connectionsIndex_of_connectionAt there]
          · exact (passed here).imp id Or.inr

theorem copied_of_handlesKnown {tracker : Tracker} (known : tracker.HandlesKnown) :
    tracker.Copied (tracker.connections.entries.map fun entry => entry.2.connection) := by
  intro connection member open'
  obtain ⟨⟨key, generation, object⟩, listed, same⟩ := List.mem_map.mp member
  subst same
  have there : tracker.connectionAt ⟨key, generation⟩ = some object :=
    connectionAt_eq_some_iff.mpr (OrderedMap.find?_eq_some_iff.mpr listed)
  have connected : object.connected = true := (Bool.and_eq_true _ _ ▸ open').1
  exact ⟨_, there, known.connected _ _ there connected⟩

/-- What the announce is set up with changes nothing else, and lets it travel. -/
theorem setupAnnounceIfNeeded_spec (platform : Platform) (tracker : Tracker) :
    (setupAnnounceIfNeeded platform tracker).unannounced = tracker.unannounced ∧
      setupAnnounceIfNeeded platform tracker =
        { tracker with announce := (setupAnnounceIfNeeded platform tracker).announce } ∧
      (setupAnnounceIfNeeded platform tracker).announce.object.packetTtl = 3 := by
  unfold setupAnnounceIfNeeded
  split
  · rename_i ready
    exact ⟨rfl, rfl, ready⟩
  · exact ⟨rfl, rfl, rfl⟩

theorem Copied.setup {platform : Platform} {tracker : Tracker}
    (known : tracker.HandlesKnown) : (setupAnnounceIfNeeded platform tracker).Copied
      ((setupAnnounceIfNeeded platform tracker).connections.entries.map fun entry =>
        entry.2.connection) := by
  have copied := copied_of_handlesKnown known
  rw [(setupAnnounceIfNeeded_spec platform tracker).2.1]
  exact copied

theorem announceToConnections_spec {platform : Platform} {uptime : UInt64}
    {tracker after : Tracker} (known : tracker.HandlesKnown)
    (done : announceToConnections platform tracker uptime = some after) :
    after.unannounced = tracker.unannounced ∧
      ∀ entry ∈ after.targetedPacketsToSendList.entries,
        entry ∈ tracker.targetedPacketsToSendList.entries ∨
          entry.1 = tracker.announce.address ∧
          tracker.handleAt entry.2 = some entry.2.key ∧
          ¬ tracker.Recorded tracker.announce.address entry.2.key := by
  obtain ⟨ready, same, _⟩ := setupAnnounceIfNeeded_spec platform tracker
  have place := announceAddress_of_unannounced ready
  obtain ⟨unchanged, queue⟩ := announceEach_spec (Copied.setup known) done
  refine ⟨unchanged.trans ready, ?_⟩
  intro entry member
  rcases queue entry member with old | ⟨announced, handled, searched⟩
  · left
    rw [same] at old
    exact old
  · rw [handleAt_of_unannounced ready] at handled
    rw [findHandle_of_unannounced ready] at searched
    refine Or.inr ⟨announced.trans place, handled, ?_⟩
    rw [recorded_iff_equalRange, ← place]
    have unfound := findHandle_iff searched
    rw [same] at unfound
    exact fun recorded => Bool.false_ne_true (unfound.mpr recorded)

/-- Once the clock is set, the announce is enqueued for every open connection for which it is
not recorded. -/
theorem announceToConnections_queues {platform : Platform} {uptime : UInt64}
    {tracker after : Tracker} {ref : ConnectionRef} {connection : BleConnection}
    (known : tracker.HandlesKnown)
    (done : announceToConnections platform tracker uptime = some after)
    (clock : tracker.timestampOffsetMs ≥ buildTimeMs)
    (there : tracker.connectionAt ref = some connection)
    (open' : available connection = true)
    (unrecorded : ¬ tracker.Recorded tracker.announce.address ref.key) :
    (tracker.announce.address, ref) ∈ after.targetedPacketsToSendList.entries := by
  obtain ⟨ready, same, travels⟩ := setupAnnounceIfNeeded_spec platform tracker
  have place := announceAddress_of_unannounced ready
  have connected : connection.connected = true := (Bool.and_eq_true _ _ ▸ open').1
  have listed : connection ∈ tracker.connections.entries.map fun entry =>
      entry.2.connection := by
    have member := OrderedMap.find?_eq_some_iff.mp (connectionAt_eq_some_iff.mp there)
    exact List.mem_map.mpr ⟨_, member, rfl⟩
  rw [← place]
  apply announceEach_queues (Copied.setup known) done
  · rw [travels]
    decide
  · rw [same]
    exact clock
  · rw [same]
    exact there
  · exact known.connected ref connection there connected
  · exact open'
  · rw [findHandle_of_unannounced ready]
    intro found
    apply unrecorded
    rw [recorded_iff_equalRange, ← place]
    have searched := (findHandle_iff found).mp rfl
    rw [same] at searched
    exact searched
  · left
    rw [same]
    exact listed

/-! ## The own announce in the lists -/

theorem sent_of_shelf {before after : Tracker} (same : after.shelf = before.shelf) :
    after.packetsConnectionsSentList = before.packetsConnectionsSentList :=
  congrArg Shelf.sent same

variable {platform : Platform} {before after : Tracker} {operation : Operation}

/-- Only sending, and enqueueing for everyone, add to the sent list. -/
theorem sent_of_step (step : OperationStep platform before operation after)
    (lasts : operation.Lasts) (known : before.HandlesKnown)
    (other : operation ≠ .sendPackets) {entry : Address × ConnectionRef}
    (member : entry ∈ after.packetsConnectionsSentList.entries) :
    entry ∈ before.packetsConnectionsSentList.entries ∨ operation.Broadcasts entry.1 := by
  obtain ⟨_, done⟩ := step
  cases operation with
  | sendPackets => exact absurd rfl other
  | cleanupStaleItems uptime => exact absurd rfl (lasts.noCleanup uptime)
  | storeMessageAndReturnIfNew address message =>
      cases done
      left
      rw [storeMessageAndReturnIfNew_frame] at member
      exact member
  | storePacketAndReturnIfNew address passAlong =>
      cases done
      left
      rw [storePacketAndReturnIfNew_frame] at member
      exact member
  | enqueueTargetedPacket packet toConnection =>
      have same := sent_of_shelf
        (shelf_connectionForConnHandle before toConnection.connectionHandle)
      obtain ⟨_, _, ⟨_, rfl⟩ | ⟨_, rfl⟩⟩ := enqueueTargetedPacket_cases done
      · change entry ∈ (before.connectionForConnHandle
          toConnection.connectionHandle).2.packetsConnectionsSentList.entries at member
        exact Or.inl (same ▸ member)
      · exact Or.inl member
  | enqueueBroadcastPacket packet =>
      rw [enqueueBroadcastPacket_frame done] at member
      exact Or.inl member
  | enqueueBroadcastPacketFrom packet fromConnection fromPeer =>
      rw [enqueueBroadcastPacket_frame done] at member
      rcases MultiMap.mem_emplace.mp member with rfl | old
      · exact Or.inr rfl
      · exact Or.inl old
  | announceToConnections uptime =>
      have same := (announceToConnections_spec known done).1
      have list := congrArg (fun tracker : Tracker => tracker.packetsConnectionsSentList) same
      change after.packetsConnectionsSentList = before.packetsConnectionsSentList at list
      exact Or.inl (list ▸ member)
  | reportDisconnection handle =>
      cases done
      have kept := (MultiMap.mem_eraseIf.mp member).1
      have same := sent_of_shelf (shelf_connectionsIndex before handle)
      change entry ∈ (before.connectionsIndex handle).2.packetsConnectionsSentList.entries
        at kept
      exact Or.inl (same ▸ kept)
  | notifyRawPacket conHandle ret =>
      cases done
      have same := sent_of_shelf (shelf_rawPacketCallback .notify before conHandle ret)
      exact Or.inl (same ▸ member)
  | writeRawPacket conHandle ret =>
      cases done
      have same := sent_of_shelf (shelf_rawPacketCallback .write before conHandle ret)
      exact Or.inl (same ▸ member)
  | checkSenderInPeers sender =>
      cases done
      exact Or.inl (sent_of_shelf (shelf_checkSenderInPeers before sender) ▸ member)
  | connectionForConnHandle handle =>
      cases done
      exact Or.inl (sent_of_shelf (shelf_connectionForConnHandle before handle) ▸ member)
  | reportConnection uptime handle addr addressType =>
      cases done
      exact Or.inl (sent_of_shelf (shelf_reportConnection before ..) ▸ member)
  | reportConnectionWithRole uptime handle addr addressType role =>
      cases done
      exact Or.inl (sent_of_shelf (shelf_reportConnectionWithRole before ..) ▸ member)
  | possiblyUpdateTimeOffset uptime timestampMs =>
      cases done
      exact Or.inl (sent_of_shelf (shelf_possiblyUpdateTimeOffset before ..) ▸ member)
  | addAvailablePeer | setConnectionHandleForPeer | updateConnection | updatePeer =>
      cases done
      exact Or.inl member

/-- An operation that lasts, and that enqueues neither the announce for everyone nor any
packet for a single connection by hand. -/
structure Operation.LeavesAnnounce (tracker : Tracker) (operation : Operation) : Prop where
  lasts : operation.Lasts
  untargeted : ∀ packet connection, operation ≠ .enqueueTargetedPacket packet connection
  unbroadcast : ¬ operation.Broadcasts tracker.announce.address

/-- The own announce in the lists: it was sent, and waits, only for connections under their
handles, it never waits for one to which it was sent, and nothing else is targeted. -/
structure Announcing (tracker : Tracker) : Prop where
  known : tracker.HandlesKnown
  recorded : ∀ ref, (tracker.announce.address, ref) ∈
    tracker.packetsConnectionsSentList.entries → tracker.handleAt ref = some ref.key
  waiting : ∀ entry ∈ tracker.targetedPacketsToSendList.entries,
    entry.1 = tracker.announce.address ∧ tracker.handleAt entry.2 = some entry.2.key ∧
      ¬ tracker.Recorded tracker.announce.address entry.2.key
  broadcast : tracker.announce.address ∉ tracker.broadcastPacketsToSendList

theorem announcing_new (address : Address) : (new address).Announcing :=
  ⟨handlesKnown_new address, by simp [new], by simp [new], by simp [new]⟩

/-- Where packets come to wait. -/
theorem places_of_step (step : OperationStep platform before operation after) :
    after.announce.address = before.announce.address ∧
      (∀ packet ∈ after.broadcastPacketsToSendList,
        packet ∈ before.broadcastPacketsToSendList ∨ operation.Broadcasts packet) ∧
      ∀ entry ∈ after.targetedPacketsToSendList.entries,
        entry ∈ before.targetedPacketsToSendList.entries ∨
          operation.Targets before entry.1 := by
  cases effect_of_step step with
  | relists _ relists =>
      refine ⟨relists.announce, ?_, fun entry member => relists.targeted _ _ member⟩
      intro packet member
      exact (relists.broadcast packet member).imp id And.left
  | stores _ _ _ stores =>
      refine ⟨congrArg Stored.address stores.announce, ?_, ?_⟩
      · intro packet member
        exact Or.inl (stores.broadcast ▸ member)
      · intro entry member
        exact Or.inl (stores.targeted ▸ member)
  | cleans uptime cleans =>
      refine ⟨congrArg Stored.address cleans.announce, ?_, ?_⟩
      · intro packet member
        exact Or.inl ((cleans.broadcast packet).mp member).1
      · intro entry member
        exact Or.inl ((cleans.targeted entry).mp member).1

/-! ## Sending the announce -/

/-- The first loop of a call runs over the targeted list. -/
theorem targetedLoop_of_sendPackets {tracker after : Tracker}
    {targeted broadcast : List Consideration}
    (sent : tracker.sendPackets = some (after, targeted, broadcast)) :
    ∃ middle, considerEach packetNeeded tracker.targetedPacketsToSendList.entries tracker =
      some (middle, targeted) := by
  unfold sendPackets at sent
  split at sent
  · rename_i idle
    simp only [Bool.and_eq_true, List.isEmpty_iff] at idle
    cases sent
    exact ⟨tracker, by rw [idle.2]; rfl⟩
  · simp only [Option.bind_eq_bind, Option.bind_eq_some_iff] at sent
    obtain ⟨⟨middle, targeted⟩, first, _, _, same⟩ := sent
    cases same
    exact ⟨middle, first⟩

/-- Two live pointers under one handle of their entries are the same. -/
theorem ref_eq_of_handleAt {tracker : Tracker} {left right : ConnectionRef}
    (first : tracker.handleAt left = some left.key)
    (second : tracker.handleAt right = some right.key) (same : left.key = right.key) :
    left = right := by
  obtain ⟨one, found, _⟩ := Option.map_eq_some_iff.mp first
  obtain ⟨two, there, _⟩ := Option.map_eq_some_iff.mp second
  rw [← connectionsIndex_of_connectionAt found, same, connectionsIndex_of_connectionAt there]

/-- A targeted loop leaves every packet recorded for the handle it waited for. -/
theorem recorded_of_targetedLoop {pairs : List (Address × ConnectionRef)} {tracker last : Tracker}
    {considered : List Consideration}
    (run : considerEach packetNeeded pairs tracker = some (last, considered))
    {pair : Address × ConnectionRef} (member : pair ∈ pairs) {handle : UInt16}
    (handled : tracker.handleAt pair.2 = some handle) : last.Recorded pair.1 handle := by
  have exact : ∀ consideration ∈ considered, consideration.Exact := by
    intro consideration member handle handled
    have decided := decided_of_considerEach run consideration member
    exact packetNeeded_iff decided.decision handled
  exact (recorded_of_all_exact run exact pair.1 handle).mpr (Or.inr ⟨pair.2, member, handled⟩)

/-- Every targeted packet is handed over, for it was not recorded. -/
theorem Announcing.targeted_handed {tracker after : Tracker}
    {targeted broadcast : List Consideration} (announcing : tracker.Announcing)
    (sent : tracker.sendPackets = some (after, targeted, broadcast))
    {entry : Address × ConnectionRef}
    (waits : entry ∈ tracker.targetedPacketsToSendList.entries) :
    ∃ consideration ∈ targeted, consideration.handed = true ∧
      consideration.connection = entry.2 ∧ consideration.packet = entry.1 := by
  obtain ⟨middle, loop⟩ := targetedLoop_of_sendPackets sent
  obtain ⟨announces, handled, unrecorded⟩ := announcing.waiting entry waits
  obtain ⟨quiet, order, list⟩ := considerEach_spec loop
  obtain ⟨ref, recorded, same⟩ := recorded_of_targetedLoop loop waits handled
  rw [handleAt_eq quiet] at same
  rcases (list _).mp recorded with old | ⟨consideration, member, handed, equal⟩
  · rw [announces] at old
    exact absurd ⟨ref, old, same⟩ unrecorded
  · obtain ⟨packet, rfl⟩ := Prod.mk.inj equal
    have listed : (consideration.packet, consideration.connection) ∈
        tracker.targetedPacketsToSendList.entries := by
      rw [← order]
      exact List.mem_map.mpr ⟨consideration, member, rfl⟩
    obtain ⟨_, known, _⟩ := announcing.waiting _ listed
    exact ⟨consideration, member, handed,
      ref_eq_of_handleAt known handled (Option.some.inj (known.symm.trans same)),
      packet.symm⟩

/-- A call empties the targeted list, as it hands over all that is in it. -/
theorem Announcing.targeted_sendPackets {tracker after : Tracker}
    {targeted broadcast : List Consideration} (announcing : tracker.Announcing)
    (sent : tracker.sendPackets = some (after, targeted, broadcast)) :
    after.targetedPacketsToSendList.entries = [] := by
  rw [List.eq_nil_iff_forall_not_mem]
  intro entry member
  obtain ⟨waited, unsent⟩ := ((sendPackets_sendsOnly sent).targeted entry).mp member
  obtain ⟨consideration, considered, handed, _, packet⟩ :=
    announcing.targeted_handed sent waited
  exact unsent consideration considered handed packet.symm

/-- What a call hands over of the announce waited for its connection. -/
theorem Announcing.handed_waited {tracker after : Tracker}
    {targeted broadcast : List Consideration} (announcing : tracker.Announcing)
    (sent : tracker.sendPackets = some (after, targeted, broadcast))
    {consideration : Consideration} (member : consideration ∈ targeted ++ broadcast)
    (announces : consideration.packet = tracker.announce.address) :
    consideration ∈ targeted ∧ (consideration.packet, consideration.connection) ∈
      tracker.targetedPacketsToSendList.entries := by
  have effect := sendPackets_sendsOnly sent
  rcases List.mem_append.mp member with first | second
  · exact ⟨first, effect.pair_of_targeted first⟩
  · have listed := effect.pair_of_broadcast second
    exact absurd (announces ▸ (mem_broadcastPairs.mp listed).1) announcing.broadcast

theorem recorded_sendPackets {tracker after : Tracker}
    {targeted broadcast : List Consideration} (announcing : tracker.Announcing)
    (sent : tracker.sendPackets = some (after, targeted, broadcast)) {ref : ConnectionRef}
    (member : (tracker.announce.address, ref) ∈
      after.packetsConnectionsSentList.entries) : tracker.handleAt ref = some ref.key := by
  have effect := sendPackets_sendsOnly sent
  rcases (effect.sent _).mp member with old | ⟨consideration, considered, _, same⟩
  · exact announcing.recorded ref old
  · obtain ⟨announces, same⟩ := Prod.mk.inj same
    obtain ⟨_, waited⟩ := announcing.handed_waited sent considered announces.symm
    rw [same]
    exact (announcing.waiting _ waited).2.1

/-- The connection of an entry that a clean-up keeps is kept as it is. -/
theorem handleAt_of_cleanup {uptime : UInt64} {packet : Address} {ref : ConnectionRef}
    (step : OperationStep platform before (.cleanupStaleItems uptime) after)
    (fresh : before.packetConnectionStale (before.timeMs uptime) packet ref = some false) :
    after.handleAt ref = before.handleAt ref := by
  obtain ⟨_, connection, _, found, _, seen⟩ := packetConnectionStale_eq_false.mp fresh
  rw [handleAt, handleAt, found, (connectionAt_cleanupStaleItems step.2).mpr ⟨found, seen⟩]

theorem Announcing.recorded_of_step (announcing : before.Announcing)
    (step : OperationStep platform before operation after)
    (leaves : operation.LeavesAnnounce before) {ref : ConnectionRef}
    (member : (before.announce.address, ref) ∈ after.packetsConnectionsSentList.entries) :
    before.handleAt ref = some ref.key := by
  by_cases sends : operation = .sendPackets
  · subst sends
    obtain ⟨⟨last, targeted, broadcast⟩, sent, same⟩ := Option.map_eq_some_iff.mp step.2
    cases same
    exact recorded_sendPackets announcing sent member
  · rcases sent_of_step step leaves.lasts announcing.known sends member with old | enqueued
    · exact announcing.recorded ref old
    · exact absurd enqueued leaves.unbroadcast

/-- Only sending records the announce for a handle. -/
theorem Announcing.unrecorded_of_step (announcing : before.Announcing)
    (step : OperationStep platform before operation after)
    (leaves : operation.LeavesAnnounce before) (other : operation ≠ .sendPackets)
    {handle : UInt16} (unrecorded : ¬ before.Recorded before.announce.address handle) :
    ¬ after.Recorded before.announce.address handle := by
  rintro ⟨ref, member, handled⟩
  rcases sent_of_step step leaves.lasts announcing.known other member with old | enqueued
  · have known := announcing.recorded ref old
    have still := handleAt_of_step step leaves.lasts known
    rw [handled] at still
    exact unrecorded ⟨ref, old, known.trans still.symm⟩
  · exact leaves.unbroadcast enqueued

/-- What is recorded of the announce stays. -/
theorem Announcing.recorded_stays (announcing : before.Announcing)
    (step : OperationStep platform before operation after)
    (leaves : operation.LeavesAnnounce before) {handle : UInt16}
    (recorded : before.Recorded before.announce.address handle) :
    after.Recorded before.announce.address handle := by
  obtain ⟨ref, member, handled⟩ := recorded
  have known := announcing.recorded ref member
  have there : (before.connectionAt ref).isSome := by
    obtain ⟨connection, found, _⟩ := Option.map_eq_some_iff.mp handled
    simp [found]
  have connects := connects_of_step step leaves.lasts.noCleanup
  refine ⟨ref, connects.remembered _ member (announcing.known.created ref there), ?_⟩
  rw [handleAt_of_step step leaves.lasts known, ← known, handled]

theorem Announcing.step (announcing : before.Announcing)
    (step : OperationStep platform before operation after)
    (leaves : operation.LeavesAnnounce before) : after.Announcing := by
  obtain ⟨place, broadcast, targeted⟩ := places_of_step step
  refine ⟨announcing.known.step step leaves.lasts, ?_, ?_, ?_⟩
  · intro ref member
    rw [place] at member
    exact handleAt_of_step step leaves.lasts
      (announcing.recorded_of_step step leaves member)
  · intro entry member
    rw [place]
    by_cases sends : operation = .sendPackets
    · subst sends
      obtain ⟨⟨last, considered, rest⟩, sent, same⟩ := Option.map_eq_some_iff.mp step.2
      cases same
      rw [announcing.targeted_sendPackets sent] at member
      cases member
    · have kept : entry.1 = before.announce.address ∧
          before.handleAt entry.2 = some entry.2.key ∧
          ¬ before.Recorded before.announce.address entry.2.key →
          entry.1 = before.announce.address ∧ after.handleAt entry.2 = some entry.2.key ∧
          ¬ after.Recorded before.announce.address entry.2.key := by
        intro waited
        exact ⟨waited.1, handleAt_of_step step leaves.lasts waited.2.1,
          announcing.unrecorded_of_step step leaves sends waited.2.2⟩
      apply kept
      by_cases announces : ∃ uptime, operation = .announceToConnections uptime
      · obtain ⟨uptime, rfl⟩ := announces
        rcases (announceToConnections_spec announcing.known step.2).2 entry member with
          old | new
        · exact announcing.waiting entry old
        · exact new
      · rcases targeted entry member with old | new
        · exact announcing.waiting entry old
        · cases operation with
          | enqueueTargetedPacket packet connection =>
              exact absurd rfl (leaves.untargeted packet connection)
          | announceToConnections uptime => exact absurd ⟨uptime, rfl⟩ announces
          | _ => exact new.elim
  · rw [place]
    intro member
    rcases broadcast _ member with old | new
    · exact announcing.broadcast old
    · exact leaves.unbroadcast new

/-- Cleaning up leaves no entry of a connection that it erases. -/
theorem Announcing.cleanup {uptime : UInt64} (announcing : before.Announcing)
    (step : OperationStep platform before (.cleanupStaleItems uptime) after) :
    after.Announcing := by
  have cleans := cleans_cleanupStaleItems step.2
  refine ⟨announcing.known.cleanup step, ?_, ?_, ?_⟩
  · intro ref member
    rw [cleans.announce] at member
    obtain ⟨listed, fresh⟩ := (cleans.sent _).mp member
    rw [handleAt_of_cleanup step fresh]
    exact announcing.recorded ref listed
  · intro entry member
    obtain ⟨listed, fresh⟩ := (cleans.targeted _).mp member
    obtain ⟨announces, handled, unrecorded⟩ := announcing.waiting entry listed
    rw [cleans.announce, handleAt_of_cleanup step fresh]
    refine ⟨announces, handled, ?_⟩
    rintro ⟨ref, recorded, same⟩
    obtain ⟨old, recent⟩ := (cleans.sent _).mp recorded
    rw [handleAt_of_cleanup step recent] at same
    exact unrecorded ⟨ref, old, same⟩
  · rw [cleans.announce]
    intro member
    exact announcing.broadcast ((cleans.broadcast _).mp member).1

/-- Every operation whose setter leaves handles alone, and that does not enqueue the announce
itself, keeps it as it should be. -/
theorem Announcing.keeps (announcing : before.Announcing)
    (step : OperationStep platform before operation after) (keeps : operation.KeepsHandles)
    (untargeted : ∀ packet connection, operation ≠ .enqueueTargetedPacket packet connection)
    (unbroadcast : ¬ operation.Broadcasts before.announce.address) : after.Announcing := by
  by_cases cleanup : ∃ uptime, operation = .cleanupStaleItems uptime
  · obtain ⟨uptime, rfl⟩ := cleanup
    exact announcing.cleanup step
  · exact announcing.step step
      ⟨⟨keeps, fun uptime same => cleanup ⟨uptime, same⟩⟩, untargeted, unbroadcast⟩

/-! ## How often the announce is handed over -/

/-- The decision hands a packet over to a handle. -/
def Consideration.handsTo (packet : Address) (handle : UInt16)
    (consideration : Consideration) : Bool :=
  consideration.handed && consideration.packet == packet &&
    consideration.before.handleAt consideration.connection == some handle

theorem Consideration.handsTo_iff {packet : Address} {handle : UInt16}
    {consideration : Consideration} :
    consideration.handsTo packet handle = true ↔ consideration.handed = true ∧
      consideration.packet = packet ∧
      consideration.before.handleAt consideration.connection = some handle := by
  simp [handsTo, and_assoc]

/-- A loop for targeted packets hands a packet to a handle once at most, and not at all if
the sent list holds the handle for it. -/
theorem countP_handsTo_le {pairs : List (Address × ConnectionRef)} {tracker last : Tracker}
    {considered : List Consideration} (packet : Address) (handle : UInt16)
    (run : considerEach packetNeeded pairs tracker = some (last, considered)) :
    considered.countP (Consideration.handsTo packet handle) ≤ 1 ∧
      (tracker.Recorded packet handle →
        considered.countP (Consideration.handsTo packet handle) = 0) := by
  induction pairs generalizing tracker considered with
  | nil =>
      cases run
      simp
  | cons pair pairs ih =>
      obtain ⟨next, handed, rest, step, further, rfl⟩ := considerEach_cons run
      obtain ⟨decided, quiet, list⟩ := considerSending_spec step
      obtain ⟨once, never⟩ := ih further
      have kept : tracker.Recorded packet handle → next.Recorded packet handle := by
        rintro ⟨ref, member, handled⟩
        refine ⟨ref, ?_, (handleAt_eq quiet ref).trans handled⟩
        rw [list]
        split
        · exact MultiMap.mem_emplace.mpr (Or.inr member)
        · exact member
      rw [List.countP_cons]
      split
      · rename_i hands
        obtain ⟨isHanded, rfl, handled⟩ := Consideration.handsTo_iff.mp hands
        change handed = true at isHanded
        subst isHanded
        have unrecorded := (packetNeeded_iff decided handled).mp rfl
        have records : next.Recorded pair.1 handle :=
          (recorded_emplace quiet list pair.1 handle).mpr (Or.inr ⟨rfl, handled⟩)
        rw [never records]
        exact ⟨Nat.le_refl 1, fun recorded => absurd recorded unrecorded⟩
      · exact ⟨once, fun recorded => never (kept recorded)⟩

/-- How often a call hands the own announce to a handle. -/
def announcesHanded (tracker : Tracker) (handle : UInt16) : Nat :=
  match tracker.sendPackets with
  | some (_, targeted, broadcast) =>
      (targeted ++ broadcast).countP
        (Consideration.handsTo tracker.announce.address handle)
  | none => 0

theorem Announcing.announcesHanded_eq {tracker after : Tracker}
    {targeted broadcast : List Consideration} (announcing : tracker.Announcing)
    (sent : tracker.sendPackets = some (after, targeted, broadcast)) (handle : UInt16) :
    tracker.announcesHanded handle =
      targeted.countP (Consideration.handsTo tracker.announce.address handle) := by
  have others : broadcast.countP
      (Consideration.handsTo tracker.announce.address handle) = 0 := by
    rw [List.countP_eq_zero]
    intro consideration member hands
    obtain ⟨_, announces, _⟩ := Consideration.handsTo_iff.mp hands
    have listed := (sendPackets_sendsOnly sent).pair_of_broadcast member
    exact announcing.broadcast (announces ▸ (mem_broadcastPairs.mp listed).1)
  simp only [announcesHanded, sent, List.countP_append, others, Nat.add_zero]

/-- A call hands the announce to a handle once at most, only if it was not recorded for it,
and then it is. -/
theorem Announcing.announcesHanded_le {tracker after : Tracker}
    {targeted broadcast : List Consideration} (announcing : tracker.Announcing)
    (sent : tracker.sendPackets = some (after, targeted, broadcast)) (handle : UInt16) :
    tracker.announcesHanded handle ≤ 1 ∧
      (tracker.Recorded tracker.announce.address handle →
        tracker.announcesHanded handle = 0) ∧
      (tracker.announcesHanded handle ≠ 0 →
        after.Recorded tracker.announce.address handle) := by
  obtain ⟨middle, loop⟩ := targetedLoop_of_sendPackets sent
  obtain ⟨once, never⟩ := countP_handsTo_le tracker.announce.address handle loop
  rw [announcing.announcesHanded_eq sent]
  refine ⟨once, never, ?_⟩
  intro handed
  obtain ⟨consideration, member, hands⟩ :=
    List.countP_pos_iff.mp (Nat.pos_of_ne_zero handed)
  obtain ⟨isHanded, announces, handled⟩ := Consideration.handsTo_iff.mp hands
  have effect := sendPackets_sendsOnly sent
  have decided := (decided_of_sendPackets sent).1 consideration member
  refine ⟨consideration.connection, ?_, ?_⟩
  · exact (effect.sent _).mpr (Or.inr ⟨consideration, List.mem_append_left _ member,
      isHanded, by rw [announces]⟩)
  · rw [handleAt_of_settled (effect.settled.trans decided.settled.symm), handled]

end BleRepeater.Tracker
