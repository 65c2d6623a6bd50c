import BleRepeater.Main.OpenLinks
import BleRepeater.Main.RelayMessage

/-!
# Serving links

A message waits in the list of packets for everyone until a call of `sendPackets` hands it to
some link.  If the recipients of that call are exact, it has then been recorded for every
open link; and what is recorded stays so while nothing is cleaned up.
-/

namespace BleRepeater

open BinaryReader Transition Tracker ProtocolProcessor Repeater

namespace Tracker

variable {tracker after : Tracker} {targeted broadcast : List Consideration}

/-! ## One call of sendPackets -/

theorem mem_availableConnections {ref : ConnectionRef} :
    ref ∈ tracker.availableConnections ↔ tracker.OpenAt ref := by
  constructor
  · exact openAt_of_available
  · rintro ⟨connection, found, open'⟩
    have stored := OrderedMap.find?_eq_some_iff.mp (connectionAt_eq_some_iff.mp found)
    refine List.mem_map.mpr ⟨_, List.mem_filter.mpr ⟨stored, ?_⟩, rfl⟩
    simpa [available] using open'

/-- An open link carries its own handle. -/
theorem handleAt_of_openAt (known : tracker.HandlesKnown) {ref : ConnectionRef}
    (open' : tracker.OpenAt ref) : tracker.handleAt ref = some ref.key := by
  obtain ⟨connection, found, connected, _⟩ := open'
  rw [handleAt, found, Option.map_some, known.connected ref connection found connected]

theorem sent_of_considerEach {wanted : Tracker → Address → ConnectionRef → Option Bool}
    {pairs : List (Address × ConnectionRef)} {tracker last : Tracker}
    {considered : List Consideration}
    (run : considerEach wanted pairs tracker = some (last, considered)) :
    ∀ consideration ∈ considered,
      ∀ entry ∈ consideration.before.packetsConnectionsSentList.entries,
        entry ∈ last.packetsConnectionsSentList.entries := by
  induction pairs generalizing tracker considered with
  | nil =>
      cases run
      simp
  | cons pair pairs ih =>
      obtain ⟨next, handed, rest, step, further, rfl⟩ := considerEach_cons run
      intro consideration member
      rcases List.mem_cons.mp member with rfl | later
      · exact fun entry recorded => ((considerEach_spec run).2.2 entry).mpr (Or.inl recorded)
      · exact ih further consideration later

theorem sent_of_broadcastLoop {packets : List Address} {tracker last : Tracker}
    {toRemove removed : List Address} {considered : List Consideration}
    (run : broadcastLoop packets tracker toRemove = some (last, removed, considered)) :
    ∀ consideration ∈ considered,
      ∀ entry ∈ consideration.before.packetsConnectionsSentList.entries,
        entry ∈ last.packetsConnectionsSentList.entries := by
  induction packets generalizing tracker toRemove considered with
  | nil =>
      cases run
      simp
  | cons packet packets ih =>
      simp only [broadcastLoop, Option.bind_eq_bind, Option.bind_eq_some_iff] at run
      obtain ⟨⟨middle, left⟩, here, ⟨last, removed, right⟩, further, same⟩ := run
      cases same
      intro consideration member
      rcases List.mem_append.mp member with now | later
      · intro entry recorded
        have middle := sent_of_considerEach here consideration now entry recorded
        exact ((broadcastLoop_spec further).2.2 entry).mpr (Or.inl middle)
      · exact ih further consideration later

/-- What was recorded when the broadcast loop made a decision is recorded after the call. -/
theorem recorded_of_considered (sent : tracker.sendPackets = some (after, targeted, broadcast))
    {consideration : Consideration} (member : consideration ∈ broadcast) {packet : Address}
    {handle : UInt16} (recorded : consideration.before.Recorded packet handle) :
    after.Recorded packet handle := by
  obtain ⟨ref, listed, handled⟩ := recorded
  have effect := sendPackets_sendsOnly sent
  have decided := (decided_of_sendPackets sent).2 consideration member
  refine ⟨ref, ?_, ?_⟩
  · unfold sendPackets at sent
    split at sent
    · cases sent
      cases member
    · simp only [Option.bind_eq_bind, Option.bind_eq_some_iff] at sent
      obtain ⟨⟨middle, early⟩, first, ⟨last, removed, late⟩, second, same⟩ := sent
      cases same
      exact sent_of_broadcastLoop second consideration member (packet, ref) listed
  · rw [handleAt_of_settled (effect.settled.trans decided.settled.symm), handled]

/-- A call whose recipients are exact leaves every packet that waits recorded for every open
link. -/
theorem recorded_of_exactRecipients (known : tracker.HandlesKnown)
    (sent : tracker.sendPackets = some (after, targeted, broadcast))
    (exact : ExactRecipients tracker after broadcast) {packet : Address}
    (waits : packet ∈ tracker.broadcastPacketsToSendList) {ref : ConnectionRef}
    (open' : tracker.OpenAt ref) : after.Recorded packet ref.key := by
  have pair : (packet, ref) ∈ tracker.broadcastPairs :=
    mem_broadcastPairs.mpr ⟨waits, mem_availableConnections.mpr open'⟩
  rw [← exact.all] at pair
  obtain ⟨consideration, considered, same⟩ := List.mem_map.mp pair
  obtain ⟨rfl, rfl⟩ := Prod.mk.inj same
  have effect := sendPackets_sendsOnly sent
  have decided := (decided_of_sendPackets sent).2 consideration considered
  have handled : tracker.handleAt consideration.connection = some consideration.connection.key :=
    handleAt_of_openAt known open'
  have before : consideration.before.handleAt consideration.connection =
      some consideration.connection.key := by
    rw [handleAt_of_settled decided.settled, handled]
  by_cases handed : consideration.handed = true
  · refine ⟨consideration.connection, exact.recorded consideration considered handed, ?_⟩
    rw [handleAt_of_settled effect.settled, handled]
  · have recorded : consideration.before.Recorded consideration.packet
        consideration.connection.key := by
      by_contra unrecorded
      exact handed ((exact.exact consideration considered _ before).mpr unrecorded)
    exact recorded_of_considered sent considered recorded

end Tracker

namespace Repeater

variable {platform : Platform} {before after : Repeater} {event : Event}

/-! ## New messages -/

/-- A message that an event may add to the stored ones, and where it comes to lie. -/
inductive Event.Admits (platform : Platform) (repeater : Repeater) (address : Address) :
    Message → Event → Prop where
  | pin {uptime : UInt64} : Admits platform repeater address
      (pinMessageOf platform repeater uptime) (.handlePinActivity uptime address)
  | write {uptime : UInt64} {connection : ConnectionRef} {conHandle offset : UInt16}
      {buffer : Buffer} {message : Message} : received offset buffer = .message message →
      Admits platform repeater address message
        (.processWrite uptime address connection conHandle offset buffer)

theorem Event.Admits.decoded {repeater : Repeater} {uptime : UInt64} {address place : Address}
    {connection : ConnectionRef} {conHandle offset : UInt16} {buffer : Buffer}
    {message : Message} (admits : Event.Admits platform repeater place message
      (.processWrite uptime address connection conHandle offset buffer)) :
    received offset buffer = .message message := by
  cases admits with
  | write decoded => exact decoded

/-- The connection over which an event brings a packet. -/
def Event.From : Event → ConnectionRef → Prop
  | .processWrite _ _ connection _ _ _ => Eq connection
  | _ => fun _ => False

/-- A new message: it lies where nothing was, it waits if it has TTL left, and is recorded for
the connection that it came over. -/
structure Admitted (platform : Platform) (before after : Repeater) (event : Event)
    (address : Address) (message : Message) : Prop where
  admits : event.Admits platform before address message
  free : before.tracker.packetAt address = none
  messages : after.tracker.messages =
    before.tracker.messages.insert message.messageId ⟨address, message⟩
  waits : message.packetTtl > 0 → address ∈ after.tracker.broadcastPacketsToSendList
  sent : ∀ ref, (address, ref) ∈ after.tracker.packetsConnectionsSentList.entries →
    (address, ref) ∈ before.tracker.packetsConnectionsSentList.entries ∨ event.From ref

theorem admitted_of_pin (separate : before.tracker.Separate) {uptime : UInt64}
    {address : Address} (free : before.tracker.packetAt address = none)
    (new : before.tracker.messages.find? (pinMessageOf platform before uptime).messageId = none)
    (queued : (before.tracker.storeMessageAndReturnIfNew address
      (pinMessageOf platform before uptime)).2.enqueueBroadcastPacket address =
        some after.tracker) :
    Admitted platform before after (.handlePinActivity uptime address) address
      (pinMessageOf platform before uptime) := by
  have stores := stores_storeMessage address new
  have apart := stores.separate (not_live free) separate
  have stored := apart.packetAt_iff.mpr ⟨_, stores.here⟩
  have sent := enqueueBroadcastPacket_frame queued
  refine ⟨.pin, free, ?_, ?_, ?_⟩
  · rw [sent]
    simp [storeMessageAndReturnIfNew, new]
  · intro travels
    obtain ⟨object, found, ⟨_, added⟩ | ⟨exhausted, _⟩⟩ := enqueueBroadcastPacket_cases queued
    · rw [added]
      simp
    · cases stored.symm.trans found
      exact absurd travels exhausted
  · intro ref member
    rw [sent] at member
    simp only [storeMessageAndReturnIfNew, new] at member
    exact Or.inl member

theorem admitted_of_write (separate : before.tracker.Separate) {uptime : UInt64}
    {address : Address} {connection : ConnectionRef} {conHandle offset : UInt16}
    {buffer : Buffer} {message : Message}
    (free : before.tracker.packetAt address = none)
    (decoded : received offset buffer = .message message)
    (new : before.tracker.messages.find? message.messageId = none)
    (done : processWrite platform before.tracker uptime address connection conHandle offset
      buffer = some after.tracker) :
    Admitted platform before after
      (.processWrite uptime address connection conHandle offset buffer) address message := by
  have fresh : (received offset buffer).New platform before.tracker := by
    rw [decoded]
    exact new
  obtain ⟨kept, same, accepted⟩ := accepted_of_processWrite separate free fresh done
  rw [decoded] at same
  cases same
  have board := board_processWrite_new fresh done
  have sent : after.tracker.packetsConnectionsSentList =
      before.tracker.packetsConnectionsSentList.emplace address connection :=
    congrArg Board.sent board
  refine ⟨.write decoded, free, ?_, ?_, ?_⟩
  · unfold processWrite at done
    rw [decoded] at done
    exact messages_processMessage_new new done
  · intro travels
    have left : (Packet.message message).base.packetTtl > 0 := travels
    rw [accepted.queued, if_pos left]
    simp
  · intro ref member
    rw [sent] at member
    rcases MultiMap.mem_emplace.mp member with same | old
    · exact Or.inr (Prod.mk.inj same).2.symm
    · exact Or.inl old

/-- An event that erases nothing keeps the messages, and adds one at most. -/
theorem messages_of_event (separate : before.tracker.Separate)
    (step : EventStep platform before event after) (lasts : event.Lasts) :
    after.tracker.messages = before.tracker.messages ∨
      ∃ address message, before.tracker.messages.find? message.messageId = none ∧
        Admitted platform before after event address message := by
  cases event with
  | gpioCallback gpio fell =>
      cases step.2
      exact Or.inl rfl
  | handlePinActivity uptime address =>
      rcases handlePinActivity_cases step.2 with idle | ⟨new, queued⟩
      · exact Or.inl (congrArg Tracker.messages idle)
      · exact Or.inr ⟨address, _, new, admitted_of_pin separate step.1 new queued⟩
  | processWrite uptime address connection conHandle offset buffer =>
      obtain ⟨tracker, processed, same⟩ := Option.bind_eq_some_iff.mp step.2
      cases same
      cases decoded : received offset buffer with
      | ignored =>
          unfold processWrite at processed
          rw [decoded] at processed
          cases processed
          exact Or.inl rfl
      | announce announce =>
          unfold processWrite at processed
          rw [decoded] at processed
          exact Or.inl (messages_processAnnounce processed)
      | message message =>
          cases known : before.tracker.messages.find? message.messageId with
          | some entry =>
              unfold processWrite at processed
              rw [decoded] at processed
              cases (processMessage_known known).symm.trans processed
              exact Or.inl rfl
          | none =>
              exact Or.inr ⟨address, message, known,
                admitted_of_write separate step.1 decoded known processed⟩
  | tracker operation =>
      have main : direct operation = true := step.1
      cases effect_of_step (operation_of_event step) with
      | relists _ relists => exact Or.inl relists.messages
      | stores _ carries => cases operation <;> first | exact carries.elim | cases main
      | cleans uptime => exact absurd rfl (lasts.noCleanup uptime)

/-- A message that was received is stored afterwards. -/
theorem known_of_write (step : EventStep platform before event after) {uptime : UInt64}
    {address : Address} {connection : ConnectionRef} {conHandle offset : UInt16}
    {buffer : Buffer} {message : Message}
    (writes : event = .processWrite uptime address connection conHandle offset buffer)
    (decoded : received offset buffer = .message message) :
    (after.tracker.messages.find? message.messageId).isSome := by
  subst writes
  have carries : Write.Carries message.messageId
      ⟨uptime, address, connection, conHandle, offset, buffer⟩ := ⟨message, decoded, rfl⟩
  have call : WriteStep platform before
      ⟨uptime, address, connection, conHandle, offset, buffer⟩ after := step
  obtain ⟨entry, stored⟩ := stored_of_write carries call
  simp [stored]

/-! ## What waits, and what is recorded -/

/-- An operation of the main program other than sending leaves the list for everyone alone,
unless it cleans up. -/
theorem broadcast_of_direct {tracker after : Tracker} {operation : Operation}
    (main : direct operation = true) (lasts : operation.Lasts)
    (other : operation ≠ .sendPackets) (known : tracker.HandlesKnown)
    (step : OperationStep platform tracker operation after) :
    after.broadcastPacketsToSendList = tracker.broadcastPacketsToSendList := by
  have of_shelf : ∀ {last : Tracker}, last.shelf = tracker.shelf →
      last.broadcastPacketsToSendList = tracker.broadcastPacketsToSendList :=
    fun same => congrArg Shelf.broadcast same
  obtain ⟨_, done⟩ := step
  cases operation with
  | sendPackets => exact absurd rfl other
  | cleanupStaleItems uptime => exact absurd rfl (lasts.noCleanup uptime)
  | announceToConnections uptime =>
      have same := congrArg (fun tracker : Tracker => tracker.broadcastPacketsToSendList)
        (announceToConnections_spec known done).1
      exact same
  | connectionForConnHandle handle =>
      cases done
      exact of_shelf (shelf_connectionForConnHandle tracker handle)
  | reportConnection uptime handle addr addressType =>
      cases done
      exact of_shelf (shelf_reportConnection tracker uptime handle addr addressType)
  | reportConnectionWithRole uptime handle addr addressType role =>
      cases done
      exact of_shelf
        (shelf_reportConnectionWithRole tracker uptime handle addr addressType role)
  | reportDisconnection handle =>
      cases done
      have same : (tracker.connectionsIndex handle).2.broadcastPacketsToSendList =
          tracker.broadcastPacketsToSendList := of_shelf (shelf_connectionsIndex tracker handle)
      exact same
  | notifyRawPacket conHandle ret =>
      cases done
      exact of_shelf (shelf_rawPacketCallback .notify tracker conHandle ret)
  | writeRawPacket conHandle ret =>
      cases done
      exact of_shelf (shelf_rawPacketCallback .write tracker conHandle ret)
  | addAvailablePeer | updateConnection =>
      cases done
      rfl
  | storeMessageAndReturnIfNew | storePacketAndReturnIfNew | checkSenderInPeers
  | enqueueTargetedPacket | enqueueBroadcastPacket | enqueueBroadcastPacketFrom
  | setConnectionHandleForPeer | possiblyUpdateTimeOffset | updatePeer => cases main

/-- Only sending takes packets off the list for everyone. -/
theorem broadcast_of_event (separate : before.tracker.Separate)
    (known : before.tracker.HandlesKnown) (step : EventStep platform before event after)
    (lasts : event.Lasts) (other : event ≠ .tracker .sendPackets) {packet : Address}
    (waits : packet ∈ before.tracker.broadcastPacketsToSendList) :
    packet ∈ after.tracker.broadcastPacketsToSendList := by
  cases event with
  | gpioCallback gpio fell =>
      cases step.2
      exact waits
  | handlePinActivity uptime address =>
      rcases handlePinActivity_cases step.2 with idle | ⟨new, queued⟩
      · rwa [idle]
      · have listed : packet ∈ (before.tracker.storeMessageAndReturnIfNew address
            (pinMessageOf platform before uptime)).2.broadcastPacketsToSendList := by
          rw [storeMessageAndReturnIfNew_frame]
          exact waits
        obtain ⟨_, _, ⟨_, same⟩ | ⟨_, same⟩⟩ := enqueueBroadcastPacket_cases queued
        · rw [same]
          exact List.mem_append_left _ listed
        · rwa [same]
  | processWrite uptime address connection conHandle offset buffer =>
      have call : WriteStep platform before
          ⟨uptime, address, connection, conHandle, offset, buffer⟩ after := step
      rcases broadcast_of_write separate call with same | ⟨_, added⟩
      · rwa [same]
      · rw [added]
        exact List.mem_append_left _ waits
  | tracker operation =>
      have kept := broadcast_of_direct step.1 lasts (fun same => other (by rw [same]))
        known (operation_of_event step)
      rwa [kept]

/-- What is recorded for a connection under its handle stays. -/
theorem sent_stays (separate : before.tracker.Separate) (known : before.tracker.HandlesKnown)
    (step : EventStep platform before event after) (lasts : event.Lasts) {packet : Address} {ref : ConnectionRef}
    (listed : (packet, ref) ∈ before.tracker.packetsConnectionsSentList.entries)
    (handled : before.tracker.handleAt ref = some ref.key) :
    (packet, ref) ∈ after.tracker.packetsConnectionsSentList.entries ∧
      after.tracker.handleAt ref = some ref.key := by
  rcases receives_or_operation separate step with
    ⟨⟨fresh, _, receives⟩, _⟩ | ⟨operation, rfl, _, performed⟩
  · exact ⟨receives.remembered _ listed, (receives.handleAt ref).trans handled⟩
  · have there : (before.tracker.connectionAt ref).isSome := by
      obtain ⟨connection, found, _⟩ := Option.map_eq_some_iff.mp handled
      simp [found]
    have connects := connects_of_step performed (Operation.Lasts.noCleanup lasts)
    have created := known.created ref there
    exact ⟨connects.remembered _ listed created, handleAt_of_step performed lasts handled⟩

theorem recorded_stays (orderly : before.Orderly) (step : EventStep platform before event after)
    (lasts : event.Lasts) {packet : Address} {ref : ConnectionRef}
    (listed : (packet, ref) ∈ before.tracker.packetsConnectionsSentList.entries)
    (handled : before.tracker.handleAt ref = some ref.key) :
    after.tracker.Recorded packet ref.key := by
  obtain ⟨still, same⟩ :=
    sent_stays orderly.separate orderly.announcing.known step lasts listed handled
  exact ⟨ref, still, same⟩

/-- Apart from sending, nothing is recorded of an object that was there before. -/
theorem sent_of_event (separate : before.tracker.Separate)
    (known : before.tracker.HandlesKnown) (step : EventStep platform before event after)
    (lasts : event.Lasts) (other : event ≠ .tracker .sendPackets) {packet : Address}
    (live : before.tracker.Live packet) {ref : ConnectionRef}
    (listed : (packet, ref) ∈ after.tracker.packetsConnectionsSentList.entries) :
    (packet, ref) ∈ before.tracker.packetsConnectionsSentList.entries := by
  cases event with
  | gpioCallback gpio fell =>
      cases step.2
      exact listed
  | handlePinActivity uptime address =>
      rcases (receives_handlePinActivity step.2).sent _ listed with old | same
      · exact old
      · subst same
        exact absurd live (not_live step.1)
  | processWrite uptime address connection conHandle offset buffer =>
      have receives := @receives_of_write platform before after
        ⟨uptime, address, connection, conHandle, offset, buffer⟩ separate step
      rcases receives.sent _ listed with old | same
      · exact old
      · subst same
        exact absurd live (not_live step.1)
  | tracker operation =>
      have main : direct operation = true := step.1
      have performed := operation_of_event step
      rcases sent_of_step performed lasts known
        (fun same => other (by rw [same])) listed with old | new
      · exact old
      · rw [(@targets_of_direct before.tracker _ main).1] at new
        exact new.elim

end Repeater

end BleRepeater
