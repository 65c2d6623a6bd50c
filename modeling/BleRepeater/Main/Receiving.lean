import BleRepeater.Ble.Announcing
import BleRepeater.Main.Flooding

/-!
# Receiving and links

What comes in over a link is stored and enqueued, and leaves the links as they are: no
connection is created or changed, nothing becomes targeted, and the one entry that the sent
list may gain is of the received packet.
-/

namespace BleRepeater.ProtocolProcessor

open Tracker

variable {platform : Platform} {before after : Tracker} {uptime : UInt64} {address : Address}
  {connection : ConnectionRef} {conHandle offset : UInt16} {buffer : Buffer}

theorem board_heard (tracker : Tracker) (uptime : UInt64) (conHandle : UInt16)
    (announce : Announce) : (heard tracker uptime conHandle announce).board = tracker.board := by
  rw [heard, board_possiblyUpdateTimeOffset]
  unfold updateOrStorePeerNameFromAnnouncement
  dsimp only
  split <;> exact board_checkSenderInPeers tracker announce.packetSenderId

theorem board_storeMessageAndReturnIfNew (tracker : Tracker) (address : Address)
    (message : Message) :
    (tracker.storeMessageAndReturnIfNew address message).2.board = tracker.board := by
  rw [storeMessageAndReturnIfNew_frame]
  rfl

theorem board_storePacketAndReturnIfNew (platform : Platform) (tracker : Tracker)
    (address : Address) (passAlong : PacketPassAlong) :
    (storePacketAndReturnIfNew platform tracker address passAlong).2.board =
      tracker.board := by
  rw [storePacketAndReturnIfNew_frame]
  rfl

/-- A board with one entry more in the sent list. -/
def recording (board : Board) (packet : Address) (connection : ConnectionRef) : Board :=
  { board with sent := board.sent.emplace packet connection }

theorem board_enqueueBroadcastPacketFrom {tracker : Tracker} {packet : Address}
    {fromPeer : UInt64}
    (done : tracker.enqueueBroadcastPacketFrom packet connection fromPeer = some after) :
    after.board = recording tracker.board packet connection := by
  rw [enqueueBroadcastPacket_frame done]
  rfl

/-- Of a new packet the connection is recorded that `processWrite` is given. -/
theorem board_processWrite_new (new : (received offset buffer).New platform before)
    (done : processWrite platform before uptime address connection conHandle offset buffer =
      some after) : after.board = recording before.board address connection := by
  simp only [processWrite] at done
  cases found : received offset buffer with
  | ignored =>
      rw [found] at new
      exact new.elim
  | message message =>
      rw [found] at done new
      have done := (processMessage_new new).symm.trans done
      rw [board_enqueueBroadcastPacketFrom done, board_checkSenderInPeers,
        board_storeMessageAndReturnIfNew]
  | announce announce =>
      rw [found] at done new
      have done := (processAnnounce_new new).symm.trans done
      rw [board_enqueueBroadcastPacketFrom done, board_checkSenderInPeers,
        board_storePacketAndReturnIfNew, board_heard]

theorem board_processWrite_known (known : ¬ (received offset buffer).New platform before)
    (done : processWrite platform before uptime address connection conHandle offset buffer =
      some after) : after.board = before.board := by
  simp only [processWrite] at done
  cases found : received offset buffer with
  | ignored =>
      rw [found] at done
      rw [← Option.some.inj done]
  | message message =>
      rw [found] at done known
      obtain ⟨entry, stored⟩ := Option.ne_none_iff_exists'.mp known
      have done := (processMessage_known stored).symm.trans done
      rw [← Option.some.inj done]
  | announce announce =>
      rw [found] at done known
      obtain ⟨entry, stored⟩ := Option.ne_none_iff_exists'.mp known
      have done := (processAnnounce_known stored).symm.trans done
      rw [← Option.some.inj done, board_heard]

end BleRepeater.ProtocolProcessor

namespace BleRepeater.Repeater

open Transition Tracker ProtocolProcessor

/-- An event whose setters leave handles and the state of connections alone. -/
def Event.KeepsHandles : Event → Prop
  | .tracker operation => operation.KeepsHandles
  | _ => True

/-- An event that erases nothing, and whose setters leave handles and the state of
connections alone. -/
def Event.Lasts : Event → Prop
  | .tracker operation => operation.Lasts
  | _ => True

theorem Event.Lasts.keepsHandles {event : Event} (lasts : event.Lasts) :
    event.KeepsHandles := by
  cases event with
  | tracker operation => exact Operation.Lasts.keepsHandles lasts
  | _ => trivial

/-- What receiving a packet, or handling the pins, does to the links and to the lists that
name packets. -/
structure Receives (before after : Tracker) (fresh : Address) : Prop where
  connections : after.connections = before.connections
  generation : after.nextGeneration = before.nextGeneration
  announce : after.announce.address = before.announce.address
  targeted : after.targetedPacketsToSendList = before.targetedPacketsToSendList
  sent : ∀ entry ∈ after.packetsConnectionsSentList.entries,
    entry ∈ before.packetsConnectionsSentList.entries ∨ entry.1 = fresh
  remembered : ∀ entry ∈ before.packetsConnectionsSentList.entries,
    entry ∈ after.packetsConnectionsSentList.entries
  broadcast : ∀ packet ∈ after.broadcastPacketsToSendList,
    packet ∈ before.broadcastPacketsToSendList ∨ packet = fresh

variable {platform : Platform} {before after : Repeater} {event : Event}

theorem Receives.refl (tracker : Tracker) (fresh : Address) :
    Receives tracker tracker fresh :=
  ⟨rfl, rfl, rfl, rfl, fun _ => Or.inl, fun _ => id, fun _ => Or.inl⟩

theorem Receives.trans {before middle after : Tracker} {fresh : Address}
    (first : Receives before middle fresh) (second : Receives middle after fresh) :
    Receives before after fresh where
  connections := second.connections.trans first.connections
  generation := second.generation.trans first.generation
  announce := second.announce.trans first.announce
  targeted := second.targeted.trans first.targeted
  sent entry member := (second.sent entry member).elim (first.sent entry) Or.inr
  remembered entry member := second.remembered entry (first.remembered entry member)
  broadcast packet member := (second.broadcast packet member).elim (first.broadcast packet)
    Or.inr

namespace Receives

variable {before after : Tracker} {fresh : Address}

theorem connectionAt (receives : Receives before after fresh) (ref : ConnectionRef) :
    after.connectionAt ref = before.connectionAt ref := by
  rw [Tracker.connectionAt, Tracker.connectionAt, receives.connections]

theorem handleAt (receives : Receives before after fresh) (ref : ConnectionRef) :
    after.handleAt ref = before.handleAt ref := by
  rw [Tracker.handleAt, Tracker.handleAt, receives.connectionAt]

theorem handlesKnown (receives : Receives before after fresh) (known : before.HandlesKnown) :
    after.HandlesKnown where
  connected ref connection found :=
    known.connected ref connection (receives.connectionAt ref ▸ found)
  created ref there := by
    rw [receives.generation]
    exact known.created ref (receives.connectionAt ref ▸ there)

end Receives

theorem receives_enqueueBroadcastPacket {tracker after : Tracker} {packet : Address}
    (done : tracker.enqueueBroadcastPacket packet = some after) :
    Receives tracker after packet := by
  obtain ⟨_, _, ⟨_, rfl⟩ | ⟨_, rfl⟩⟩ := enqueueBroadcastPacket_cases done
  · refine ⟨rfl, rfl, rfl, rfl, fun _ => Or.inl, fun _ => id, ?_⟩
    intro other member
    exact (List.mem_append.mp member).imp id List.mem_singleton.mp
  · exact .refl _ packet

theorem receives_of_write {write : Write} (separate : before.tracker.Separate)
    (step : WriteStep platform before write after) :
    Receives before.tracker after.tracker write.address := by
  obtain ⟨free, done⟩ := processWrite_of_step step
  have place : after.tracker.announce.address = before.tracker.announce.address := by
    obtain ⟨operations, run⟩ := processWrite_run separate free done
    have preserved : ∀ {start operation finish},
        start.announce.address = before.tracker.announce.address →
        Guarded (Handles write.address
          (ProtocolProcessor.received write.offset write.buffer).kept)
          (OperationStep platform) start operation finish →
        finish.announce.address = before.tracker.announce.address := by
      intro start operation finish same step
      exact (places_of_step step.2).1.trans same
    exact run.invariant preserved rfl
  have broadcast : ∀ packet ∈ after.tracker.broadcastPacketsToSendList,
      packet ∈ before.tracker.broadcastPacketsToSendList ∨ packet = write.address := by
    intro packet member
    rcases broadcast_of_write separate step with same | ⟨_, added⟩
    · exact Or.inl (same ▸ member)
    · rw [added] at member
      exact (List.mem_append.mp member).imp id List.mem_singleton.mp
  by_cases new : (ProtocolProcessor.received write.offset write.buffer).New platform
      before.tracker
  · have board := board_processWrite_new new done
    have sent : after.tracker.packetsConnectionsSentList =
        before.tracker.packetsConnectionsSentList.emplace write.address write.connection :=
      congrArg Board.sent board
    refine ⟨congrArg Board.connections board, congrArg Board.nextGeneration board, place,
      congrArg Board.targeted board, ?_, ?_, broadcast⟩
    · intro entry member
      rw [sent] at member
      exact (MultiMap.mem_emplace.mp member).symm.imp id fun same => congrArg Prod.fst same
    · intro entry member
      rw [sent]
      exact MultiMap.mem_emplace.mpr (Or.inr member)
  · have board := board_processWrite_known new done
    have sent : after.tracker.packetsConnectionsSentList =
        before.tracker.packetsConnectionsSentList := congrArg Board.sent board
    refine ⟨congrArg Board.connections board, congrArg Board.nextGeneration board, place,
      congrArg Board.targeted board, ?_, ?_, broadcast⟩
    · intro entry member
      exact Or.inl (sent ▸ member)
    · intro entry member
      exact sent.symm ▸ member

section Calls

variable {tracker last : Tracker} {uptime : UInt64} {address : Address}
  {connection : ConnectionRef} {conHandle offset : UInt16} {buffer : Buffer}

/-- A call of `processWrite` as an event of a repeater around the tracker. -/
theorem writeStep_of_processWrite (free : tracker.packetAt address = none)
    (done : processWrite platform tracker uptime address connection conHandle offset buffer =
      some last) :
    WriteStep platform { tracker := tracker }
      ⟨uptime, address, connection, conHandle, offset, buffer⟩ { tracker := last } :=
  ⟨free, by simp [Write.event, Event.apply, done]⟩

theorem receives_of_processWrite (separate : tracker.Separate)
    (free : tracker.packetAt address = none)
    (done : processWrite platform tracker uptime address connection conHandle offset buffer =
      some last) : Receives tracker last address ∧ last.Separate := by
  have step := writeStep_of_processWrite free done
  have apart : ({ tracker := tracker } : Repeater).tracker.Separate := separate
  exact ⟨receives_of_write apart step, separate_of_event apart step⟩

end Calls

theorem receives_handlePinActivity {uptime : UInt64} {address : Address}
    (done : before.handlePinActivity platform uptime address = some after) :
    Receives before.tracker after.tracker address := by
  rcases handlePinActivity_cases done with idle | ⟨known, queued⟩
  · rw [idle]
    exact .refl before.tracker address
  · have stored : Receives before.tracker (before.tracker.storeMessageAndReturnIfNew
        address (pinMessageOf platform before uptime)).2 address := by
      simp only [storeMessageAndReturnIfNew, known]
      exact ⟨rfl, rfl, rfl, rfl, fun _ => Or.inl, fun _ => id, fun _ => Or.inl⟩
    exact stored.trans (receives_enqueueBroadcastPacket queued)

theorem announce_ne_of_free {tracker : Tracker} {address : Address}
    (free : tracker.packetAt address = none) : tracker.announce.address ≠ address := by
  rintro rfl
  exact not_live free (live_announce tracker)

/-- An event receives a packet at a free address, or is an operation of the tracker. -/
theorem receives_or_operation (separate : before.tracker.Separate)
    (step : EventStep platform before event after) :
    (∃ fresh, before.tracker.announce.address ≠ fresh ∧
      Receives before.tracker after.tracker fresh) ∧
        (∀ operation, event ≠ .tracker operation) ∨
      ∃ operation, event = .tracker operation ∧ direct operation = true ∧
        OperationStep platform before.tracker operation after.tracker := by
  cases event with
  | gpioCallback gpio fell =>
      obtain ⟨_, done⟩ := step
      cases done
      exact Or.inl ⟨⟨_, Nat.ne_of_lt (Nat.lt_succ_self _), .refl _ _⟩, by simp⟩
  | handlePinActivity uptime address =>
      exact Or.inl ⟨⟨address, announce_ne_of_free step.1, receives_handlePinActivity step.2⟩,
        by simp⟩
  | processWrite uptime address connection conHandle offset buffer =>
      have receives := @receives_of_write platform before after
        ⟨uptime, address, connection, conHandle, offset, buffer⟩ separate step
      exact Or.inl ⟨⟨address, announce_ne_of_free step.1, receives⟩, by simp⟩
  | tracker operation => exact Or.inr ⟨operation, rfl, step.1, operation_of_event step⟩

end BleRepeater.Repeater
