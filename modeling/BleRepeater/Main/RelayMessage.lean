import BleRepeater.Main.Repeater

/-!
# Relaying messages

The flag 0x10 of a message announces the id of its sender peer.  The reader takes the flag
and never sets the peer, and the writer follows it when the flag is set.  What waits to be
sent can be written in every run whose new messages come without the flag, and in no other.
-/

namespace BleRepeater

open BinaryReader BinaryWriter Transition Tracker ProtocolProcessor Repeater

/-! ## Writing what was received -/

/-- The reader never sets the sender peer. -/
theorem yields_senderPeer (type version : UInt8) :
    Yields (Message.read type version) fun message => message.senderPeer = none := by
  unfold Message.read
  repeat' refine Yields.bind fun _ => ?_
  exact Yields.pure rfl

theorem yields_receive : Yields receive fun found =>
    ∀ message, found = .message message → message.senderPeer = none := by
  unfold receive
  refine Yields.bind fun version => ?_
  split
  · exact Yields.pure (by simp)
  · refine Yields.bind fun type => ?_
    split
    · exact Yields.bind fun announce => Yields.pure (by simp)
    · split
      · refine Yields.bind_of (yields_senderPeer type version) fun message none => ?_
        refine Yields.pure ?_
        intro other same
        cases same
        exact none
      · exact Yields.pure (by simp)

/-- A received message has no sender peer, whatever its flags. -/
theorem senderPeer_received {offset : UInt16} {buffer : Buffer} {message : Message}
    (found : received offset buffer = .message message) : message.senderPeer = none :=
  yields_receive _ message found

theorem writePacket_message_isSome {message : Message} :
    ((Packet.message message).writePacket []).isSome ↔
      (message.hasSenderPeerID = true → message.senderPeer.isSome) := by
  change (message.writePacketPayload _).isSome ↔ _
  unfold Message.writePacketPayload
  cases message.hasSenderPeerID <;> cases message.senderPeer <;> simp

theorem writePacket_passAlong_isSome (packet : PacketPassAlong) :
    ((Packet.passAlong packet).writePacket []).isSome := rfl

theorem writePacket_announce_isSome (announce : Announce) :
    ((Packet.announce announce).writePacket []).isSome := rfl

/-! ## What waits can be written -/

/-- Every packet that waits to be sent can be written. -/
def QueueWritable (tracker : Tracker) : Prop :=
  (∀ packet ∈ tracker.broadcastPacketsToSendList, tracker.Writable packet) ∧
    ∀ packet ref, (packet, ref) ∈ tracker.targetedPacketsToSendList.entries →
      tracker.Writable packet

/-- What holds of the objects and the queues in a run: objects lie apart, packets for
everyone can be written, and the only packet for one connection is the own announce. -/
structure Queues (tracker : Tracker) : Prop where
  separate : tracker.Separate
  broadcast : ∀ packet ∈ tracker.broadcastPacketsToSendList, tracker.Writable packet
  targeted : ∀ packet ref, (packet, ref) ∈ tracker.targetedPacketsToSendList.entries →
    packet = tracker.announce.address

theorem writable_announce (tracker : Tracker) : tracker.Writable tracker.announce.address := by
  refine ⟨.announce tracker.announce.object, ?_, writePacket_announce_isSome _⟩
  simp [packetAt]

theorem Queues.writable {tracker : Tracker} (queues : Queues tracker) :
    QueueWritable tracker := by
  refine ⟨queues.broadcast, ?_⟩
  intro packet ref waits
  rw [queues.targeted packet ref waits]
  exact writable_announce tracker

/-- An object can be written as long as it is kept. -/
theorem writable_of_kept {before after : Tracker} {packet : Address}
    (separate : after.Separate) (writable : before.Writable packet)
    (kept : ∀ {place object}, before.Holds packet place object →
      ∃ other, after.Holds packet place other ∧ (place ≠ .announce → object = other)) :
    after.Writable packet := by
  obtain ⟨object, found, written⟩ := writable
  obtain ⟨place, holds⟩ := holds_of_packetAt found
  obtain ⟨other, there, same⟩ := kept holds
  refine ⟨other, separate.packetAt_iff.mpr ⟨place, there⟩, ?_⟩
  by_cases own : place = .announce
  · subst own
    cases there
    exact writePacket_announce_isSome _
  · rw [← same own]
    exact written

/-- An operation that enqueues nothing but packets that can be written. -/
theorem Queues.step {platform : Platform} {before after : Tracker} {operation : Operation}
    (queues : Queues before) (step : OperationStep platform before operation after)
    (writes : ∀ packet, operation.Broadcasts packet → before.Travels packet →
      before.Writable packet)
    (announces : ∀ packet, operation.Targets before packet →
      packet = before.announce.address) : Queues after := by
  have separate := queues.separate.step step
  cases effect_of_step step with
  | relists _ relists =>
      refine ⟨separate, ?_, ?_⟩
      · intro packet waits
        have writable : before.Writable packet := by
          rcases relists.broadcast packet waits with old | ⟨new, travels⟩
          · exact queues.broadcast packet old
          · exact writes packet new travels
        exact writable_of_kept separate writable relists.kept
      · intro packet ref waits
        rw [relists.announce]
        rcases relists.targeted packet ref waits with old | new
        · exact queues.targeted packet ref old
        · exact announces packet new
  | stores _ _ _ stores =>
      refine ⟨separate, ?_, ?_⟩
      · intro packet waits
        rw [stores.broadcast] at waits
        exact writable_of_kept separate (queues.broadcast packet waits)
          fun holds => ⟨_, stores.kept holds, fun _ => rfl⟩
      · rw [stores.targeted, stores.announce]
        exact queues.targeted
  | cleans uptime cleans =>
      refine ⟨separate, ?_, ?_⟩
      · intro packet waits
        obtain ⟨listed, recent⟩ := (cleans.broadcast packet).mp waits
        obtain ⟨object, found, recent⟩ := packetStale_eq_false.mp recent
        refine writable_of_kept separate (queues.broadcast packet listed) ?_
        intro place other holds
        have same := queues.separate.packetAt_iff.mpr ⟨place, holds⟩
        cases found.symm.trans same
        exact ⟨_, cleans.kept holds (Or.inr recent), fun _ => rfl⟩
      · intro packet ref waits
        rw [cleans.announce]
        exact queues.targeted packet ref ((cleans.targeted _).mp waits).1

/-! ## Events -/

/-- A new message that will be sent on comes without the flag for a sender peer. -/
def SenderPeerAbsent (repeater : Repeater) : Event → Prop
  | .processWrite _ _ _ _ offset buffer => ∀ message,
      received offset buffer = .message message →
      repeater.tracker.messages.find? message.messageId = none →
      message.packetTtl > 0 → message.hasSenderPeerID = false
  | _ => True

variable {platform : Platform} {before after : Repeater} {event : Event}

/-- Operations that handle one object that can be written, if it is sent on at all. -/
theorem Queues.handles {address : Address} {kept : Option Packet} {start finish : Tracker}
    {operations : List Operation} (queues : Queues start)
    (run : Run (Guarded (Handles address kept) (OperationStep platform)) start operations
      finish)
    (written : ∀ object, kept = some object → object.base.packetTtl > 0 →
      (object.writePacket []).isSome) : Queues finish := by
  refine run.invariant ?_ queues
  intro start operation finish queues ⟨handles, step⟩
  apply queues.step step
  · intro packet new ⟨object, found, travels⟩
    have same := (handles.broadcasts packet new).2
    exact ⟨object, found, written object (same.symm.trans found) travels⟩
  · intro packet target
    exact absurd target (handles.noTarget packet)

theorem targets_of_direct {tracker : Tracker} {operation : Operation}
    (main : direct operation = true) :
    operation.Broadcasts = nothing ∧
      ∀ packet, operation.Targets tracker packet → packet = tracker.announce.address := by
  cases operation <;> simp_all [direct, Operation.Broadcasts, Operation.Targets, nothing]

/-- An event keeps the queues when it brings no message with the flag. -/
theorem Queues.of_event (queues : Queues before.tracker)
    (step : EventStep platform before event after)
    (absent : SenderPeerAbsent before event) : Queues after.tracker := by
  obtain ⟨allowed, done⟩ := step
  cases event with
  | gpioCallback gpio fell =>
      cases done
      exact queues
  | tracker operation =>
      obtain ⟨noBroadcast, announces⟩ := targets_of_direct allowed
      refine queues.step (operation_of_event ⟨allowed, done⟩) ?_ announces
      intro packet new
      rw [noBroadcast] at new
      exact new.elim
  | handlePinActivity uptime address =>
      obtain ⟨operations, run⟩ := handlePinActivity_run queues.separate allowed done
      refine queues.handles run ?_
      intro object same _
      cases same
      have clear : (pinMessageOf platform before uptime).hasSenderPeerID = false := by
        simp [pinMessageOf, pinMessage, Message.hasSenderPeerID]
      rw [writePacket_message_isSome, clear]
      simp
  | processWrite uptime address connection conHandle offset buffer =>
      obtain ⟨tracker, processed, same⟩ := Option.bind_eq_some_iff.mp done
      cases same
      cases found : received offset buffer with
      | ignored =>
          simp only [processWrite, found] at processed
          cases processed
          exact queues
      | announce announce =>
          simp only [processWrite, found] at processed
          obtain ⟨operations, run⟩ := processAnnounce_run queues.separate allowed processed
          refine queues.handles run ?_
          intro object same _
          cases same
          exact writePacket_passAlong_isSome _
      | message message =>
          simp only [processWrite, found] at processed
          cases known : before.tracker.messages.find? message.messageId with
          | some entry =>
              cases (processMessage_known known).symm.trans processed
              exact queues
          | none =>
              obtain ⟨operations, run⟩ :=
                processMessage_run platform queues.separate allowed processed
              refine queues.handles run ?_
              intro object same travels
              cases same
              rw [writePacket_message_isSome, absent message found known travels]
              simp

/-- An event that leaves what waits writable brings no message with the flag. -/
theorem senderPeerAbsent_of_writable (separate : before.tracker.Separate)
    (step : EventStep platform before event after)
    (writable : QueueWritable after.tracker) : SenderPeerAbsent before event := by
  cases event with
  | processWrite uptime address connection conHandle offset buffer =>
      intro message found new travels
      obtain ⟨tracker, processed, same⟩ := Option.bind_eq_some_iff.mp step.2
      cases same
      obtain ⟨kept, same, accepted⟩ := accepted_of_processWrite separate step.1
        (by rw [found]; exact new) processed
      rw [found] at same
      cases same
      have waits : address ∈ tracker.broadcastPacketsToSendList := by
        have travels : (Packet.message message).base.packetTtl > 0 := travels
        rw [accepted.queued, if_pos travels]
        simp
      obtain ⟨object, there, written⟩ := writable.1 address waits
      cases there.symm.trans accepted.found
      rw [writePacket_message_isSome, senderPeer_received found] at written
      simpa using written
  | _ => trivial

theorem queues_new (address : Address) : Queues (Tracker.new address) :=
  ⟨separate_new address, by simp [Tracker.new], by simp [Tracker.new]⟩

/-- The runs whose new messages with TTL left come without the flag for a sender peer are
the runs in which every packet that waits to be sent can always be written. -/
theorem senderPeerAbsent_run_iff (platform : Platform) (address : Address)
    (events : List Event) (repeater : Repeater) :
    Run (Guarded SenderPeerAbsent (EventStep platform)) (Repeater.new address) events
        repeater ↔
      Run (fun before event after => EventStep platform before event after ∧
        QueueWritable after.tracker) (Repeater.new address) events repeater := by
  constructor
  · intro run
    apply run.refine_of_invariant (fun repeater => Queues repeater.tracker) _
      (queues_new address)
    intro before event after queues ⟨absent, step⟩
    have next := queues.of_event step absent
    exact ⟨⟨step, next.writable⟩, next⟩
  · intro run
    apply run.refine_of_invariant (fun repeater => Queues repeater.tracker) _
      (queues_new address)
    intro before event after queues ⟨step, writable⟩
    have absent := senderPeerAbsent_of_writable queues.separate step writable
    exact ⟨⟨absent, step⟩, queues.of_event step absent⟩

/-- A message with the flag comes from 0x40, and 0x41 could be sent to. -/
def flaggedMessage : List Event :=
  [.tracker (.reportConnection 0 0x40 [1, 2, 3, 4, 5, 6] 0),
    .tracker (.reportConnection 0 0x41 [1, 2, 3, 4, 5, 7] 0),
    .tracker (.updateConnection ⟨0x41, 1⟩ fun connection =>
      { connection with packetCharacteristicValueHandle := 9 }),
    .processWrite 0 200 ⟨0x40, 0⟩ 0x40 0
      ⟨[1, 66, 7, 0, 0, 0, 0, 0, 0, 3, 232, 0, 0, 0, 0, 0, 0, 0, 0, 9, 16,
        0, 0, 0, 0, 0, 0, 3, 232, 1, 5, 0, 0, 0], by decide⟩]

/-- The message waits to be sent and cannot be written, and `sendPackets` follows the null
pointer. -/
theorem flaggedMessage_unwritable :
    ∃ repeater, Run (EventStep bytesSummed) (Repeater.new 100) flaggedMessage repeater ∧
      200 ∈ repeater.tracker.broadcastPacketsToSendList ∧
      ¬ repeater.tracker.Writable 200 ∧ repeater.tracker.sendPackets.isNone := by
  have outcome : (follow (Event.next bytesSummed · ·) flaggedMessage
      (Repeater.new 100)).map (fun repeater =>
        (repeater.tracker.broadcastPacketsToSendList,
          (repeater.tracker.packetAt 200).bind fun object => object.writePacket [],
          repeater.tracker.sendPackets.isNone)) = some ([200], none, true) := by decide
  obtain ⟨repeater, done, same⟩ := Option.map_eq_some_iff.mp outcome
  obtain ⟨queued, same⟩ := Prod.mk.inj same
  obtain ⟨unwritten, stuck⟩ := Prod.mk.inj same
  refine ⟨repeater, Run.of_follow event_of_next done, by simp [queued], ?_, stuck⟩
  intro ⟨object, found, written⟩
  rw [found, Option.bind_some] at unwritten
  rw [unwritten] at written
  cases written

end BleRepeater