import BleRepeater.Main.Repeater

/-!
# Pin activity

The message of `handlePinActivity` takes its id from the clock, but only from the lowest
sixteen bits of it, and a message under a known id is dropped.  Which ids are known is a
matter of the run so far: those that an earlier call or a received message has brought and
no clean-up has dropped since.
-/

namespace BleRepeater.Repeater

open BinaryWriter Transition Tracker ProtocolProcessor

/-! ## Message ids -/

theorem writeUint32_inj {first second : UInt16}
    (same : writeUint32 [] first = writeUint32 [] second) : first = second := by
  simp only [writeUint32, List.nil_append, List.cons.injEq, BigEndian.mask_byte,
    and_true] at same
  obtain ⟨_, _, high, low⟩ := same
  have high := congrArg UInt8.toNat high
  have low := congrArg UInt8.toNat low
  apply UInt16.toNat_inj.mp
  have firstBounded := first.toNat_lt
  have secondBounded := second.toNat_lt
  simp [Nat.shiftRight_eq_div_pow] at high low
  omega

/-- Two clocks give one message id exactly when they agree in their lowest sixteen bits. -/
theorem messageIdString_eq_iff (sender first second : UInt64) :
    messageIdString sender first = messageIdString sender second ↔
      first.toNat % 2 ^ 16 = second.toNat % 2 ^ 16 := by
  have narrowed : first.toUInt16 = second.toUInt16 ↔
      first.toNat % 2 ^ 16 = second.toNat % 2 ^ 16 := by
    rw [← UInt16.toNat_inj]
    simp
  rw [← narrowed]
  constructor
  · intro same
    have long : ∀ value : UInt16, (writeUint32 [] value).length = 4 := fun _ => rfl
    have prefixes := congrArg (List.take 4) same
    rw [messageIdString, messageIdString, writeUint64_eq_append,
      writeUint64_eq_append (writeUint8 (writeUint32 [] second.toUInt16) 45)] at prefixes
    simp only [writeUint8, List.append_assoc] at prefixes
    rw [List.take_left' (long _), List.take_left' (long _)] at prefixes
    exact writeUint32_inj prefixes
  · intro same
    rw [messageIdString, messageIdString, same]

/-! ## Known ids -/

/-- A message is stored under an id. -/
def Knows (id : Bytes) (repeater : Repeater) : Prop :=
  (repeater.tracker.messages.find? id).isSome

/-- The id of the message that a call makes when the clock stands at `clock`. -/
def pinId (platform : Platform) (clock : UInt64) : Bytes :=
  messageIdString (senderOfAddress platform.localAddress) clock

/-- A call of `handlePinActivity` at a clock that agrees with `clock` in its lowest sixteen
bits, or a received message under the id that such a call makes. -/
def Brings (platform : Platform) (clock : UInt64) (repeater : Repeater) : Event → Prop
  | .handlePinActivity uptime _ => (repeater.smokeSeen || repeater.lifeCheck) = true ∧
      (repeater.tracker.timeMs uptime).toNat % 2 ^ 16 = clock.toNat % 2 ^ 16
  | .processWrite _ _ _ _ offset buffer => ∃ message,
      received offset buffer = .message message ∧ message.messageId = pinId platform clock
  | _ => False

/-- A clean-up that finds the message under an id too old. -/
def Drops (id : Bytes) (repeater : Repeater) : Event → Prop
  | .tracker (.cleanupStaleItems uptime) => ∃ stored,
      repeater.tracker.messages.find? id = some stored ∧
        stale stored.object.packetTimestampMs (repeater.tracker.timeMs uptime) = true
  | _ => False

variable {platform : Platform} {before after : Repeater} {event : Event}

/-- A new message of `handlePinActivity` is added to the messages. -/
theorem messages_handlePinActivity_new {uptime : UInt64} {address : Address}
    (pressed : (before.smokeSeen || before.lifeCheck) = true)
    (new : before.tracker.messages.find?
      (pinMessageOf platform before uptime).messageId = none)
    (done : before.handlePinActivity platform uptime address = some after) :
    after.tracker.messages = before.tracker.messages.insert
      (pinMessageOf platform before uptime).messageId
        ⟨address, pinMessageOf platform before uptime⟩ := by
  rw [handlePinActivity_new pressed new] at done
  obtain ⟨tracker, queued, same⟩ := Option.map_eq_some_iff.mp done
  cases same
  rw [(relists_enqueueBroadcastPacket queued).messages]
  simp [storeMessageAndReturnIfNew, new]

theorem knows_direct {next : Tracker} {operation : Operation} {id : Bytes}
    (main : direct operation = true)
    (done : operation.apply platform before.tracker = some next) :
    Knows id { before with tracker := next } ↔
      Knows id before ∧ ¬ Drops id before (.tracker operation) := by
  have step : OperationStep platform before.tracker operation next :=
    ⟨allowed_of_direct main, done⟩
  cases effect_of_step step with
  | relists other relists =>
      have spares : ¬ Drops id before (.tracker operation) := by
        cases operation with
        | cleanupStaleItems uptime => exact absurd rfl (other uptime)
        | _ => exact not_false
      simp only [Knows, relists.messages]
      exact ⟨fun known => ⟨known, spares⟩, And.left⟩
  | stores _ carries _ _ => cases operation <;> simp_all [direct, Operation.Carries]
  | cleans uptime cleans =>
      simp only [Knows, OrderedMap.find?_isSome_iff]
      constructor
      · intro known
        obtain ⟨stored, listed⟩ := known
        obtain ⟨old, recent⟩ := (cleans.messages _).mp listed
        refine ⟨⟨stored, old⟩, ?_⟩
        intro dropped
        obtain ⟨other, found, stale⟩ := dropped
        cases (OrderedMap.find?_eq_some_iff.mpr old).symm.trans found
        exact absurd (stale.symm.trans recent) (by simp)
      · intro kept
        obtain ⟨⟨stored, listed⟩, spares⟩ := kept
        have found := OrderedMap.find?_eq_some_iff.mpr listed
        refine ⟨stored, (cleans.messages _).mpr ⟨listed, ?_⟩⟩
        apply Bool.eq_false_iff.mpr
        intro old
        exact spares ⟨stored, found, old⟩

theorem knows_of_known {id other : Bytes} {entry : Stored Message}
    (known : before.tracker.messages.find? other = some entry) :
    Knows id before ↔ other = id ∨ Knows id before := by
  constructor
  · exact Or.inr
  · rintro (rfl | old)
    · simp [Knows, known]
    · exact old

theorem knows_of_insert {id other : Bytes} {entry : Stored Message}
    (stored : after.tracker.messages = before.tracker.messages.insert other entry) :
    Knows id after ↔ other = id ∨ Knows id before := by
  rw [Knows, stored, OrderedMap.find?_insert]
  split
  · rename_i same
    simp [same]
  · rename_i different
    simp [Ne.symm different, Knows]

/-- An id is known after an event that brings it, and stays known until it is dropped. -/
theorem knows_step {clock : UInt64} (step : EventStep platform before event after) :
    Knows (pinId platform clock) after ↔ Brings platform clock before event ∨
      Knows (pinId platform clock) before ∧
        ¬ Drops (pinId platform clock) before event := by
  obtain ⟨allowed, done⟩ := step
  cases event with
  | gpioCallback gpio fell =>
      cases done
      simp [Knows, Brings, Drops, gpioCallback]
  | tracker operation =>
      obtain ⟨tracker, applied, same⟩ := Option.bind_eq_some_iff.mp done
      cases same
      simp only [Brings, false_or]
      exact knows_direct allowed applied
  | handlePinActivity uptime address =>
      by_cases pressed : (before.smokeSeen || before.lifeCheck) = true
      · have sameId : (pinMessageOf platform before uptime).messageId =
            pinId platform clock ↔
              (before.tracker.timeMs uptime).toNat % 2 ^ 16 = clock.toNat % 2 ^ 16 :=
          messageIdString_eq_iff _ _ _
        simp only [Brings, Drops, pressed, true_and, not_false_eq_true, and_true, ← sameId]
        cases known : before.tracker.messages.find?
            (pinMessageOf platform before uptime).messageId with
        | some entry =>
            cases (handlePinActivity_known pressed known).symm.trans done
            exact knows_of_known known
        | none =>
            exact knows_of_insert (messages_handlePinActivity_new pressed known done)
      · cases (handlePinActivity_idle pressed).symm.trans done
        simp [Brings, Drops, pressed]
  | processWrite uptime address connection conHandle offset buffer =>
      obtain ⟨tracker, processed, same⟩ := Option.bind_eq_some_iff.mp done
      cases same
      simp only [Brings, Drops, not_false_eq_true, and_true]
      cases found : received offset buffer with
      | ignored =>
          simp only [processWrite, found] at processed
          cases processed
          simp
      | announce announce =>
          simp only [processWrite, found] at processed
          simp [Knows, messages_processAnnounce processed]
      | message message =>
          simp only [processWrite, found] at processed
          simp only [Received.message.injEq, exists_eq_left']
          cases known : before.tracker.messages.find? message.messageId with
          | some entry =>
              cases (processMessage_known known).symm.trans processed
              exact knows_of_known known
          | none =>
              exact knows_of_insert (messages_processMessage_new known processed)

/-! ## Calls -/

/-- A call of `handlePinActivity` with a flag set. -/
structure PinCall (platform : Platform) (before : Repeater) (uptime : UInt64)
    (address : Address) (after : Repeater) : Prop where
  pressed : (before.smokeSeen || before.lifeCheck) = true
  step : EventStep platform before (.handlePinActivity uptime address) after

/-- The message of a call is stored as new and appended to the packets for everyone. -/
structure Reported (platform : Platform) (before : Repeater) (uptime : UInt64)
    (address : Address) (after : Repeater) : Prop where
  new : (before.tracker.storeMessageAndReturnIfNew address
    (pinMessageOf platform before uptime)).1 = some address
  stored : after.tracker.packetAt address = some (.message (pinMessageOf platform before uptime))
  queued : after.tracker.broadcastPacketsToSendList =
    before.tracker.broadcastPacketsToSendList ++ [address]

theorem storeMessage_isNew_iff {tracker : Tracker} {address : Address} {message : Message} :
    (tracker.storeMessageAndReturnIfNew address message).1 = some address ↔
      tracker.messages.find? message.messageId = none := by
  unfold storeMessageAndReturnIfNew
  dsimp only
  split <;> simp_all

theorem reported_iff {uptime : UInt64} {address : Address}
    (separate : before.tracker.Separate)
    (call : PinCall platform before uptime address after) :
    Reported platform before uptime address after ↔
      ¬ Knows (pinId platform (before.tracker.timeMs uptime)) before := by
  have sameId : (pinMessageOf platform before uptime).messageId =
      pinId platform (before.tracker.timeMs uptime) := rfl
  rw [Knows, Option.not_isSome_iff_eq_none, ← sameId]
  constructor
  · intro reported
    exact storeMessage_isNew_iff.mp reported.new
  · intro new
    have done := (handlePinActivity_new call.pressed new).symm.trans call.step.2
    obtain ⟨tracker, queued, same⟩ := Option.map_eq_some_iff.mp done
    cases same
    have stores := stores_storeMessage address new
    have found := (stores.separate (not_live call.step.1) separate).packetAt_iff.mpr
      ⟨_, stores.here⟩
    have travels : (Packet.message (pinMessageOf platform before uptime)).base.packetTtl >
        0 := (by decide : (7 : UInt8) > 0)
    simp only [enqueueBroadcastPacket, found, Option.bind_eq_bind, Option.bind_some,
      if_pos travels] at queued
    cases queued
    exact ⟨storeMessage_isNew_iff.mpr new, found, congrArg (· ++ [address]) stores.broadcast⟩

/-- A call is reported exactly when nothing in the run so far has brought the id of its
message without being cleaned up since. -/
theorem reported_iff_of_run {start address : Address} {events : List Event}
    {uptime : UInt64} (run : Run (EventStep platform) (Repeater.new start) events before)
    (call : PinCall platform before uptime address after) :
    Reported platform before uptime address after ↔
      ¬ BroughtSince (EventStep platform) (Brings platform (before.tracker.timeMs uptime))
        (Drops (pinId platform (before.tracker.timeMs uptime))) (Repeater.new start) events
        before := by
  have fresh : ¬ Knows (pinId platform (before.tracker.timeMs uptime)) (Repeater.new start) := by
    simp [Knows, Repeater.new, Tracker.new]
  have known := run.has_iff_broughtSince knows_step fresh
  rw [reported_iff (separate_of_run run) call, known]

/-- Two calls in a run make messages of different ids that are both stored as new and sent
on exactly when the clocks differ in their lowest sixteen bits and for neither call
anything in the run so far has brought its id without being cleaned up since. -/
theorem alarms_apart_iff {start address called : Address} {events others : List Event}
    {first middle second last : Repeater} {uptime later : UInt64}
    (run : Run (EventStep platform) (Repeater.new start) events first)
    (call : PinCall platform first uptime address middle)
    (between : Run (EventStep platform) middle others second)
    (again : PinCall platform second later called last) :
    ((pinMessageOf platform first uptime).messageId ≠
        (pinMessageOf platform second later).messageId ∧
      Reported platform first uptime address middle ∧
      Reported platform second later called last) ↔
    ((first.tracker.timeMs uptime).toNat % 2 ^ 16 ≠
        (second.tracker.timeMs later).toNat % 2 ^ 16 ∧
      ¬ BroughtSince (EventStep platform) (Brings platform (first.tracker.timeMs uptime))
        (Drops (pinId platform (first.tracker.timeMs uptime))) (Repeater.new start)
        events first ∧
      ¬ BroughtSince (EventStep platform) (Brings platform (second.tracker.timeMs later))
        (Drops (pinId platform (second.tracker.timeMs later))) (Repeater.new start)
        (events ++ .handlePinActivity uptime address :: others) second) := by
  have whole := run.append (.cons call.step between)
  rw [reported_iff_of_run run call, reported_iff_of_run whole again]
  exact and_congr_left' (not_congr (messageIdString_eq_iff _ _ _))

/-- A life check is asked for. -/
def lifeCheckPressed : Repeater :=
  (Repeater.new 100).gpioCallback lifeCheckPin true

/-- The life check is reported when the clock stands at 1000. -/
def lifeChecked : Repeater :=
  (lifeCheckPressed.handlePinActivity bytesSummed 1000000 200).getD lifeCheckPressed

/-- Smoke is seen. -/
def smokePressed : Repeater :=
  lifeChecked.gpioCallback smokeSeenPin true

theorem pinCall_lifeChecked :
    PinCall bytesSummed lifeCheckPressed 1000000 200 lifeChecked :=
  ⟨rfl, rfl, rfl⟩

theorem run_smokePressed : Run (EventStep bytesSummed) (Repeater.new 100)
    [.gpioCallback lifeCheckPin true, .handlePinActivity 1000000 200,
      .gpioCallback smokeSeenPin true] smokePressed :=
  .cons ⟨trivial, rfl⟩ (.cons pinCall_lifeChecked.step (.cons ⟨trivial, rfl⟩ (.nil _)))

/-- One second later the smoke is reported. -/
theorem alarms_apart_iff_second :
    ∃ last, PinCall bytesSummed smokePressed 2000000 201 last ∧
      ¬ BroughtSince (EventStep bytesSummed) (Brings bytesSummed 2000)
        (Drops (pinId bytesSummed 2000)) (Repeater.new 100)
        [.gpioCallback lifeCheckPin true, .handlePinActivity 1000000 200,
          .gpioCallback smokeSeenPin true] smokePressed := by
  obtain ⟨last, done⟩ := Option.isSome_iff_exists.mp
    (show (smokePressed.handlePinActivity bytesSummed 2000000 201).isSome by decide)
  have again : PinCall bytesSummed smokePressed 2000000 201 last := ⟨rfl, rfl, done⟩
  have pressed : Run (EventStep bytesSummed) (Repeater.new 100)
      [.gpioCallback lifeCheckPin true] lifeCheckPressed := .cons ⟨trivial, rfl⟩ (.nil _)
  have between : Run (EventStep bytesSummed) lifeChecked
      [.gpioCallback smokeSeenPin true] smokePressed := .cons ⟨trivial, rfl⟩ (.nil _)
  have apart := alarms_apart_iff pressed pinCall_lifeChecked between again
  refine ⟨last, again, (apart.mp ⟨by decide, ?_, ?_⟩).2.2⟩
  · exact (reported_iff (separate_of_run pressed) pinCall_lifeChecked).mpr
      (by unfold Knows; decide)
  · exact (reported_iff (separate_of_run run_smokePressed) again).mpr
      (by unfold Knows; decide)

/-- 65.536 seconds later the message about the smoke has the id of the life check, and is
dropped. -/
theorem handlePinActivity_swallows :
    ∃ last, Run (EventStep bytesSummed) (Repeater.new 100)
        [.gpioCallback lifeCheckPin true, .handlePinActivity 1000000 200,
          .gpioCallback smokeSeenPin true] smokePressed ∧
      PinCall bytesSummed smokePressed 66536000 201 last ∧
      lifeCheckPressed.tracker.timeMs 1000000 = 1000 ∧
      smokePressed.tracker.timeMs 66536000 = 66536 ∧
      (pinMessageOf bytesSummed lifeCheckPressed 1000000).messageId =
        (pinMessageOf bytesSummed smokePressed 66536000).messageId ∧
      last.tracker.broadcastPacketsToSendList =
        smokePressed.tracker.broadcastPacketsToSendList ∧
      ¬ Reported bytesSummed smokePressed 66536000 201 last := by
  have outcome : (smokePressed.handlePinActivity bytesSummed 66536000 201).map
      (fun repeater => repeater.tracker.broadcastPacketsToSendList) =
        some smokePressed.tracker.broadcastPacketsToSendList := by decide
  obtain ⟨last, done, same⟩ := Option.map_eq_some_iff.mp outcome
  refine ⟨last, run_smokePressed, ⟨rfl, rfl, done⟩, rfl, rfl, by decide, same, ?_⟩
  intro reported
  have queued := reported.queued
  rw [same] at queued
  simp at queued

end BleRepeater.Repeater
