import BleRepeater.Packet.ProtocolProcessor

/-!
# The repeater

The main program around the tracker: the pins and the messages they cause, received
buffers, and everything else that the callbacks and the main loop ask of the tracker.
Every event is a sequence of operations of the tracker, so what a run of operations keeps,
a run of events keeps.
-/

namespace BleRepeater

open BinaryWriter Transition

/-- The tracker, and the flags that the pins set. -/
structure Repeater where
  tracker : Tracker
  smokeSeen : Bool := false
  lifeCheck : Bool := false

namespace Repeater

open Tracker ProtocolProcessor

/-- A repeater as started. -/
def new (announceAddress : Address) : Repeater :=
  { tracker := Tracker.new announceAddress }

/-! ## Pins -/

def smokeSeenPin : UInt32 := 17
def lifeCheckPin : UInt32 := 18

/-- `gpio_callback`; `fell` is the flag for a falling edge. -/
def gpioCallback (repeater : Repeater) (gpio : UInt32) (fell : Bool) : Repeater :=
  { repeater with
    smokeSeen := repeater.smokeSeen || gpio == smokeSeenPin && fell
    lifeCheck := repeater.lifeCheck || gpio == lifeCheckPin && fell }

/-- `still_alive_string`. -/
def stillAliveString : Bytes := [32, 83, 116, 105, 108, 108, 32, 97, 108, 105, 118, 101]

/-- `smoke_seen_string`. -/
def smokeSeenString : Bytes := [32, 83, 109, 111, 107, 101, 32, 115, 101, 101, 110]

/-- The message id of `handlePinActivity`. -/
def messageIdString (sender timestampMs : UInt64) : Bytes :=
  -- the clock is narrowed to the parameter type of `write_uint32`
  let buffer := writeUint32 [] timestampMs.toUInt16
  let buffer := writeUint8 buffer 45
  writeUint64 buffer sender

/-- The content of the message of `handlePinActivity`. -/
def messageContentString (timestampMs : UInt64) (lifeCheck smokeSeen : Bool) : Bytes :=
  let buffer := writeUint8 [] 91
  let buffer := writeUint16Hex16 buffer (timestampMs / 1000).toUInt16
  let buffer := writeUint8 buffer 93
  let buffer :=
    if lifeCheck then
      writeData buffer stillAliveString (UInt16.ofNat stillAliveString.length)
    else buffer
  if smokeSeen then
    writeData buffer smokeSeenString (UInt16.ofNat smokeSeenString.length)
  else buffer

/-- The message of `handlePinActivity`. -/
def pinMessage (platform : Platform) (timestampMs : UInt64) (lifeCheck smokeSeen : Bool) :
    Message :=
  let sender := senderOfAddress platform.localAddress
  { packetType := typeMessage
    packetTtl := 7
    packetTimestamp := timestampMs
    packetFlags := 0
    packetSenderId := sender
    messageFlags := 0
    messageTimestamp := timestampMs
    messageId := messageIdString sender timestampMs
    senderNickname := ownName platform.localAddress
    content := messageContentString timestampMs lifeCheck smokeSeen }

/-- The message that a call of `handlePinActivity` makes. -/
def pinMessageOf (platform : Platform) (repeater : Repeater) (uptime : UInt64) : Message :=
  pinMessage platform (repeater.tracker.timeMs uptime) repeater.lifeCheck
    repeater.smokeSeen

/-- `handlePinActivity`; a new message comes to lie at `address`. -/
def handlePinActivity (platform : Platform) (repeater : Repeater) (uptime : UInt64)
    (address : Address) : Option Repeater := do
  if repeater.smokeSeen || repeater.lifeCheck then
    let message := pinMessageOf platform repeater uptime
    match repeater.tracker.storeMessageAndReturnIfNew address message with
    | (some messageIfNew, tracker) =>
        -- our messages will always be new
        let tracker ← tracker.enqueueBroadcastPacket messageIfNew
        return { tracker }
    | (none, tracker) => return { tracker }
  else
    return repeater

/-! ## Events -/

/-- What happens to a repeater. -/
inductive Event where
  | gpioCallback (gpio : UInt32) (fell : Bool)
  | handlePinActivity (uptime : UInt64) (address : Address)
  | processWrite (uptime : UInt64) (address : Address) (connection : ConnectionRef)
      (conHandle offset : UInt16) (buffer : Buffer)
  | tracker (operation : Operation)

/-- The operations that the main program calls itself. -/
def direct : Operation → Bool
  | .connectionForConnHandle _ | .addAvailablePeer .. | .reportConnection ..
  | .reportConnectionWithRole .. | .reportDisconnection _ | .announceToConnections _
  | .sendPackets | .notifyRawPacket .. | .writeRawPacket .. | .cleanupStaleItems _
  | .updateConnection .. => true
  | _ => false

/-- What an event makes of the repeater, unless it follows a pointer to nothing. -/
def Event.apply (platform : Platform) (repeater : Repeater) : Event → Option Repeater
  | .gpioCallback gpio fell => some (repeater.gpioCallback gpio fell)
  | .handlePinActivity uptime address =>
      Repeater.handlePinActivity platform repeater uptime address
  | .processWrite uptime address connection conHandle offset buffer => do
      let tracker ← ProtocolProcessor.processWrite platform repeater.tracker uptime address
        connection conHandle offset buffer
      return { repeater with tracker }
  | .tracker operation => do
      let tracker ← operation.apply platform repeater.tracker
      return { repeater with tracker }

/-- New objects come to lie where nothing is, and the main program calls no other
operations. -/
def Event.Allowed (repeater : Repeater) : Event → Prop
  | .gpioCallback .. => True
  | .handlePinActivity _ address => repeater.tracker.packetAt address = none
  | .processWrite _ address .. => repeater.tracker.packetAt address = none
  | .tracker operation => direct operation = true

/-- One event. -/
def EventStep (platform : Platform) (before : Repeater) (event : Event) (after : Repeater) :
    Prop :=
  event.Allowed before ∧ event.apply platform before = some after

instance (event : Event) (repeater : Repeater) : Decidable (event.Allowed repeater) := by
  cases event <;> unfold Event.Allowed <;> infer_instance

/-- What an allowed event makes of the repeater. -/
def Event.next (platform : Platform) (repeater : Repeater) (event : Event) :
    Option Repeater :=
  if event.Allowed repeater then event.apply platform repeater else none

theorem event_of_next {platform : Platform} {before after : Repeater} {event : Event}
    (done : event.next platform before = some after) : EventStep platform before event after := by
  rw [Event.next, Option.ite_none_right_eq_some] at done
  exact done

theorem eventStep_functional {platform : Platform} {event : Event}
    {before left right : Repeater} (first : EventStep platform before event left)
    (second : EventStep platform before event right) : left = right :=
  Option.some.inj (first.2.symm.trans second.2)

/-! ## Events as operations -/

/-- The operations that an event may consist of. -/
def Event.Performs (platform : Platform) (repeater : Repeater) :
    Event → Tracker → Operation → Prop
  | .gpioCallback .. => fun _ _ => False
  | .handlePinActivity uptime address =>
      Handles address (some (.message (pinMessageOf platform repeater uptime)))
  | .processWrite _ address _ _ offset buffer =>
      Handles address (received offset buffer).kept
  | .tracker operation => fun _ other => other = operation

variable {platform : Platform} {before after : Repeater} {event : Event}

theorem handlePinActivity_idle {uptime : UInt64} {address : Address}
    (idle : ¬ (before.smokeSeen || before.lifeCheck) = true) :
    before.handlePinActivity platform uptime address = some before := by
  rw [handlePinActivity, if_neg idle]
  rfl

theorem handlePinActivity_known {uptime : UInt64} {address : Address}
    {entry : Stored Message} (pressed : (before.smokeSeen || before.lifeCheck) = true)
    (known : before.tracker.messages.find?
      (pinMessageOf platform before uptime).messageId = some entry) :
    before.handlePinActivity platform uptime address = some { tracker := before.tracker } := by
  rw [handlePinActivity, if_pos pressed]
  simp [storeMessageAndReturnIfNew, known]

theorem handlePinActivity_new {uptime : UInt64} {address : Address}
    (pressed : (before.smokeSeen || before.lifeCheck) = true)
    (new : before.tracker.messages.find?
      (pinMessageOf platform before uptime).messageId = none) :
    before.handlePinActivity platform uptime address =
      ((before.tracker.storeMessageAndReturnIfNew address
        (pinMessageOf platform before uptime)).2.enqueueBroadcastPacket address).map
          fun tracker => { tracker } := by
  rw [handlePinActivity, if_pos pressed]
  simp [storeMessageAndReturnIfNew, new, Option.map_eq_bind]

/-- The pins leave the tracker alone, or store and enqueue a new message. -/
theorem handlePinActivity_cases {uptime : UInt64} {address : Address}
    (done : before.handlePinActivity platform uptime address = some after) :
    after.tracker = before.tracker ∨
      before.tracker.messages.find? (pinMessageOf platform before uptime).messageId = none ∧
        (before.tracker.storeMessageAndReturnIfNew address
          (pinMessageOf platform before uptime)).2.enqueueBroadcastPacket address =
            some after.tracker := by
  by_cases pressed : (before.smokeSeen || before.lifeCheck) = true
  · cases known : before.tracker.messages.find?
        (pinMessageOf platform before uptime).messageId with
    | some entry =>
        rw [handlePinActivity_known pressed known] at done
        cases done
        exact Or.inl rfl
    | none =>
        rw [handlePinActivity_new pressed known] at done
        obtain ⟨tracker, queued, same⟩ := Option.map_eq_some_iff.mp done
        cases same
        exact Or.inr ⟨rfl, queued⟩
  · rw [handlePinActivity_idle pressed] at done
    cases done
    exact Or.inl rfl

theorem handlePinActivity_run {uptime : UInt64} {address : Address}
    (separate : before.tracker.Separate)
    (free : before.tracker.packetAt address = none)
    (done : before.handlePinActivity platform uptime address = some after) :
    ∃ operations, Run
      (Guarded (Handles address (some (.message (pinMessageOf platform before uptime))))
        (OperationStep platform)) before.tracker operations after.tracker := by
  rcases handlePinActivity_cases done with idle | ⟨known, queued⟩
  · rw [idle]
    exact ⟨[], .nil _⟩
  · have stores := stores_storeMessage address known
    have step : OperationStep platform before.tracker
        (.storeMessageAndReturnIfNew address (pinMessageOf platform before uptime))
        (before.tracker.storeMessageAndReturnIfNew address
          (pinMessageOf platform before uptime)).2 := ⟨free, rfl⟩
    have found := (separate.step step).packetAt_iff.mpr ⟨_, stores.here⟩
    refine ⟨[_, .enqueueBroadcastPacket address], .cons ⟨⟨by simp, fun _ => id, ?_,
      fun _ => False.elim⟩, step⟩ (.cons ⟨⟨by simp, fun _ => id, ?_, ?_⟩, ?_, queued⟩
        (.nil after.tracker))⟩
    · exact fun object same => congrArg some same.symm
    · exact fun object => False.elim
    · intro packet same
      cases same
      exact ⟨rfl, found⟩
    · simp [Operation.Allowed, found]

theorem allowed_of_direct {tracker : Tracker} {operation : Operation}
    (main : direct operation = true) : operation.Allowed tracker := by
  cases operation <;> trivial

theorem operation_of_event {operation : Operation}
    (step : EventStep platform before (.tracker operation) after) :
    OperationStep platform before.tracker operation after.tracker := by
  obtain ⟨allowed, done⟩ := step
  obtain ⟨tracker, applied, same⟩ := Option.bind_eq_some_iff.mp done
  cases same
  exact ⟨allowed_of_direct allowed, applied⟩

/-- An event is a sequence of operations of the tracker. -/
theorem operations_of_event (separate : before.tracker.Separate)
    (step : EventStep platform before event after) :
    ∃ operations, Run (Guarded (event.Performs platform before) (OperationStep platform))
      before.tracker operations after.tracker := by
  obtain ⟨allowed, done⟩ := step
  cases event with
  | gpioCallback gpio fell =>
      cases done
      exact ⟨[], .nil _⟩
  | handlePinActivity uptime address => exact handlePinActivity_run separate allowed done
  | processWrite uptime address connection conHandle offset buffer =>
      obtain ⟨tracker, processed, same⟩ := Option.bind_eq_some_iff.mp done
      cases same
      exact processWrite_run separate allowed processed
  | tracker operation =>
      exact ⟨[operation], .cons ⟨rfl, operation_of_event ⟨allowed, done⟩⟩ (.nil _)⟩

/-- What every operation of an event keeps, the event keeps. -/
theorem invariant_of_event (property : Tracker → Prop)
    (separate : before.tracker.Separate) (step : EventStep platform before event after)
    (preserved : ∀ {start operation finish}, property start →
      event.Performs platform before start operation →
      OperationStep platform start operation finish → property finish)
    (initial : property before.tracker) : property after.tracker := by
  obtain ⟨operations, run⟩ := operations_of_event separate step
  exact run.invariant (fun held step => preserved held step.1 step.2) initial

theorem separate_of_event (separate : before.tracker.Separate)
    (step : EventStep platform before event after) : after.tracker.Separate :=
  invariant_of_event Separate separate step
    (fun separate _ step => Separate.step separate step) separate

/-- In a run from the start, no two objects lie at one address. -/
theorem separate_of_run {address : Address} {events : List Event}
    (run : Run (EventStep platform) (new address) events before) :
    before.tracker.Separate :=
  run.invariant (fun separate step => separate_of_event separate step)
    (separate_new address)

/-! ## Stored objects stay -/

/-- An event that does not erase the object behind a pointer. -/
def Spares (packet : Address) (repeater : Repeater) : Event → Prop
  | .tracker operation => ¬ Erases packet repeater.tracker operation
  | _ => True

theorem not_erases_of_performs (packet : Address) {tracker : Tracker}
    {operation : Operation} (other : ∀ operation, event ≠ .tracker operation)
    (performs : event.Performs platform before tracker operation) :
    ¬ Erases packet tracker operation := by
  have handles : ∀ {fresh kept}, Handles fresh kept tracker operation →
      ¬ Erases packet tracker operation := by
    intro fresh kept handles
    cases operation with
    | cleanupStaleItems uptime => exact absurd rfl (handles.noCleanup uptime)
    | _ => exact id
  cases event with
  | gpioCallback gpio fell => exact performs.elim
  | handlePinActivity uptime address => exact handles performs
  | processWrite uptime address connection conHandle offset buffer => exact handles performs
  | tracker operation => exact absurd rfl (other operation)

/-- A stored object stays where it is until an event erases it. -/
theorem holds_of_event {packet : Address} {place : Place} {object : Packet}
    (separate : before.tracker.Separate) (step : EventStep platform before event after)
    (spared : Spares packet before event) (holds : before.tracker.Holds packet place object)
    (stored : place ≠ .announce) : after.tracker.Holds packet place object := by
  by_cases single : ∃ operation, event = .tracker operation
  · obtain ⟨operation, rfl⟩ := single
    exact holds_of_step separate (operation_of_event step) spared holds stored
  · have held := invariant_of_event (fun tracker => tracker.Separate ∧
        tracker.Holds packet place object) separate step ?_ ⟨separate, holds⟩
    · exact held.2
    · intro start operation finish ⟨separate, holds⟩ performs step
      have kept := not_erases_of_performs packet
        (fun operation same => single ⟨operation, same⟩) performs
      exact ⟨separate.step step, holds_of_step separate step kept holds stored⟩

/-- A stored object stays the same until an event erases it. -/
theorem packetAt_of_event {packet : Address} {object : Packet}
    (separate : before.tracker.Separate) (step : EventStep platform before event after)
    (spared : Spares packet before event)
    (found : before.tracker.packetAt packet = some object)
    (stored : packet ≠ before.tracker.announce.address) :
    after.tracker.packetAt packet = some object ∧
      packet ≠ after.tracker.announce.address := by
  obtain ⟨place, holds, other⟩ := stored_of_packetAt found stored
  exact (holds_of_event separate step spared holds other).packetAt_stored
    (separate_of_event separate step) other

/-- A stored object stays the same over every run that does not erase it. -/
theorem packetAt_of_run {packet : Address} {object : Packet} {events : List Event}
    (run : Run (Guarded (Spares packet) (EventStep platform)) before events after)
    (separate : before.tracker.Separate)
    (found : before.tracker.packetAt packet = some object)
    (stored : packet ≠ before.tracker.announce.address) :
    after.tracker.packetAt packet = some object := by
  induction run with
  | nil => exact found
  | cons head _ ih =>
      obtain ⟨spared, step⟩ := head
      obtain ⟨found, stored⟩ := packetAt_of_event separate step spared found stored
      exact ih (separate_of_event separate step) found stored

end Repeater

end BleRepeater
