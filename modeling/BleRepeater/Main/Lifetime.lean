import BleRepeater.Main.PinActivity

/-!
# How long own messages live

`handlePinActivity` stamps its message with the clock, which counts milliseconds.  The
clean-up divides the stamp by a thousand before it adds ten minutes to it, as if it were in
microseconds.
-/

namespace BleRepeater.Repeater

open Transition Tracker ProtocolProcessor

variable {platform : Platform} {start before after middle last : Repeater}
  {message : Message} {address : Address} {events : List Event}

/-- The message is among the messages, at its address. -/
def Keeps (message : Message) (address : Address) (repeater : Repeater) : Prop :=
  repeater.tracker.Holds address (.message message.messageId) (.message message)

theorem Keeps.entry {repeater : Repeater} (keeps : Keeps message address repeater) :
    repeater.tracker.messages.entries ≠ [] := by
  unfold Keeps at keeps
  generalize same : Place.message message.messageId = place at keeps
  generalize Packet.message message = object at keeps
  intro none
  cases keeps with
  | announce => cases same
  | message member => simp [none] at member
  | packet => cases same

/-- Clean-ups come when the clock stands at `latest` at most. -/
def CleansBy (latest : Nat) (repeater : Repeater) : Event → Prop
  | .tracker (.cleanupStaleItems uptime) => (repeater.tracker.timeMs uptime).toNat ≤ latest
  | _ => True

/-- Every clean-up in a run leaves the message among the messages, and in the list of packets
for everyone if it still waits there. -/
def KeptByCleanups (platform : Platform) (message : Message) (address : Address)
    (start : Repeater) (events : List Event) : Prop :=
  ∀ earlier uptime later before after,
    events = earlier ++ .tracker (.cleanupStaleItems uptime) :: later →
    Run (EventStep platform) start earlier before →
    EventStep platform before (.tracker (.cleanupStaleItems uptime)) after →
    Keeps message address after ∧
      (address ∈ before.tracker.broadcastPacketsToSendList →
        address ∈ after.tracker.broadcastPacketsToSendList)

/-- A clean-up inside an event. -/
theorem cleans_of_event {uptime : UInt64}
    (step : EventStep platform before (.tracker (.cleanupStaleItems uptime)) after) :
    Cleans before.tracker after.tracker (before.tracker.timeMs uptime) :=
  cleans_cleanupStaleItems (operation_of_event step).2

/-- An event keeps a message unless it is a clean-up at a clock that is too late. -/
theorem Keeps.event {event : Event} (keeps : Keeps message address before)
    (separate : before.tracker.Separate) (step : EventStep platform before event after)
    (early : CleansBy (message.packetTimestamp.toNat / 1000 + 600000) before event) :
    Keeps message address after := by
  apply holds_of_event separate step ?_ keeps (by simp)
  cases event with
  | tracker operation =>
      cases operation with
      | cleanupStaleItems uptime =>
          rintro ⟨object, found, old⟩
          cases (keeps.packetAt_stored separate (by simp)).1.symm.trans found
          have recent := (stale_eq_false_iff message.packetTimestamp _).mpr early
          exact absurd (recent.symm.trans old) (by decide)
      | _ => exact not_false
  | _ => trivial

/-- Its pointer stays in the list for everyone as well. -/
theorem waits_of_cleanup {uptime : UInt64} (keeps : Keeps message address before)
    (separate : before.tracker.Separate)
    (step : EventStep platform before (.tracker (.cleanupStaleItems uptime)) after)
    (early : CleansBy (message.packetTimestamp.toNat / 1000 + 600000) before
      (.tracker (.cleanupStaleItems uptime)))
    (waits : address ∈ before.tracker.broadcastPacketsToSendList) :
    address ∈ after.tracker.broadcastPacketsToSendList := by
  apply ((cleans_of_event step).broadcast address).mpr ⟨waits, packetStale_eq_false.mpr ?_⟩
  exact ⟨_, (keeps.packetAt_stored separate (by simp)).1,
    (stale_eq_false_iff message.packetTimestamp _).mpr early⟩

/-- The clean-ups of a run keep a message exactly when each comes at most ten minutes after a
thousandth of its stamp. -/
theorem keptByCleanups_iff (keeps : Keeps message address start)
    (separate : start.tracker.Separate) (run : Run (EventStep platform) start events last) :
    KeptByCleanups platform message address start events ↔
      Run (Guarded (CleansBy (message.packetTimestamp.toNat / 1000 + 600000))
        (EventStep platform)) start events last := by
  constructor
  · intro kept
    refine run.guarded_of_each fun earlier event later before after split reaches step => ?_
    cases event with
    | tracker operation =>
        cases operation with
        | cleanupStaleItems uptime =>
            have stays := (kept earlier uptime later before after split reaches step).1
            have recent := ((cleans_of_event step).holds stays).2 (by simp)
            exact (stale_eq_false_iff message.packetTimestamp _).mp recent
        | _ => trivial
    | _ => trivial
  · intro early earlier uptime later before after split reaches step
    rw [split] at early
    obtain ⟨first, rest⟩ := early.split_at eventStep_functional reaches
    have preserved : ∀ {one event other}, one.tracker.Separate ∧ Keeps message address one →
        Guarded (CleansBy (message.packetTimestamp.toNat / 1000 + 600000))
          (EventStep platform) one event other →
        other.tracker.Separate ∧ Keeps message address other := fun held step =>
      ⟨separate_of_event held.1 step.2, held.2.event held.1 step.2 step.1⟩
    have there := first.invariant preserved ⟨separate, keeps⟩
    cases rest with
    | cons now _ =>
        exact ⟨there.2.event there.1 step now.1, waits_of_cleanup there.2 there.1 step now.1⟩

/-! ## The message of a call -/

/-- The message of a reported call is among the messages. -/
theorem Reported.keeps {uptime : UInt64} (call : PinCall platform before uptime address after)
    (reported : Reported platform before uptime address after) :
    Keeps (pinMessageOf platform before uptime) address after := by
  have new := storeMessage_isNew_iff.mp reported.new
  have stored := messages_handlePinActivity_new call.pressed new call.step.2
  have listed : ((pinMessageOf platform before uptime).messageId,
      (⟨address, pinMessageOf platform before uptime⟩ : Stored Message)) ∈
        after.tracker.messages.entries := by
    rw [stored]
    exact OrderedMap.mem_insert.mpr (Or.inl rfl)
  exact .message listed rfl

/-- The clean-ups that come while the clock stands at most ten minutes after it stood at when
a message was made keep the message, and its pointer while it waits, exactly when they come at
most ten minutes after a thousandth of that. -/
theorem ownMessage_kept_iff {own : Address} {others : List Event} {uptime : UInt64}
    (run : Run (EventStep platform) (new own) events before)
    (call : PinCall platform before uptime address middle)
    (reported : Reported platform before uptime address middle)
    (since : Run (Guarded (CleansBy ((before.tracker.timeMs uptime).toNat + 600000))
      (EventStep platform)) middle others last) :
    KeptByCleanups platform (pinMessageOf platform before uptime) address middle others ↔
      Run (Guarded (CleansBy ((before.tracker.timeMs uptime).toNat / 1000 + 600000))
        (EventStep platform)) middle others last :=
  keptByCleanups_iff (Reported.keeps call reported)
    (separate_of_event (separate_of_run run) call.step) (since.mono And.right)

/-- The life check is reported one second after the start, and cleaned up after ten
minutes. -/
theorem ownMessage_kept_iff_soon :
    ∃ last, Run (EventStep bytesSummed) lifeChecked [.tracker (.cleanupStaleItems 600000000)]
        last ∧
      KeptByCleanups bytesSummed (pinMessageOf bytesSummed lifeCheckPressed 1000000) 200
        lifeChecked [.tracker (.cleanupStaleItems 600000000)] := by
  obtain ⟨last, done⟩ := Option.isSome_iff_exists.mp (show (Event.next bytesSummed lifeChecked
    (.tracker (.cleanupStaleItems 600000000))).isSome by decide)
  have cleaned := event_of_next done
  have pressed : Run (EventStep bytesSummed) (Repeater.new 100)
      [.gpioCallback lifeCheckPin true] lifeCheckPressed := .cons ⟨trivial, rfl⟩ (.nil _)
  have reported := (reported_iff (separate_of_run pressed) pinCall_lifeChecked).mpr
    (by unfold Knows; decide)
  have kept := (ownMessage_kept_iff pressed pinCall_lifeChecked reported
    (.cons ⟨by unfold CleansBy; decide, cleaned⟩ (.nil last))).mpr
      (.cons ⟨by unfold CleansBy; decide, cleaned⟩ (.nil last))
  exact ⟨last, .cons cleaned (.nil last), kept⟩

/-- A life check that is reported 700 seconds after the start is erased at once. -/
theorem ownMessage_erased :
    ¬ ∀ (own address : Address) (events others : List Event)
      (before middle last : Repeater) (uptime : UInt64),
      Run (EventStep bytesSummed) (Repeater.new own) events before →
      PinCall bytesSummed before uptime address middle →
      Reported bytesSummed before uptime address middle →
      Run (Guarded (CleansBy ((before.tracker.timeMs uptime).toNat + 600000))
        (EventStep bytesSummed)) middle others last →
      KeptByCleanups bytesSummed (pinMessageOf bytesSummed before uptime) address middle
        others := by
  intro always
  have pressed : Run (EventStep bytesSummed) (Repeater.new 100)
      [.gpioCallback lifeCheckPin true] lifeCheckPressed := .cons ⟨trivial, rfl⟩ (.nil _)
  have outcome : ((lifeCheckPressed.handlePinActivity bytesSummed 700000000 200).bind
      fun middle => (Event.next bytesSummed middle
        (.tracker (.cleanupStaleItems 700000000))).map
          fun last => (last.tracker.messages.entries,
            (middle.tracker.timeMs 700000000).toNat)) = some ([], 700000) := by decide
  obtain ⟨middle, called, rest⟩ := Option.bind_eq_some_iff.mp outcome
  obtain ⟨last, done, shows⟩ := Option.map_eq_some_iff.mp rest
  have call : PinCall bytesSummed lifeCheckPressed 700000000 200 middle := ⟨rfl, rfl, called⟩
  have reported := (reported_iff (separate_of_run pressed) call).mpr (by unfold Knows; decide)
  have cleaned := event_of_next done
  have clock := (Prod.mk.inj shows).2
  have timely : CleansBy ((lifeCheckPressed.tracker.timeMs 700000000).toNat + 600000) middle
      (.tracker (.cleanupStaleItems 700000000)) := by
    rw [CleansBy, clock]
    decide
  have kept := always 100 200 _ _ lifeCheckPressed middle last 700000000 pressed call reported
    (.cons ⟨timely, cleaned⟩ (.nil last))
  exact (kept [] 700000000 [] middle last rfl (.nil middle) cleaned).1.entry
    (Prod.mk.inj shows).1

end BleRepeater.Repeater
