import BleRepeater.Main.Receiving

/-!
# The own announcement

A connection is told about the repeater once.  The main loop announces before every call of
`sendPackets`, and of all these announces only one is handed to a handle between two
disconnections of that handle.
-/

namespace BleRepeater.Repeater

open Transition Tracker ProtocolProcessor

/-! ## The announce in a run -/

variable {platform : Platform}

/-- The main program enqueues nothing for everyone itself. -/
theorem not_broadcasts_of_direct {operation : Operation} (main : direct operation = true)
    (packet : Address) : ¬ operation.Broadcasts packet := by
  intro enqueued
  cases operation with
  | enqueueBroadcastPacket packet => cases main
  | enqueueBroadcastPacketFrom packet fromConnection fromPeer => cases main
  | _ => exact enqueued.elim

theorem not_targets_of_direct {operation : Operation} (main : direct operation = true)
    (packet : Address) (connection : BleConnection) :
    operation ≠ .enqueueTargetedPacket packet connection := by
  rintro rfl
  cases main

theorem leavesAnnounce_of_direct {tracker : Tracker} {operation : Operation}
    (main : direct operation = true) (lasts : operation.Lasts) :
    operation.LeavesAnnounce tracker :=
  ⟨lasts, not_targets_of_direct main, not_broadcasts_of_direct main _⟩

namespace Receives

variable {before after : Tracker} {fresh : Address}

/-- Receiving records and enqueues only the packet at its new address. -/
theorem announcing (receives : Receives before after fresh)
    (other : before.announce.address ≠ fresh) (announcing : before.Announcing) :
    after.Announcing := by
  have old : ∀ {ref}, (before.announce.address, ref) ∈
      after.packetsConnectionsSentList.entries → (before.announce.address, ref) ∈
        before.packetsConnectionsSentList.entries := by
    intro ref member
    exact (receives.sent _ member).resolve_right other
  refine ⟨receives.handlesKnown announcing.known, ?_, ?_, ?_⟩
  · intro ref member
    rw [receives.announce] at member
    rw [receives.handleAt]
    exact announcing.recorded ref (old member)
  · intro entry member
    rw [receives.targeted] at member
    obtain ⟨announces, handled, unrecorded⟩ := announcing.waiting entry member
    rw [receives.announce, receives.handleAt]
    refine ⟨announces, handled, ?_⟩
    rintro ⟨ref, recorded, same⟩
    rw [receives.handleAt] at same
    exact unrecorded ⟨ref, old recorded, same⟩
  · rw [receives.announce]
    intro member
    rcases receives.broadcast _ member with waits | same
    · exact announcing.broadcast waits
    · exact other same

theorem recorded (receives : Receives before after fresh) {packet : Address}
    {handle : UInt16} (recorded : before.Recorded packet handle) :
    after.Recorded packet handle := by
  obtain ⟨ref, member, handled⟩ := recorded
  exact ⟨ref, receives.remembered _ member, (receives.handleAt ref).trans handled⟩

end Receives

variable {before after : Repeater} {event : Event}

theorem announcing_of_event (separate : before.tracker.Separate)
    (announcing : before.tracker.Announcing) (keeps : event.KeepsHandles)
    (step : EventStep platform before event after) : after.tracker.Announcing := by
  rcases receives_or_operation separate step with ⟨⟨fresh, other, receives⟩, _⟩ |
    ⟨operation, rfl, main, operates⟩
  · exact receives.announcing other announcing
  · exact announcing.keeps operates keeps (not_targets_of_direct main)
      (not_broadcasts_of_direct main _)

/-! ## Sessions -/

/-- A repeater, and how often each handle was handed the announce since it was last
disconnected. -/
structure Session where
  repeater : Repeater
  announced : UInt16 → Nat

namespace Session

/-- A session as the repeater starts. -/
def start (announceAddress : Address) : Session where
  repeater := Repeater.new announceAddress
  announced _ := 0

/-- The count after an event. -/
def count (session : Session) : Event → UInt16 → Nat
  | .tracker .sendPackets, handle =>
      session.announced handle + session.repeater.tracker.announcesHanded handle
  | .tracker (.reportDisconnection closed), handle =>
      if handle = closed then 0 else session.announced handle
  | _, handle => session.announced handle

end Session

/-- One event, counted. -/
def SessionStep (platform : Platform) (before : Session) (event : Event) (after : Session) :
    Prop :=
  EventStep platform before.repeater event after.repeater ∧
    after.announced = before.count event

/-- What a run keeps: a handle was handed the announce once at most, and then that is
recorded. -/
structure Session.Sound (session : Session) : Prop where
  separate : session.repeater.tracker.Separate
  announcing : session.repeater.tracker.Announcing
  once : ∀ handle, session.announced handle ≤ 1
  recorded : ∀ handle, session.announced handle ≠ 0 →
    session.repeater.tracker.Recorded session.repeater.tracker.announce.address handle

theorem Session.sound_start (address : Address) : (Session.start address).Sound :=
  ⟨separate_new address, announcing_new address, fun _ => Nat.zero_le 1,
    fun _ counted => absurd rfl counted⟩

theorem count_of_other {session : Session} {event : Event}
    (other : ∀ operation, event ≠ .tracker operation) :
    session.count event = session.announced := by
  cases event with
  | tracker operation => exact absurd rfl (other operation)
  | _ => rfl

/-- Where nothing is handed over, a count stays or begins anew. -/
theorem count_of_operation {session : Session} {operation : Operation}
    (other : operation ≠ .sendPackets) (handle : UInt16) :
    session.count (.tracker operation) handle = session.announced handle ∨
      session.count (.tracker operation) handle = 0 := by
  cases operation with
  | sendPackets => exact absurd rfl other
  | reportDisconnection closed =>
      change (if handle = closed then 0 else session.announced handle) =
        session.announced handle ∨ (if handle = closed then 0 else session.announced handle) = 0
      split
      · exact Or.inr rfl
      · exact Or.inl rfl
  | _ => exact Or.inl rfl

theorem Session.Sound.step {before after : Session} {event : Event} (sound : before.Sound)
    (lasts : event.Lasts) (step : SessionStep platform before event after) : after.Sound := by
  obtain ⟨step, counted⟩ := step
  have separate := separate_of_event sound.separate step
  have announcing := announcing_of_event sound.separate sound.announcing lasts.keepsHandles
    step
  rcases receives_or_operation sound.separate step with ⟨⟨fresh, _, receives⟩, single⟩ |
    ⟨operation, rfl, main, operates⟩
  · rw [count_of_other single] at counted
    refine ⟨separate, announcing, ?_, ?_⟩
    · rw [counted]
      exact sound.once
    · intro handle handed
      rw [counted] at handed
      rw [receives.announce]
      exact receives.recorded (sound.recorded handle handed)
  · have leaves : operation.LeavesAnnounce before.repeater.tracker :=
      leavesAnnounce_of_direct main lasts
    have place := (places_of_step operates).1
    have stays : ∀ handle, before.announced handle ≠ 0 →
        after.repeater.tracker.Recorded after.repeater.tracker.announce.address handle := by
      intro handle handed
      rw [place]
      exact sound.announcing.recorded_stays operates leaves (sound.recorded handle handed)
    refine ⟨separate, announcing, ?_, ?_⟩
    · intro handle
      rw [counted]
      by_cases sends : operation = .sendPackets
      · subst sends
        obtain ⟨⟨last, targeted, broadcast⟩, sent, same⟩ :=
          Option.map_eq_some_iff.mp operates.2
        obtain ⟨once, never, _⟩ := sound.announcing.announcesHanded_le sent handle
        change before.announced handle +
          before.repeater.tracker.announcesHanded handle ≤ 1
        by_cases handed : before.announced handle = 0
        · rw [handed, Nat.zero_add]
          exact once
        · rw [never (sound.recorded handle handed)]
          exact sound.once handle
      · rcases count_of_operation sends handle with same | none
        · rw [same]
          exact sound.once handle
        · rw [none]
          exact Nat.zero_le 1
    · intro handle handed
      rw [counted] at handed
      by_cases sends : operation = .sendPackets
      · subst sends
        obtain ⟨⟨last, targeted, broadcast⟩, sent, same⟩ :=
          Option.map_eq_some_iff.mp operates.2
        change last = after.repeater.tracker at same
        obtain ⟨_, _, records⟩ := sound.announcing.announcesHanded_le sent handle
        change before.announced handle +
          before.repeater.tracker.announcesHanded handle ≠ 0 at handed
        by_cases old : before.announced handle = 0
        · rw [old, Nat.zero_add] at handed
          rw [place, ← same]
          exact records handed
        · exact stays handle old
      · rcases count_of_operation sends handle with same | none
        · rw [same] at handed
          exact stays handle handed
        · exact absurd none handed

/-- In every run of events, between two disconnections of a handle the announce is handed to
it once at most, and no targeted packet waits after `sendPackets`. -/
theorem announce_oncePerSession {address : Address} {events : List Event}
    {session : Session}
    (run : Run (Guarded (fun _ event => event.Lasts) (SessionStep platform))
      (Session.start address) events session) :
    (∀ handle, session.announced handle ≤ 1) ∧
      ∀ next, SessionStep platform session (.tracker .sendPackets) next →
        next.repeater.tracker.targetedPacketsToSendList.entries = [] := by
  have sound : session.Sound :=
    run.invariant (fun sound step => sound.step step.1 step.2) (Session.sound_start address)
  refine ⟨sound.once, ?_⟩
  intro next step
  obtain ⟨tracker, applied, same⟩ := Option.bind_eq_some_iff.mp step.1.2
  obtain ⟨⟨last, targeted, broadcast⟩, sent, result⟩ := Option.map_eq_some_iff.mp applied
  have tracked := congrArg Repeater.tracker (Option.some.inj same)
  change tracker = next.repeater.tracker at tracked
  change last = tracker at result
  rw [← tracked, ← result]
  exact sound.announcing.targeted_sendPackets sent

/-- What an allowed event makes of a session. -/
def Session.next (platform : Platform) (session : Session) (event : Event) :
    Option Session :=
  (event.next platform session.repeater).map fun repeater =>
    { repeater, announced := session.count event }

theorem session_of_next {before after : Session} {event : Event}
    (done : before.next platform event = some after) :
    SessionStep platform before event after := by
  obtain ⟨repeater, followed, same⟩ := Option.map_eq_some_iff.mp done
  cases same
  exact ⟨event_of_next followed, rfl⟩

/-- A link opens, the clock is set by an announce that comes in over it, and the main loop
announces twice before it sends. -/
def announcedTwice : List Event :=
  [.tracker (.reportConnection 0 0x40 [1, 2, 3, 4, 5, 6] 0),
    .tracker (.updateConnection ⟨0x40, 0⟩ fun connection =>
      { connection with packetCharacteristicValueHandle := 9 }),
    .processWrite 0 200 ⟨0x40, 0⟩ 0x40 0
      ⟨[1, 65, 3, 1, 0, 0, 0, 0, 0, 0, 0, 0, 0, 0, 0, 0, 0, 0, 0, 9, 0], by decide⟩,
    .tracker (.announceToConnections 0),
    .tracker (.announceToConnections 0),
    .tracker .sendPackets]

theorem announce_oncePerSession_twice :
    ∃ session, Run (Guarded (fun _ event => event.Lasts) (SessionStep bytesSummed))
        (Session.start 100) announcedTwice session ∧
      session.announced 0x40 = 1 ∧ (∀ handle, session.announced handle ≤ 1) ∧
      ∀ next, SessionStep bytesSummed session (.tracker .sendPackets) next →
        next.repeater.tracker.targetedPacketsToSendList.entries = [] := by
  have outcome : (follow (Session.next bytesSummed) announcedTwice (Session.start 100)).map
      (fun session => session.announced 0x40) = some 1 := by decide
  obtain ⟨session, done, once⟩ := Option.map_eq_some_iff.mp outcome
  have lasts : ∀ event ∈ announcedTwice, event.Lasts := by
    intro event member
    simp only [announcedTwice, List.mem_cons, List.not_mem_nil, or_false] at member
    rcases member with rfl | rfl | rfl | rfl | rfl | rfl
    · exact ⟨trivial, by simp⟩
    · exact ⟨fun connection => ⟨rfl, rfl⟩, by simp⟩
    · trivial
    · exact ⟨trivial, by simp⟩
    · exact ⟨trivial, by simp⟩
    · exact ⟨trivial, by simp⟩
  have run := (Run.of_follow session_of_next done).guard lasts
  exact ⟨session, run, once, announce_oncePerSession run⟩

end BleRepeater.Repeater
