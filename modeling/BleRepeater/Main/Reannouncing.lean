import BleRepeater.Main.AnnounceOnce

/-!
# Announcing again

A link that was closed and opens again should be announced to again.  A disconnection is
meant to erase what the sent list holds of the announce for its connection, but it compares
with a pointer to a copy, and erases nothing.
-/

namespace BleRepeater.Repeater

open Transition Tracker

/-- One event, whose setter leaves handles alone. -/
def KeepingEvent (platform : Platform) : Repeater → Event → Repeater → Prop :=
  Guarded (fun _ event => event.KeepsHandles) (EventStep platform)

/-- The entry of the sent list that says that the connection of a handle was announced to. -/
def announcedEntry (repeater : Repeater) (handle : UInt16) : Address × ConnectionRef :=
  (repeater.tracker.announce.address, (repeater.tracker.connectionsIndex handle).1)

/-- The announce was sent to the connection of a handle. -/
def AnnouncedTo (handle : UInt16) (repeater : Repeater) : Prop :=
  repeater.announcedEntry handle ∈ repeater.tracker.packetsConnectionsSentList.entries

/-- The disconnection of a handle erases that entry, and no other. -/
def ForgetsOnly (before after : Repeater) (handle : UInt16) : Prop :=
  after.tracker.packetsConnectionsSentList.entries =
    before.tracker.packetsConnectionsSentList.entries.filter fun entry =>
      decide (entry ≠ before.announcedEntry handle)

/-- A call of `sendPackets` at which the announce waits for the connection of a handle. -/
def SendsAnnounce (handle : UInt16) (repeater : Repeater) : Event → Prop
  | .tracker .sendPackets =>
      repeater.announcedEntry handle ∈ repeater.tracker.targetedPacketsToSendList.entries
  | _ => False

/-- A clean-up that finds the announce, or the connection of a handle, too old. -/
def CleansAnnounce (handle : UInt16) (repeater : Repeater) : Event → Prop
  | .tracker (.cleanupStaleItems uptime) =>
      repeater.tracker.packetConnectionStale (repeater.tracker.timeMs uptime)
        repeater.tracker.announce.address (repeater.tracker.connectionsIndex handle).1 =
          some true
  | _ => False

variable {platform : Platform} {before after : Repeater} {event : Event} {handle : UInt16}

/-- The pointer under a handle is the one that the lists hold for it. -/
theorem ref_of_handle {tracker : Tracker} {ref : ConnectionRef}
    (handled : tracker.handleAt ref = some ref.key) (same : ref.key = handle) :
    (tracker.connectionsIndex handle).1 = ref := by
  obtain ⟨connection, found, _⟩ := Option.map_eq_some_iff.mp handled
  rw [← same, connectionsIndex_of_connectionAt found]

theorem announcedTo_iff (announcing : before.tracker.Announcing) :
    AnnouncedTo handle before ↔
      before.tracker.Recorded before.tracker.announce.address handle := by
  constructor
  · intro member
    have handled := announcing.recorded _ member
    exact ⟨_, member, handled.trans (by rw [key_connectionsIndex])⟩
  · rintro ⟨ref, member, handled⟩
    have known := announcing.recorded ref member
    have same : ref.key = handle := Option.some.inj (known.symm.trans handled)
    rw [AnnouncedTo, announcedEntry, ref_of_handle known same]
    exact member

/-! ## One event -/

/-- What the main program keeps: the objects lie apart, and the announce waits as it should. -/
def Tidy (repeater : Repeater) : Prop :=
  repeater.tracker.Separate ∧ repeater.tracker.Announcing

theorem tidy_new (address : Address) : (new address).Tidy :=
  ⟨separate_new address, announcing_new address⟩

theorem Tidy.step (tidy : before.Tidy) (step : KeepingEvent platform before event after) :
    after.Tidy :=
  ⟨separate_of_event tidy.1 step.2, announcing_of_event tidy.1 tidy.2 step.1 step.2⟩

theorem announcedEntry_eq {ref : ConnectionRef}
    (handled : before.tracker.handleAt ref = some ref.key) (same : ref.key = handle) :
    before.announcedEntry handle = (before.tracker.announce.address, ref) := by
  rw [announcedEntry, ref_of_handle handled same]

theorem announcedTo_of_sendPackets (tidy : before.Tidy)
    (step : OperationStep platform before.tracker .sendPackets after.tracker) :
    after.tracker.Recorded before.tracker.announce.address handle ↔
      SendsAnnounce handle before (.tracker .sendPackets) ∨
        before.tracker.Recorded before.tracker.announce.address handle := by
  obtain ⟨⟨last, targeted, broadcast⟩, sent, same⟩ := Option.map_eq_some_iff.mp step.2
  cases same
  have effect := sendPackets_sendsOnly sent
  constructor
  · rintro ⟨ref, member, handled⟩
    rw [handleAt_of_settled effect.settled] at handled
    rcases (effect.sent _).mp member with old | ⟨consideration, considered, _, same⟩
    · exact Or.inr ⟨ref, old, handled⟩
    · obtain ⟨announces, rfl⟩ := Prod.mk.inj same
      obtain ⟨_, waits⟩ := tidy.2.handed_waited sent considered announces.symm
      obtain ⟨_, known, _⟩ := tidy.2.waiting _ waits
      left
      rw [SendsAnnounce, announcedEntry_eq known
        (Option.some.inj (known.symm.trans handled)), announces]
      exact waits
  · rintro (waits | ⟨ref, old, handled⟩)
    · obtain ⟨_, known, _⟩ := tidy.2.waiting _ waits
      obtain ⟨consideration, considered, handed, link, packet⟩ :=
        tidy.2.targeted_handed sent waits
      refine ⟨(before.announcedEntry handle).2, ?_, ?_⟩
      · exact (effect.sent _).mpr (Or.inr ⟨consideration,
          List.mem_append_left _ considered, handed, by rw [link, packet]; rfl⟩)
      · rw [handleAt_of_settled effect.settled, known, announcedEntry, key_connectionsIndex]
    · exact ⟨ref, (effect.sent _).mpr (Or.inl old),
        (handleAt_of_settled effect.settled ref).trans handled⟩

theorem announcedTo_of_cleanup {uptime : UInt64} (tidy : before.Tidy)
    (step : OperationStep platform before.tracker (.cleanupStaleItems uptime) after.tracker) :
    after.tracker.Recorded before.tracker.announce.address handle ↔
      before.tracker.Recorded before.tracker.announce.address handle ∧
        ¬ CleansAnnounce handle before (.tracker (.cleanupStaleItems uptime)) := by
  have cleans := cleans_cleanupStaleItems step.2
  constructor
  · rintro ⟨ref, member, handled⟩
    obtain ⟨old, fresh⟩ := (cleans.sent _).mp member
    rw [handleAt_of_cleanup step fresh] at handled
    refine ⟨⟨ref, old, handled⟩, ?_⟩
    have known := tidy.2.recorded ref old
    rw [CleansAnnounce, ref_of_handle known (Option.some.inj (known.symm.trans handled))]
    intro stale
    cases fresh.symm.trans stale
  · rintro ⟨⟨ref, old, handled⟩, kept⟩
    have known := tidy.2.recorded ref old
    obtain ⟨connection, found, _⟩ := Option.map_eq_some_iff.mp handled
    rw [CleansAnnounce, ref_of_handle known (Option.some.inj (known.symm.trans handled))]
      at kept
    obtain ⟨answer, decided⟩ := Option.isSome_iff_exists.mp (packetConnectionStale_isSome
      (before.tracker.timeMs uptime) (packetAt_announce before.tracker) found)
    have fresh : answer = false := Bool.eq_false_of_not_eq_true fun stale =>
      kept (stale ▸ decided)
    rw [fresh] at decided
    exact ⟨ref, (cleans.sent _).mpr ⟨old, decided⟩,
      (handleAt_of_cleanup step decided).trans handled⟩

/-- Only sending records the announce, and only cleaning up erases it. -/
theorem announcedTo_of_event (tidy : before.Tidy)
    (step : KeepingEvent platform before event after) :
    AnnouncedTo handle after ↔ SendsAnnounce handle before event ∨
      AnnouncedTo handle before ∧ ¬ CleansAnnounce handle before event := by
  rw [announcedTo_iff tidy.2, announcedTo_iff (tidy.step step).2]
  rcases receives_or_operation tidy.1 step.2 with ⟨⟨fresh, other, receives⟩, single⟩ |
    ⟨operation, rfl, main, operates⟩
  · have idle : ¬ SendsAnnounce handle before event ∧
        ¬ CleansAnnounce handle before event := by
      cases event with
      | tracker operation => exact absurd rfl (single operation)
      | _ => exact ⟨not_false, not_false⟩
    rw [receives.announce, or_iff_right idle.1, and_iff_left idle.2]
    constructor
    · rintro ⟨ref, member, handled⟩
      rw [receives.handleAt] at handled
      exact ⟨ref, (receives.sent _ member).resolve_right other, handled⟩
    · exact receives.recorded
  · rw [(places_of_step operates).1]
    cases operation with
    | sendPackets =>
        rw [announcedTo_of_sendPackets tidy operates]
        exact or_congr_right (and_iff_left not_false).symm
    | cleanupStaleItems uptime =>
        rw [announcedTo_of_cleanup tidy operates]
        exact (or_iff_right not_false).symm
    | _ =>
        refine Iff.trans ?_ ((or_iff_right not_false).trans (and_iff_left not_false)).symm
        constructor
        · intro recorded
          by_contra unrecorded
          exact tidy.2.unrecorded_of_step operates
            (leavesAnnounce_of_direct main ⟨step.1, by simp⟩) (by simp) unrecorded recorded
        · exact tidy.2.recorded_stays operates
            (leavesAnnounce_of_direct main ⟨step.1, by simp⟩)

/-- No pointer that the sent list holds with the announce is that of a copy made now. -/
theorem sent_forgetCopy {tracker : Tracker}
    (created : ∀ ref, (tracker.announce.address, ref) ∈
      tracker.packetsConnectionsSentList.entries → ref.generation < tracker.nextGeneration) :
    (tracker.forgetCopy handle).packetsConnectionsSentList.entries =
      tracker.packetsConnectionsSentList.entries := by
  apply List.filter_eq_self.mpr
  rintro ⟨packet, ref⟩ member
  simp only [Bool.not_eq_true', Bool.and_eq_false_iff, decide_eq_false_iff_not]
  by_contra both
  simp only [not_or, not_not] at both
  obtain ⟨rfl, rfl⟩ := both
  exact Nat.lt_irrefl _ (created _ member)

/-- A disconnection erases nothing from the sent list. -/
theorem sent_reportDisconnection {tracker : Tracker} (announcing : tracker.Announcing)
    (handle : UInt16) :
    (tracker.reportDisconnection handle).packetsConnectionsSentList.entries =
      tracker.packetsConnectionsSentList.entries := by
  have marks : ∀ change, (tracker.assign handle change).announce = tracker.announce ∧
      (tracker.assign handle change).packetsConnectionsSentList =
        tracker.packetsConnectionsSentList ∧
      tracker.nextGeneration ≤ (tracker.assign handle change).nextGeneration := by
    intro change
    unfold assign connectionsIndex
    split
    · exact ⟨rfl, rfl, Nat.le_refl _⟩
    · exact ⟨rfl, rfl, Nat.le_succ _⟩
  rw [reportDisconnection_eq]
  obtain ⟨place, sent, generation⟩ := marks fun connection =>
    { connection with notificationEnabled := false, connected := false }
  rw [← sent]
  apply sent_forgetCopy
  intro ref member
  rw [place, sent] at member
  obtain ⟨connection, found, _⟩ := Option.map_eq_some_iff.mp (announcing.recorded ref member)
  exact Nat.lt_of_lt_of_le (announcing.known.created ref (by simp [found])) generation

theorem forgetsOnly_iff (tidy : before.Tidy)
    (closes : KeepingEvent platform before (.tracker (.reportDisconnection handle)) after) :
    ForgetsOnly before after handle ↔ ¬ AnnouncedTo handle before := by
  have same : before.tracker.reportDisconnection handle = after.tracker :=
    Option.some.inj (operation_of_event closes.2).2
  rw [ForgetsOnly, ← same, sent_reportDisconnection tidy.2, eq_comm, List.filter_eq_self]
  constructor
  · intro others member
    simpa using others _ member
  · intro unannounced entry member
    simp only [decide_eq_true_eq]
    rintro rfl
    exact unannounced member

/-- The announce is enqueued for an open link exactly when it was not sent to it. -/
theorem queued_iff {uptime : UInt64} {ref : ConnectionRef} (tidy : before.Tidy)
    (step : KeepingEvent platform before (.tracker (.announceToConnections uptime)) after)
    {connection : BleConnection} (found : before.tracker.connectionAt ref = some connection)
    (open' : available connection = true)
    (clock : before.tracker.timestampOffsetMs ≥ buildTimeMs) :
    (before.tracker.announce.address, ref) ∈
        after.tracker.targetedPacketsToSendList.entries ↔ ¬ AnnouncedTo ref.key before := by
  have done := (operation_of_event step.2).2
  rw [announcedTo_iff tidy.2]
  constructor
  · intro queued
    rcases (announceToConnections_spec tidy.2.known done).2 _ queued with old | ⟨_, _, unsent⟩
    · exact (tidy.2.waiting _ old).2.2
    · exact unsent
  · exact announceToConnections_queues tidy.2.known done clock found open'

/-! ## Closing and announcing -/

/-- In every run of events whose setters leave handles alone, a disconnection erases the entry
of the announce for its connection, and no other, exactly when there is no such entry.  At
every later state in which the link is open again and the clock is set, the announce is
enqueued for it exactly when that entry was not there at the disconnection or a clean-up has
erased it since, and no call of `sendPackets` has made it again. -/
theorem disconnection_forgets_iff {address : Address} {events : List Event}
    {gone : Repeater}
    (run : Run (KeepingEvent platform) (new address) events before)
    (closes : KeepingEvent platform before (.tracker (.reportDisconnection handle)) gone) :
    (ForgetsOnly before gone handle ↔ ¬ AnnouncedTo handle before) ∧
      ∀ since ready uptime after connection, Run (KeepingEvent platform) gone since ready →
        ready.tracker.connectionAt (ready.announcedEntry handle).2 = some connection →
        available connection = true → ready.tracker.timestampOffsetMs ≥ buildTimeMs →
        KeepingEvent platform ready (.tracker (.announceToConnections uptime)) after →
        (ready.announcedEntry handle ∈ after.tracker.targetedPacketsToSendList.entries ↔
          ¬ (AnnouncedTo handle before ∧ Run (Guarded (fun repeater event =>
              ¬ CleansAnnounce handle repeater event) (KeepingEvent platform)) gone since
                ready) ∧
          ¬ BroughtSince (KeepingEvent platform) (SendsAnnounce handle)
            (CleansAnnounce handle) gone since ready) := by
  have tidy := run.invariant (fun tidy step => Tidy.step tidy step) (tidy_new address)
  refine ⟨forgetsOnly_iff tidy closes, ?_⟩
  intro since ready uptime after connection later found open' clock announces
  have closed := tidy.step closes
  have reopened := later.invariant (fun tidy step => Tidy.step tidy step) closed
  have stays : AnnouncedTo handle gone ↔ AnnouncedTo handle before :=
    (announcedTo_of_event tidy closes).trans
      ((or_iff_right not_false).trans (and_iff_left not_false))
  have queued := queued_iff reopened announces found open' clock
  rw [announcedEntry, key_connectionsIndex] at queued
  have changes : ∀ {before event after}, Tidy before → KeepingEvent platform before event after →
      (AnnouncedTo handle after ↔ SendsAnnounce handle before event ∨
        AnnouncedTo handle before ∧ ¬ CleansAnnounce handle before event) :=
    fun tidy step => announcedTo_of_event tidy step
  rw [announcedEntry, queued, later.has_iff_of_invariant
    (fun tidy step => Tidy.step tidy step) changes closed, stays, not_or]

/-- A link opens, and its value handle is found. -/
def opening : List Event :=
  [.tracker (.reportConnection 0 0x40 [1, 2, 3, 4, 5, 6] 0),
    .tracker (.updateConnection ⟨0x40, 0⟩ fun connection =>
      { connection with packetCharacteristicValueHandle := 9 })]

/-- An announce comes in over the link and sets the clock. -/
def hearing : Event :=
  .processWrite 0 200 ⟨0x40, 0⟩ 0x40 0
    ⟨[1, 65, 3, 1, 0, 0, 0, 0, 0, 0, 0, 0, 0, 0, 0, 0, 0, 0, 0, 7, 0], by decide⟩

theorem keepsHandles_opening : ∀ event ∈ opening, event.KeepsHandles := by
  simp [opening, Event.KeepsHandles, Operation.KeepsHandles]

/-- A link that closes before it was announced to is announced to when it opens again. -/
theorem disconnection_forgets_iff_unannounced :
    ∃ before gone ready after,
      Run (KeepingEvent bytesSummed) (new 100) opening before ∧
      KeepingEvent bytesSummed before (.tracker (.reportDisconnection 0x40)) gone ∧
      ForgetsOnly before gone 0x40 ∧
      Run (KeepingEvent bytesSummed) gone (opening ++ [hearing]) ready ∧
      KeepingEvent bytesSummed ready (.tracker (.announceToConnections 0)) after ∧
      ready.announcedEntry 0x40 ∈ after.tracker.targetedPacketsToSendList.entries := by
  let next (repeater : Repeater) (event : Event) := event.next bytesSummed repeater
  have outcome : ((follow next opening (new 100)).bind fun before =>
      (next before (.tracker (.reportDisconnection 0x40))).bind fun gone =>
        (follow next (opening ++ [hearing]) gone).bind fun ready =>
          (next ready (.tracker (.announceToConnections 0))).map fun _ =>
            (before.tracker.packetsConnectionsSentList.entries,
              (ready.tracker.connectionAt (ready.announcedEntry 0x40).2).map available,
              decide (ready.tracker.timestampOffsetMs ≥ buildTimeMs))) =
      some ([], some true, true) := by decide
  obtain ⟨before, opened, rest⟩ := Option.bind_eq_some_iff.mp outcome
  obtain ⟨gone, closed, rest⟩ := Option.bind_eq_some_iff.mp rest
  obtain ⟨ready, reopened, rest⟩ := Option.bind_eq_some_iff.mp rest
  obtain ⟨after, announced, shows⟩ := Option.map_eq_some_iff.mp rest
  simp only [Prod.mk.injEq, Option.map_eq_some_iff, decide_eq_true_eq] at shows
  obtain ⟨unsent, ⟨connection, found, open'⟩, clock⟩ := shows
  have run : Run (KeepingEvent bytesSummed) (new 100) opening before :=
    (Run.of_follow event_of_next opened).guard keepsHandles_opening
  have keeps : ∀ event ∈ opening ++ [hearing], event.KeepsHandles := by
    simp [opening, hearing, Event.KeepsHandles, Operation.KeepsHandles]
  have later : Run (KeepingEvent bytesSummed) gone (opening ++ [hearing]) ready :=
    (Run.of_follow event_of_next reopened).guard keeps
  have closes : KeepingEvent bytesSummed before (.tracker (.reportDisconnection 0x40)) gone :=
    ⟨trivial, event_of_next closed⟩
  have announces : KeepingEvent bytesSummed ready (.tracker (.announceToConnections 0)) after :=
    ⟨trivial, event_of_next announced⟩
  have unannounced : ¬ AnnouncedTo 0x40 before := by
    rw [AnnouncedTo, unsent]
    exact List.not_mem_nil
  obtain ⟨forgets, again⟩ := disconnection_forgets_iff run closes
  refine ⟨before, gone, ready, after, run, closes, forgets.mpr unannounced, later, announces,
    (again _ ready 0 after connection later found open' clock announces).mpr
      ⟨fun both => unannounced both.1, ?_⟩⟩
  rintro ⟨earlier, event, rest, first, last, split, -, -, sends, -⟩
  have member : event ∈ opening ++ [hearing] := by simp [split]
  simp only [opening, hearing, List.mem_append, List.mem_cons, List.not_mem_nil, or_false]
    at member
  rcases member with (rfl | rfl) | rfl <;> exact sends

/-- A link that closes after it was announced to is not announced to again. -/
theorem disconnection_remembers :
    ∃ before gone ready after connection,
      Run (KeepingEvent bytesSummed) (new 100) (opening ++
        [hearing, .tracker (.announceToConnections 0), .tracker .sendPackets]) before ∧
      KeepingEvent bytesSummed before (.tracker (.reportDisconnection 0x40)) gone ∧
      ¬ ForgetsOnly before gone 0x40 ∧
      Run (KeepingEvent bytesSummed) gone opening ready ∧
      ready.tracker.connectionAt (ready.announcedEntry 0x40).2 = some connection ∧
      available connection = true ∧ ready.tracker.timestampOffsetMs ≥ buildTimeMs ∧
      KeepingEvent bytesSummed ready (.tracker (.announceToConnections 0)) after ∧
      ready.announcedEntry 0x40 ∉ after.tracker.targetedPacketsToSendList.entries := by
  let next (repeater : Repeater) (event : Event) := event.next bytesSummed repeater
  let announcing := opening ++
    [hearing, .tracker (.announceToConnections 0), .tracker .sendPackets]
  have outcome : ((follow next announcing (new 100)).bind fun before =>
      (next before (.tracker (.reportDisconnection 0x40))).bind fun gone =>
        (follow next opening gone).bind fun ready =>
          (next ready (.tracker (.announceToConnections 0))).map fun after =>
            (decide (before.announcedEntry 0x40 ∈
                gone.tracker.packetsConnectionsSentList.entries),
              (ready.tracker.connectionAt (ready.announcedEntry 0x40).2).map available,
              decide (ready.tracker.timestampOffsetMs ≥ buildTimeMs),
              after.tracker.targetedPacketsToSendList.entries)) =
      some (true, some true, true, []) := by decide
  obtain ⟨before, opened, rest⟩ := Option.bind_eq_some_iff.mp outcome
  obtain ⟨gone, closed, rest⟩ := Option.bind_eq_some_iff.mp rest
  obtain ⟨ready, reopened, rest⟩ := Option.bind_eq_some_iff.mp rest
  obtain ⟨after, announced, shows⟩ := Option.map_eq_some_iff.mp rest
  simp only [Prod.mk.injEq, Option.map_eq_some_iff, decide_eq_true_eq] at shows
  obtain ⟨remembered, ⟨connection, found, open'⟩, clock, queued⟩ := shows
  have keeps : ∀ event ∈ announcing, event.KeepsHandles := by
    simp [announcing, opening, hearing, Event.KeepsHandles, Operation.KeepsHandles]
  refine ⟨before, gone, ready, after, connection,
    (Run.of_follow event_of_next opened).guard keeps, ⟨trivial, event_of_next closed⟩, ?_,
    (Run.of_follow event_of_next reopened).guard keepsHandles_opening, found, open', clock,
    ⟨trivial, event_of_next announced⟩, by simp [queued]⟩
  intro forgets
  rw [forgets, List.mem_filter] at remembered
  simp at remembered

end BleRepeater.Repeater
