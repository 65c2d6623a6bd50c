import BleRepeater.Library.Ledger
import BleRepeater.Main.Program
import BleRepeater.Main.Serving

/-!
# Once over each link

The list of what was sent is a ledger: both loops of `sendPackets` pass over the connections
that it names for a packet, and enter those that they hand the packet to.  So a packet is
handed to a connection handle once, until a clean-up takes the record of it off the list.
-/

namespace BleRepeater

open Transition Tracker Repeater

namespace Tracker

/-! ## The list of what was sent -/

/-- A packet is recorded for a connection under its own handle. -/
def Entered (tracker : Tracker) (item : Address × UInt16) : Prop :=
  ∃ ref, (item.1, ref) ∈ tracker.packetsConnectionsSentList.entries ∧
    tracker.handleAt ref = some ref.key ∧ ref.key = item.2

theorem Entered.recorded {tracker : Tracker} {item : Address × UInt16}
    (entered : tracker.Entered item) : tracker.Recorded item.1 item.2 := by
  obtain ⟨ref, listed, handled, same⟩ := entered
  exact ⟨ref, listed, same ▸ handled⟩

/-- What a decision hands over, and under which handle. -/
def Consideration.handover (consideration : Consideration) : Option (Address × UInt16) :=
  if consideration.handed then
    (consideration.before.handleAt consideration.connection).map fun handle =>
      (consideration.packet, handle)
  else none

/-- A search that passes over what is recorded. -/
def PassesOver (wanted : Tracker → Address → ConnectionRef → Option Bool) : Prop :=
  ∀ {tracker : Tracker} {packet : Address} {connection : ConnectionRef} {handle : UInt16},
    wanted tracker packet connection = some true →
    tracker.handleAt connection = some handle → ¬ tracker.Recorded packet handle

theorem packetNeeded_passesOver : PassesOver packetNeeded :=
  fun decided handled => (packetNeeded_iff decided handled).mp rfl

theorem sendable_passesOver : PassesOver sendable := by
  rintro tracker packet connection handle decided handled ⟨ref, listed, same⟩
  exact not_sendable decided handled listed same

section Loops

variable {wanted : Tracker → Address → ConnectionRef → Option Bool} {tracker last : Tracker}

theorem enters_considerSending (passes : PassesOver wanted) {packet : Address}
    {connection : ConnectionRef} {handed : Bool}
    (step : considerSending wanted tracker packet connection = some (last, handed))
    (handled : tracker.handleAt connection = some connection.key) :
    Enters Entered tracker
      (Consideration.handover ⟨packet, connection, tracker, handed⟩).toList last := by
  obtain ⟨decided, quiet, list⟩ := considerSending_spec step
  have kept : ∀ item, tracker.Entered item → last.Entered item := by
    rintro item ⟨ref, listed, own, same⟩
    refine ⟨ref, ?_, (handleAt_eq quiet ref).trans own, same⟩
    rw [list]
    split
    · exact MultiMap.mem_emplace.mpr (Or.inr listed)
    · exact listed
  cases handed with
  | false => exact .nil kept
  | true =>
      have item : Consideration.handover ⟨packet, connection, tracker, true⟩ =
          some (packet, connection.key) := by
        simp [Consideration.handover, handled]
      rw [item, Option.toList_some]
      refine ⟨List.nodup_singleton _, ?_, ?_, kept⟩
      · rintro other member old
        cases List.mem_singleton.mp member
        exact passes decided handled old.recorded
      · rintro other member
        cases List.mem_singleton.mp member
        refine ⟨connection, ?_, (handleAt_eq quiet connection).trans handled, rfl⟩
        rw [list, if_pos rfl]
        exact MultiMap.mem_emplace.mpr (Or.inl rfl)

theorem enters_considerEach (passes : PassesOver wanted)
    {pairs : List (Address × ConnectionRef)} {considered : List Consideration}
    (run : considerEach wanted pairs tracker = some (last, considered))
    (handled : ∀ pair ∈ pairs, tracker.handleAt pair.2 = some pair.2.key) :
    Enters Entered tracker (considered.filterMap Consideration.handover) last := by
  induction pairs generalizing tracker considered with
  | nil =>
      cases run
      exact .nil fun _ old => old
  | cons pair pairs ih =>
      obtain ⟨next, handed, rest, step, further, rfl⟩ := considerEach_cons run
      have first := enters_considerSending passes step (handled pair (by simp))
      have same := handleAt_eq (considerSending_spec step).2.1
      have later := ih further fun other member =>
        (same other.2).trans (handled other (by simp [member]))
      have both := first.trans later
      rw [List.filterMap_cons]
      cases given : Consideration.handover ⟨pair.1, pair.2, tracker, handed⟩ with
      | none =>
          rw [given] at both
          exact both
      | some item =>
          rw [given] at both
          exact both

theorem enters_broadcastLoop {packets toRemove removed : List Address}
    {considered : List Consideration}
    (run : broadcastLoop packets tracker toRemove = some (last, removed, considered))
    (keyed : ∀ ref ∈ tracker.availableConnections, tracker.handleAt ref = some ref.key) :
    Enters Entered tracker (considered.filterMap Consideration.handover) last := by
  induction packets generalizing tracker toRemove considered with
  | nil =>
      cases run
      exact .nil fun _ old => old
  | cons packet packets ih =>
      simp only [broadcastLoop, Option.bind_eq_bind, Option.bind_eq_some_iff] at run
      obtain ⟨⟨middle, left⟩, here, ⟨_, _, right⟩, further, same⟩ := run
      cases same
      have handled : ∀ pair ∈ tracker.availableConnections.map fun connection =>
          (packet, connection), tracker.handleAt pair.2 = some pair.2.key := by
        intro pair member
        obtain ⟨connection, open', rfl⟩ := List.mem_map.mp member
        exact keyed connection open'
      have first := enters_considerEach sendable_passesOver here handled
      have quiet := (considerEach_spec here).1
      have second := ih further fun ref open' => (handleAt_eq quiet ref).trans
        (keyed ref (availableConnections_eq quiet ▸ open'))
      rw [List.filterMap_append]
      exact first.trans second

end Loops

/-- What a call of `sendPackets` hands over, and under which handles. -/
def handovers (tracker : Tracker) : List (Address × UInt16) :=
  match tracker.sendPackets with
  | some (_, targeted, broadcast) => (targeted ++ broadcast).filterMap Consideration.handover
  | none => []

/-- A call hands over nothing that is recorded, and nothing twice, and records it. -/
theorem enters_sendPackets {tracker after : Tracker} {targeted broadcast : List Consideration}
    (sent : tracker.sendPackets = some (after, targeted, broadcast))
    (announcing : tracker.Announcing) : Enters Entered tracker tracker.handovers after := by
  have keyed : ∀ ref ∈ tracker.availableConnections, tracker.handleAt ref = some ref.key :=
    fun ref open' => handleAt_of_openAt announcing.known (openAt_of_available open')
  rw [handovers, sent]
  dsimp only
  rw [List.filterMap_append]
  unfold sendPackets at sent
  split at sent
  · cases sent
    exact .nil fun _ old => old
  · simp only [Option.bind_eq_bind, Option.bind_eq_some_iff] at sent
    obtain ⟨⟨middle, early⟩, first, ⟨last, removed, late⟩, second, same⟩ := sent
    cases same
    have quiet := (considerEach_spec first).1
    have targets := enters_considerEach packetNeeded_passesOver first
      fun pair waits => (announcing.waiting pair waits).2.1
    have everyone := enters_broadcastLoop second fun ref open' => (handleAt_eq quiet ref).trans
      (keyed ref (availableConnections_eq quiet ▸ open'))
    -- the lists of what waits are not part of the ledger
    have following : Enters Entered middle (late.filterMap Consideration.handover) last :=
      everyone.congr (fun _ => Iff.rfl) fun _ => Iff.rfl
    exact (targets.trans following).congr (fun _ => Iff.rfl) fun _ => Iff.rfl

end Tracker

/-! ## Runs of the program -/

/-- What an event of the program hands over, and under which handles. -/
def ProgramEvent.handovers (program : Program) : ProgramEvent → List (Address × UInt16)
  | .sendPackets => program.tracker.handovers
  | _ => []

/-- The event takes no record of a packet for a handle off the list. -/
def ProgramEvent.KeepsRecord (item : Address × UInt16) (program : Program) :
    ProgramEvent → Prop
  | .cleanupStaleItems uptime => ∀ ref,
      (item.1, ref) ∈ program.tracker.packetsConnectionsSentList.entries → ref.key = item.2 →
      program.tracker.packetConnectionStale (program.tracker.timeMs uptime) item.1 ref =
        some false
  | _ => True

section Runs

variable {surroundings : Surroundings} {before after : Program} {event : ProgramEvent}
  {item : Address × UInt16}

theorem Tracker.Entered.basicStep {platform : Platform} {permits : Event → Prop}
    {start finish : Repeater} (entered : start.tracker.Entered item)
    (kept : WellKept platform start.tracker) (step : BasicStep platform permits start finish)
    (cleans : ∀ event, permits event → ∀ uptime, event ≠ .tracker (.cleanupStaleItems uptime)) :
    finish.tracker.Entered item := by
  obtain ⟨ref, listed, handled, same⟩ := entered
  cases step with
  | @event _ happens permitted keeps step =>
      obtain ⟨still, own⟩ := sent_stays kept.apart.separate kept.announcing.known step
        (lasts_of_noCleanup keeps (cleans happens permitted)) listed handled
      exact ⟨ref, still, own, same⟩
  | copy handle => exact ⟨ref, listed, handled, same⟩
  | connectionStarted neighbour => exact ⟨ref, listed, handled, same⟩

/-- A clean-up that takes no record of the item off the list leaves the connections that it
has records for. -/
theorem Tracker.Entered.cleanup {start finish : Tracker} {uptime : UInt64}
    (entered : start.Entered item) (done : start.cleanupStaleItems uptime = some finish)
    (young : ∀ ref, (item.1, ref) ∈ start.packetsConnectionsSentList.entries →
      ref.key = item.2 → start.packetConnectionStale (start.timeMs uptime) item.1 ref =
        some false) : finish.Entered item := by
  obtain ⟨ref, listed, handled, same⟩ := entered
  have fresh := young ref listed same
  obtain ⟨_, connection, _, found, _, seen⟩ := packetConnectionStale_eq_false.mp fresh
  refine ⟨ref, ((cleans_cleanupStaleItems done).sent _).mpr ⟨listed, fresh⟩, ?_, same⟩
  rw [handleAt, (connectionAt_cleanupStaleItems done).mpr ⟨found, seen⟩]
  rwa [handleAt, found] at handled

theorem enters_of_step (kept : WellKept surroundings.platform before.tracker)
    (step : ProgramStep surroundings before event after)
    (keeps : event.KeepsRecord item before) :
    Enters (fun program other => (other == item) = true ∧ (Program.tracker program).Entered other)
      before ((event.handovers before).filter (· == item)) after := by
  have of_kept : (before.tracker.Entered item → after.tracker.Entered item) →
      Enters (fun program other => (other == item) = true ∧
        (Program.tracker program).Entered other) before [] after := by
    intro stays
    refine .nil ?_
    rintro other ⟨same, entered⟩
    rw [eq_of_beq same] at entered ⊢
    exact ⟨beq_self_eq_true item, stays entered⟩
  by_cases sends : event = .sendPackets
  · subst sends
    obtain ⟨targeted, broadcast, sent⟩ := sent_of_programStep step
    have enters := (enters_sendPackets sent kept.announcing).filter (· == item)
    exact ⟨enters.once, enters.fresh, enters.entered, enters.kept⟩
  · have nothing : event.handovers before = [] := by
      cases event with
      | sendPackets => exact absurd rfl sends
      | _ => rfl
    rw [nothing]
    apply of_kept
    intro entered
    refine invariant_of_programStep (fun tracker => tracker.Entered item) kept step ?_
      (fun kept step noCleanup entered => Entered.basicStep entered kept step noCleanup) entered
    rintro uptime rfl
    have done := (operation_of_event (Program.eventStep_of_part step rfl)).2
    exact entered.cleanup done keeps

/-- However the callbacks and the parts of the loop come, a packet is handed to a connection
handle once at most, as long as no clean-up takes the record of it off the list. -/
theorem handed_once {address : Address} {events : List ProgramEvent} {finish : Program}
    (run : Run (Guarded (fun program event => event.KeepsRecord item program)
      (ProgramStep surroundings)) (Program.new address) events finish) :
    (gathered (fun program event => event.apply surroundings program)
      (fun program event => event.handovers program) (Program.new address) events).count item ≤
        1 := by
  have enters := run.enters
    (fun step => step.2.2) (fun kept step => WellKept.step kept step.2)
    (fun kept step => enters_of_step kept step.2 step.1)
    (wellKept_new surroundings.platform address)
  have once := List.nodup_iff_count_le_one.mp enters.once item
  rwa [gathered_filter, List.count_filter (p := (· == item)) (beq_self_eq_true item)] at once

end Runs

/-- An alarm on two links, one of which is lost and opened again. -/
def alarmOnLinks : List ProgramEvent :=
  discoversPeer ++ peerSubscribes ++ announceArrives ++
    [.gpioCallback smokeSeenPin true, .handlePinActivity 70 300, .sendPackets,
      .attPacketHandler hciEventPacket 80 (.disconnected 0x41),
      .attPacketHandler hciEventPacket 90 (.connected 0x41 [6, 5, 4, 3, 2, 1] 0),
      .attWriteCallback 100 400 0x41 bench.database.clientConfigurationHandle
        attTransactionModeNone 0 subscribing,
      .announceToConnections 110, .sendPackets]

/-- The alarm is handed to the handle of that link once. -/
theorem alarm_handed_once : ∃ finish,
    Run (ProgramStep bench) (Program.new 100) alarmOnLinks finish ∧
    (gathered (fun program event => event.apply bench program)
      (fun program event => event.handovers program) (Program.new 100) alarmOnLinks).count
        (300, 0x41) = 1 := by
  have outcome : ((follow (ProgramEvent.next bench) alarmOnLinks (Program.new 100)).isSome,
      decide ((300, 0x41) ∈ gathered (fun program event => event.apply bench program)
        (fun program event => event.handovers program) (Program.new 100) alarmOnLinks)) =
      (true, true) := by decide
  simp only [Prod.mk.injEq, decide_eq_true_eq] at outcome
  obtain ⟨finish, followed⟩ := Option.isSome_iff_exists.mp outcome.1
  have run := Run.of_follow programStep_of_next followed
  have keeps : ∀ event ∈ alarmOnLinks, ∀ program, event.KeepsRecord (300, 0x41) program := by
    simp [alarmOnLinks, discoversPeer, peerSubscribes, announceArrives,
      ProgramEvent.KeepsRecord]
  have once := handed_once ((run.guard keeps).mono fun step => ⟨step.1 _, step.2⟩)
  exact ⟨finish, run, Nat.le_antisymm once (List.count_pos_iff.mpr outcome.2)⟩

end BleRepeater
