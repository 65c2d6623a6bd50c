import BleRepeater.Main.MainLoop
import BleRepeater.Main.PinActivity
import BleRepeater.Main.Serving

/-!
# Alarms

The message that a pin causes is nobody's yet, so nothing in the list of what was sent stops
it, unless a clean-up has left an entry of an object that lay at the same address: the first
call of `sendPackets` that finds a link open hands it to the first of the open links, and then
it waits no longer.  Until then it waits.  The loop calls `sendPackets` in the turn in which it
handles the pin.
-/

namespace BleRepeater

open Transition Tracker ProtocolProcessor Repeater

namespace Tracker

/-! ## One call of sendPackets -/

/-- Nothing has been recorded of a packet. -/
def Unsent (tracker : Tracker) (packet : Address) : Prop :=
  ∀ ref, (packet, ref) ∉ tracker.packetsConnectionsSentList.entries

section Loops

variable {tracker last : Tracker} {packet : Address}

/-- What a loop over other packets does not record. -/
theorem Unsent.considerEach {wanted : Tracker → Address → ConnectionRef → Option Bool}
    {pairs : List (Address × ConnectionRef)} {considered : List Consideration}
    (unsent : tracker.Unsent packet)
    (run : considerEach wanted pairs tracker = some (last, considered))
    (others : ∀ pair ∈ pairs, pair.1 ≠ packet) : last.Unsent packet := by
  obtain ⟨_, order, list⟩ := considerEach_spec run
  intro ref recorded
  rcases (list _).mp recorded with old | ⟨consideration, member, _, same⟩
  · exact unsent ref old
  · have pair : (consideration.packet, consideration.connection) ∈ pairs := by
      rw [← order]
      exact List.mem_map.mpr ⟨consideration, member, rfl⟩
    exact others _ pair (Prod.mk.inj same).1.symm

/-- Nothing stops a packet of which nothing has been recorded. -/
theorem handed_of_unsent {ref : ConnectionRef} {handed : Bool} (unsent : tracker.Unsent packet)
    (step : considerSending sendable tracker packet ref = some (last, handed)) :
    handed = true := by
  have stops : tracker.packetsConnectionsSentList.find packet = [] := by
    rw [MultiMap.find, if_neg]
    rw [List.any_eq_true]
    rintro ⟨⟨other, connection⟩, listed, same⟩
    rw [beq_iff_eq] at same
    subst same
    exact unsent connection listed
  have decision := (considerSending_spec step).1
  rw [sendable, stops] at decision
  obtain ⟨handle, _, visited⟩ := Option.bind_eq_some_iff.mp decision
  exact (Option.some.inj visited).symm

theorem removed_of_broadcastLoop {packets toRemove removed : List Address}
    {considered : List Consideration}
    (run : broadcastLoop packets tracker toRemove = some (last, removed, considered)) :
    packet ∈ toRemove → packet ∈ removed := by
  induction packets generalizing tracker toRemove considered with
  | nil =>
      cases run
      exact id
  | cons next packets ih =>
      simp only [broadcastLoop, Option.bind_eq_bind, Option.bind_eq_some_iff] at run
      obtain ⟨⟨middle, left⟩, _, ⟨_, _, right⟩, further, same⟩ := run
      cases same
      intro listed
      apply ih further
      split
      · exact List.mem_insert_of_mem listed
      · exact listed

/-- The broadcast loop hands a packet of which nothing has been recorded to the first link
that is open, and removes it. -/
theorem handed_of_broadcastLoop {packets toRemove removed : List Address}
    {considered : List Consideration} (unsent : tracker.Unsent packet)
    (run : broadcastLoop packets tracker toRemove = some (last, removed, considered))
    (waits : packet ∈ packets) {first : ConnectionRef} {rest : List ConnectionRef}
    (open' : tracker.availableConnections = first :: rest) :
    packet ∈ removed ∧ ∃ consideration ∈ considered, consideration.packet = packet ∧
      consideration.connection = first ∧ consideration.handed = true := by
  induction packets generalizing tracker toRemove considered with
  | nil => cases waits
  | cons next packets ih =>
      simp only [broadcastLoop, Option.bind_eq_bind, Option.bind_eq_some_iff] at run
      obtain ⟨⟨middle, left⟩, here, ⟨_, _, right⟩, further, same⟩ := run
      cases same
      by_cases own : next = packet
      · subst own
        rw [open', List.map_cons] at here
        obtain ⟨after, handed, others, step, _, rfl⟩ := considerEach_cons here
        have hands := handed_of_unsent unsent step
        subst hands
        refine ⟨removed_of_broadcastLoop further ?_, ⟨next, first, tracker, true⟩, by simp, rfl,
          rfl, rfl⟩
        simp
      · have kept := (considerEach_spec here).1
        have unsent := unsent.considerEach here (by simp [own])
        rw [← availableConnections_eq kept] at open'
        obtain ⟨gone, consideration, member, handed⟩ := ih unsent further
          ((List.mem_cons.mp waits).resolve_left fun same => own same.symm) open'
        exact ⟨gone, consideration, List.mem_append_right _ member, handed⟩

/-- Without an open link it hands over and removes nothing. -/
theorem broadcastLoop_closed {packets toRemove removed : List Address}
    {considered : List Consideration}
    (run : broadcastLoop packets tracker toRemove = some (last, removed, considered))
    (closed : tracker.availableConnections = []) :
    removed = toRemove ∧ considered = [] ∧ last = tracker := by
  induction packets generalizing tracker toRemove considered with
  | nil =>
      cases run
      exact ⟨rfl, rfl, rfl⟩
  | cons next packets ih =>
      simp only [broadcastLoop, closed, Option.bind_eq_bind, Option.bind_eq_some_iff] at run
      obtain ⟨⟨middle, left⟩, here, ⟨_, _, right⟩, further, same⟩ := run
      cases same
      cases here
      obtain ⟨removes, considers, stays⟩ := ih further closed
      exact ⟨removes, by rw [considers]; rfl, stays⟩

end Loops

section Call

variable {tracker after : Tracker} {targeted broadcast : List Consideration} {packet : Address}

/-- What a call does with a packet that waits for everyone and of which nothing has been
recorded: without an open link it waits on, and else it goes to the first one. -/
theorem sendPackets_unsent (sent : tracker.sendPackets = some (after, targeted, broadcast))
    (waits : packet ∈ tracker.broadcastPacketsToSendList) (unsent : tracker.Unsent packet)
    (others : ∀ entry ∈ tracker.targetedPacketsToSendList.entries, entry.1 ≠ packet) :
    (tracker.availableConnections = [] →
      packet ∈ after.broadcastPacketsToSendList ∧ after.Unsent packet) ∧
    ∀ first rest, tracker.availableConnections = first :: rest →
      packet ∉ after.broadcastPacketsToSendList ∧ ∃ consideration ∈ broadcast,
        consideration.packet = packet ∧ consideration.connection = first ∧
          consideration.handed = true := by
  unfold sendPackets at sent
  split at sent
  · rename_i idle
    simp only [Bool.and_eq_true, List.isEmpty_iff] at idle
    rw [idle.1] at waits
    cases waits
  · simp only [Option.bind_eq_bind, Option.bind_eq_some_iff] at sent
    obtain ⟨⟨middle, early⟩, first, ⟨last, removed, late⟩, second, same⟩ := sent
    cases same
    have unsent := unsent.considerEach first others
    obtain ⟨quiet, _, _⟩ := considerEach_spec first
    have links := availableConnections_eq quiet
    have packets := congrArg Tracker.broadcastPacketsToSendList quiet
    change middle.broadcastPacketsToSendList = tracker.broadcastPacketsToSendList at packets
    have lastPackets := congrArg Tracker.broadcastPacketsToSendList (broadcastLoop_spec second).1
    change last.broadcastPacketsToSendList = middle.broadcastPacketsToSendList at lastPackets
    have between : ∀ list, Unsent { middle with targetedPacketsToSendList := list } packet :=
      fun _ => unsent
    constructor
    · intro closed
      obtain ⟨rfl, rfl, rfl⟩ := broadcastLoop_closed second (links.trans closed)
      refine ⟨?_, unsent⟩
      simp [packets, waits]
    · intro ref rest open'
      obtain ⟨gone, handed⟩ := handed_of_broadcastLoop (between _) second
        (packets ▸ waits) (links.trans open')
      refine ⟨?_, handed⟩
      simp [gone]

end Call

end Tracker

/-! ## Waiting -/

namespace Tracker

/-- A stored packet. -/
structure Stows (tracker : Tracker) (packet : Address) (object : Packet) : Prop where
  stored : tracker.packetAt packet = some object
  other : packet ≠ tracker.announce.address

/-- A stored packet that waits for everyone, and of which nothing has been recorded. -/
structure Awaits (tracker : Tracker) (packet : Address) (object : Packet) : Prop
    extends tracker.Stows packet object where
  waits : packet ∈ tracker.broadcastPacketsToSendList
  unsent : tracker.Unsent packet

/-- A stored packet that waits no longer. -/
structure Departed (tracker : Tracker) (packet : Address) (object : Packet) : Prop
    extends tracker.Stows packet object where
  departed : packet ∉ tracker.broadcastPacketsToSendList

end Tracker

section Steps

variable {platform : Platform} {before after : Repeater} {packet : Address} {object : Packet}
  {permits : Event → Prop}

/-- The pointers to a packet dangle only once something is cleaned up. -/
theorem Tracker.ReferenceLive.basicStep (live : before.tracker.ReferenceLive packet)
    (kept : WellKept platform before.tracker) (step : BasicStep platform permits before after)
    (cleans : ∀ event, permits event → ∀ uptime, event ≠ .tracker (.cleanupStaleItems uptime)) :
    after.tracker.ReferenceLive packet := by
  cases step with
  | @event _ happens permitted keeps step =>
      exact referenceLive_of_event kept.apart.separate
        (lasts_of_noCleanup keeps (cleans happens permitted)) step live
  | copy handle => exact live
  | connectionStarted neighbour => exact live

/-- What is stored stays until something is cleaned up. -/
theorem Tracker.Stows.basicStep (stows : before.tracker.Stows packet object)
    (kept : WellKept platform before.tracker) (step : BasicStep platform permits before after)
    (cleans : ∀ event, permits event → ∀ uptime, event ≠ .tracker (.cleanupStaleItems uptime)) :
    after.tracker.Stows packet object := by
  cases step with
  | @event _ happens permitted _ step =>
      obtain ⟨stored, other⟩ := packetAt_of_event kept.apart.separate step
        (spares_of_noCleanup (cleans happens permitted)) stows.stored stows.other
      exact ⟨stored, other⟩
  | copy handle => exact ⟨stows.stored, stows.other⟩
  | connectionStarted neighbour => exact ⟨stows.stored, stows.other⟩

/-- What waits goes on waiting, and nothing is recorded of it, until something is sent. -/
theorem Tracker.Awaits.basicStep (awaits : before.tracker.Awaits packet object)
    (kept : WellKept platform before.tracker) (step : BasicStep platform permits before after)
    (cleans : ∀ event, permits event → ∀ uptime, event ≠ .tracker (.cleanupStaleItems uptime))
    (sends : ∀ event, permits event → event ≠ .tracker .sendPackets) :
    after.tracker.Awaits packet object := by
  refine ⟨Stows.basicStep awaits.toStows kept step cleans, ?_, ?_⟩
  · cases step with
    | @event _ happens permitted keeps step =>
        exact broadcast_of_event kept.apart.separate kept.announcing.known step
          (lasts_of_noCleanup keeps (cleans happens permitted)) (sends happens permitted)
          awaits.waits
    | copy handle => exact awaits.waits
    | connectionStarted neighbour => exact awaits.waits
  · intro ref
    cases step with
    | @event _ happens permitted keeps step =>
        have live : before.tracker.Live packet := by simp [Live, awaits.stored]
        intro listed
        exact awaits.unsent ref (sent_of_event kept.apart.separate kept.announcing.known step
          (lasts_of_noCleanup keeps (cleans happens permitted)) (sends happens permitted) live
          listed)
    | copy handle => exact awaits.unsent ref
    | connectionStarted neighbour => exact awaits.unsent ref

/-- Only a new object comes to wait for everyone. -/
theorem departed_of_event (separate : before.tracker.Separate) {event : Event}
    (step : EventStep platform before event after) (live : before.tracker.Live packet)
    (departed : packet ∉ before.tracker.broadcastPacketsToSendList) :
    packet ∉ after.tracker.broadcastPacketsToSendList := by
  refine invariant_of_event (fun tracker => packet ∉ tracker.broadcastPacketsToSendList)
    separate step ?_ departed
  intro start operation finish absent performs operates waits
  refine ((places_of_step operates).2.1 packet waits).elim absent ?_
  cases event with
  | gpioCallback gpio fell => exact performs.elim
  | handlePinActivity uptime address =>
      intro broadcasts
      cases (performs.broadcasts packet broadcasts).1
      exact not_live step.1 live
  | processWrite uptime address connection conHandle offset buffer =>
      intro broadcasts
      cases (performs.broadcasts packet broadcasts).1
      exact not_live step.1 live
  | tracker other =>
      cases performs
      rw [(@targets_of_direct before.tracker _ step.1).1]
      exact id

theorem Tracker.Departed.basicStep (departed : before.tracker.Departed packet object)
    (kept : WellKept platform before.tracker) (step : BasicStep platform permits before after)
    (cleans : ∀ event, permits event → ∀ uptime, event ≠ .tracker (.cleanupStaleItems uptime)) :
    after.tracker.Departed packet object := by
  refine ⟨Stows.basicStep departed.toStows kept step cleans, ?_⟩
  cases step with
  | event _ _ step =>
      have live : before.tracker.Live packet := by simp [Live, departed.stored]
      exact departed_of_event kept.apart.separate step live departed.departed
  | copy handle => exact departed.departed
  | connectionStarted neighbour => exact departed.departed

end Steps

section ProgramSteps

variable {surroundings : Surroundings} {before after : Program} {event : ProgramEvent}
  {packet : Address} {object : Packet}

/-- The event does not erase an object that is stored. -/
def ProgramEvent.Spares (packet : Address) (program : Program) : ProgramEvent → Prop
  | .cleanupStaleItems uptime => ¬ Erases packet program.tracker (.cleanupStaleItems uptime)
  | _ => True

/-- The event leaves no entry of an object that it erases. -/
def ProgramEvent.Tidies (packet : Address) (program : Program) : ProgramEvent → Prop
  | .cleanupStaleItems uptime =>
      program.tracker.CleanupSafeFor packet (.cleanupStaleItems uptime)
  | _ => True

/-- An event that leaves no entry of what it erases leaves no pointer to it. -/
theorem Tracker.ReferenceLive.step (live : before.tracker.ReferenceLive packet)
    (kept : WellKept surroundings.platform before.tracker)
    (step : ProgramStep surroundings before event after)
    (tidies : event.Tidies packet before) : after.tracker.ReferenceLive packet := by
  refine invariant_of_programStep (fun tracker => tracker.ReferenceLive packet) kept step ?_
    (fun kept step noCleanup live => ReferenceLive.basicStep live kept step noCleanup) live
  rintro uptime rfl
  have cleans := operation_of_event (Program.eventStep_of_part step rfl)
  exact (ReferenceLive.step_iff live kept.apart.separate cleans).mp tidies

theorem Tracker.Stows.step (stows : before.tracker.Stows packet object)
    (kept : WellKept surroundings.platform before.tracker)
    (step : ProgramStep surroundings before event after)
    (spares : event.Spares packet before) : after.tracker.Stows packet object := by
  refine invariant_of_programStep (fun tracker => tracker.Stows packet object) kept step ?_
    (fun kept step noCleanup stows => Stows.basicStep stows kept step noCleanup) stows
  rintro uptime rfl
  obtain ⟨stored, other⟩ := packetAt_of_event kept.apart.separate
    (Program.eventStep_of_part step rfl) spares stows.stored stows.other
  exact ⟨stored, other⟩

/-- Only the own announce is ever sent to one receiver alone. -/
theorem Tracker.Stows.untargeted {tracker : Tracker} (stows : tracker.Stows packet object)
    (apart : OwnApart surroundings.platform tracker) :
    ∀ entry ∈ tracker.targetedPacketsToSendList.entries, entry.1 ≠ packet :=
  fun entry listed same => stows.other (same.symm.trans (apart.targeted entry listed))

/-- What waits goes on waiting until something is sent over an open link. -/
theorem Tracker.Awaits.step (awaits : before.tracker.Awaits packet object)
    (kept : WellKept surroundings.platform before.tracker)
    (step : ProgramStep surroundings before event after)
    (spares : event.Spares packet before)
    (closed : event = .sendPackets → before.tracker.availableConnections = []) :
    after.tracker.Awaits packet object := by
  have stows := Stows.step awaits.toStows kept step spares
  by_cases sends : event = .sendPackets
  · subst sends
    obtain ⟨targeted, broadcast, sent⟩ := sent_of_programStep step
    obtain ⟨waits, unsent⟩ := (sendPackets_unsent sent awaits.waits awaits.unsent
      (awaits.toStows.untargeted kept.apart)).1 (closed rfl)
    exact ⟨stows, waits, unsent⟩
  · refine invariant_of_programStep (fun tracker => tracker.Awaits packet object) kept step ?_
      (fun kept step noCleanup awaits =>
        Awaits.basicStep awaits kept step noCleanup (noSend_of_permits sends)) awaits
    rintro uptime rfl
    have cleans := cleans_of_programStep step
    have young : before.tracker.packetStale (before.tracker.timeMs uptime) packet =
        some false := by
      rw [packetStale, awaits.stored]
      refine congrArg some ?_
      rw [← Bool.not_eq_true]
      exact fun old => spares ⟨object, awaits.stored, old⟩
    exact ⟨stows, (cleans.broadcast packet).mpr ⟨awaits.waits, young⟩,
      fun ref listed => awaits.unsent ref ((cleans.sent _).mp listed).1⟩

/-- The call that finds a link open hands it to the first one, in a queue of which the packet
then waits to be transmitted. -/
theorem Tracker.Awaits.handed (awaits : before.tracker.Awaits packet object)
    (kept : WellKept surroundings.platform before.tracker)
    (step : ProgramStep surroundings before .sendPackets after) {first : ConnectionRef}
    {rest : List ConnectionRef}
    (open' : before.tracker.availableConnections = first :: rest) :
    after.tracker.Departed packet object ∧
      ∃ queue, ∃ data ∈ after.tracker.queued queue first.key,
        object.writePacket [] = some data := by
  obtain ⟨targeted, broadcast, sent⟩ := sent_of_programStep step
  have stows := Stows.step awaits.toStows kept step trivial
  obtain ⟨gone, consideration, member, named, link, handed⟩ :=
    (sendPackets_unsent sent awaits.waits awaits.unsent
      (awaits.toStows.untargeted kept.apart)).2 first rest open'
  refine ⟨⟨stows, gone⟩, ?_⟩
  have handled : before.tracker.handleAt first = some first.key :=
    handleAt_of_openAt kept.announcing.known
      (openAt_of_available (by rw [open']; exact List.mem_cons_self))
  rw [← link] at handled ⊢
  have member := List.mem_append_right targeted member
  obtain ⟨queue, data, waits, written⟩ := queued_of_handed sent member handed handled
  obtain ⟨found, there, written⟩ := Option.bind_eq_some_iff.mp written
  rw [packetAt_considered sent member, named, awaits.stored, Option.some.injEq] at there
  subst there
  exact ⟨queue, data, waits, written⟩

/-- What waits no longer never waits again, as long as it is stored. -/
theorem Tracker.Departed.step (departed : before.tracker.Departed packet object)
    (kept : WellKept surroundings.platform before.tracker)
    (step : ProgramStep surroundings before event after)
    (spares : event.Spares packet before) : after.tracker.Departed packet object := by
  refine invariant_of_programStep (fun tracker => tracker.Departed packet object) kept step ?_
    (fun kept step noCleanup departed => Departed.basicStep departed kept step noCleanup) departed
  rintro uptime rfl
  have live : before.tracker.Live packet := by simp [Live, departed.stored]
  exact ⟨Stows.step departed.toStows kept step spares,
    departed_of_event kept.apart.separate (Program.eventStep_of_part step rfl) live
      departed.departed⟩

end ProgramSteps

/-! ## Runs -/

section Runs

variable {surroundings : Surroundings} {before stored finish : Program} {packet : Address}
  {object : Packet} {events : List ProgramEvent}

/-- An event that does not erase an object. -/
abbrev SparingStep (surroundings : Surroundings) (packet : Address) :
    Program → ProgramEvent → Program → Prop :=
  Guarded (fun program event => event.Spares packet program) (ProgramStep surroundings)

/-- The event sends, and a link is open for what it sends. -/
def SendsOver (program : Program) (event : ProgramEvent) : Prop :=
  event = .sendPackets ∧ program.tracker.availableConnections ≠ []

/-- A stored packet that waits for everyone with nothing recorded of it, or waits no longer. -/
structure Followed (platform : Platform) (packet : Address) (object : Packet)
    (program : Program) : Prop where
  kept : WellKept platform program.tracker
  known : program.tracker.Awaits packet object ∨ program.tracker.Departed packet object

/-- What waits with nothing recorded of it goes on so, or has been sent. -/
theorem Followed.step {event : ProgramEvent} {after : Program}
    (followed : Followed surroundings.platform packet object before)
    (step : SparingStep surroundings packet before event after) :
    Followed surroundings.platform packet object after ∧
    (after.tracker.Awaits packet object ↔
      before.tracker.Awaits packet object ∧ ¬ SendsOver before event) := by
  obtain ⟨spares, step⟩ := step
  obtain ⟨kept, known⟩ := followed
  have keptAfter := kept.step step
  rcases known with awaits | departed
  · by_cases sends : SendsOver before event
    · obtain ⟨rfl, links⟩ := sends
      obtain ⟨first, rest, open'⟩ := List.exists_cons_of_ne_nil links
      have departed := (awaits.handed kept step open').1
      exact ⟨⟨keptAfter, Or.inr departed⟩,
        iff_of_false (fun waits => departed.departed waits.waits)
          fun stays => stays.2 ⟨rfl, links⟩⟩
    · have closed : event = .sendPackets → before.tracker.availableConnections = [] :=
        fun same => not_not.mp fun links => sends ⟨same, links⟩
      have later := awaits.step kept step spares closed
      exact ⟨⟨keptAfter, Or.inl later⟩, iff_of_true later ⟨awaits, sends⟩⟩
  · have later := departed.step kept step spares
    exact ⟨⟨keptAfter, Or.inr later⟩,
      iff_of_false (fun waits => later.departed waits.waits)
        fun stays => departed.departed stays.1.waits⟩

end Runs

/-! ## Turns of the loop -/

section Turns

variable {surroundings : Surroundings} {before stored waiting after : MainLoop}
  {packet : Address} {object : Packet} {between : List LoopEvent}

/-- What the event does to the program leaves no entry of an object that it erases. -/
def LoopEvent.Tidies (packet : Address) (loop : MainLoop) (event : LoopEvent) : Prop :=
  ∀ happens, event.does loop = some happens → happens.Tidies packet loop.program

/-- The event is the part that sends. -/
def LoopEvent.sends : LoopEvent → Bool
  | .part place _ => place == .send
  | _ => false

/-- Behind the part that handles the pins, and before the part that sends or at it. -/
def LoopPlace.untilSend : LoopPlace → Bool
  | .announce | .connect | .send => true
  | _ => false

theorem awaits_of_moves {start finish : Program} {does : Option ProgramEvent}
    (kept : WellKept surroundings.platform start.tracker)
    (awaits : start.tracker.Awaits packet object)
    (moves : OptionalStep surroundings start finish does)
    (leaves : ∀ event, does = some event → event.Spares packet start ∧ event ≠ .sendPackets) :
    WellKept surroundings.platform finish.tracker ∧ finish.tracker.Awaits packet object := by
  cases does with
  | none =>
      cases moves
      exact ⟨kept, awaits⟩
  | some event =>
      obtain ⟨spares, other⟩ := leaves event rfl
      exact ⟨kept.step moves,
        awaits.step kept moves spares fun same => absurd same other⟩

/-- Between these parts nothing is cleaned up, and nothing sent. -/
theorem leaves_of_untilSend {event : LoopEvent} (allowed : event.Allowed before)
    (place : before.place.untilSend = true) (other : event.sends = false) :
    ∀ happens, event.does before = some happens →
      happens.Spares packet before.program ∧ happens ≠ .sendPackets := by
  intro happens does
  cases event with
  | callback callback =>
      cases does
      have called := allowed.1
      cases happens with
      | sendPackets | cleanupStaleItems => cases called
      | _ => exact ⟨trivial, by simp⟩
  | count => cases does
  | part stands moment =>
      obtain ⟨rfl, _⟩ := allowed
      simp only [LoopEvent.does, MainLoop.work] at does
      cases here : before.place with
      | announce =>
          simp only [here] at does
          split at does
          · cases does
            exact ⟨trivial, by simp⟩
          · cases does
      | connect =>
          simp only [here] at does
          cases does
          exact ⟨trivial, by simp⟩
      | send => simp [LoopEvent.sends, here] at other
      | _ => simp [LoopPlace.untilSend, here] at place

theorem untilSend_of_step {event : LoopEvent} (place : before.place.untilSend = true)
    (step : LoopStep surroundings before event after) (other : event.sends = false) :
    after.place.untilSend = true := by
  obtain ⟨allowed, done⟩ := step
  cases event with
  | callback callback =>
      obtain ⟨next, called, same⟩ := Option.bind_eq_some_iff.mp done
      cases same
      exact (counters_of_call called).2 ▸ place
  | count =>
      cases done
      exact place
  | part stands moment =>
      obtain ⟨rfl, _⟩ := allowed
      obtain ⟨next, worked, same⟩ := Option.bind_eq_some_iff.mp done
      cases same
      unfold MainLoop.part at worked
      cases here : before.place with
      | announce =>
          simp only [here] at worked
          split at worked
          · simp only [Option.bind_eq_bind, Option.bind_eq_some_iff] at worked
            obtain ⟨middle, _, same⟩ := worked
            cases same
            rfl
          · cases worked
            rfl
      | connect =>
          simp only [here, Option.bind_eq_bind, Option.bind_eq_some_iff] at worked
          obtain ⟨middle, _, same⟩ := worked
          cases same
          rfl
      | send => simp [LoopEvent.sends, here] at other
      | _ => simp [LoopPlace.untilSend, here] at place

/-- Behind the part that handles the pins a packet waits with nothing recorded of it. -/
structure MainLoop.Waits (platform : Platform) (packet : Address) (object : Packet)
    (loop : MainLoop) : Prop where
  place : loop.place.untilSend = true
  kept : WellKept platform loop.program.tracker
  awaits : loop.program.tracker.Awaits packet object

theorem MainLoop.Waits.step {event : LoopEvent}
    (waits : before.Waits surroundings.platform packet object)
    (step : Guarded (fun _ event => event.sends = false) (LoopStep surroundings) before event
      after) : after.Waits surroundings.platform packet object := by
  obtain ⟨other, step⟩ := step
  obtain ⟨kept, awaits⟩ := awaits_of_moves waits.kept waits.awaits (moves_of_step step)
    (leaves_of_untilSend step.1 waits.place other)
  exact ⟨untilSend_of_step waits.place step other, kept, awaits⟩

end Turns

end BleRepeater
