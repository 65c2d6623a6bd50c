import BleRepeater.Ble.RssiSweep
import BleRepeater.Main.Program
import BleRepeater.Main.Schedule

/-!
# The main loop

The loop of `main`, one part after the other, and the callbacks that come between any two of
its parts.  Every part is an event of the program or leaves the program alone.  The loop goes
to sleep when nothing has happened for a while, which it tells by a counter of 16 bits that the
callbacks raise; so it sees what a pin has asked for by then, unless the counter wraps in one
turn.  What a pin asks for between that test and `__wfi()` is slept over.
-/

namespace BleRepeater

open Transition Tracker Repeater WrappingTimer

/-- Where the loop stands: before the test of `keep_running`, before one of its parts, before
the test of the inner loop, before `__wfi()` in it, behind the inner loop, or behind the
loop. -/
inductive LoopPlace where
  | head
  | pins
  | announce
  | connect
  | send
  | flash
  | rssi
  | scan
  | cleanup
  | sleep
  | wfi
  | close
  | left
  deriving DecidableEq

/-- What a part meets: when it begins and when it is over, in microseconds, where a new object
comes to lie, and the answer of `gap_connect`. -/
structure Moment where
  time : Nat
  done : Nat
  address : Address := 0
  err : UInt8 := 0

/-- The local variables of `main` and the global ones that are not those of the program. -/
structure MainLoop where
  program : Program
  globalActivity : UInt16
  keepRunning : Bool
  clock : Nat
  place : LoopPlace
  loopStart : UInt32
  timers : MainProgram.LoopTimers
  lastSleepOrActivity : UInt32
  lastActivity : UInt16
  rssiIterator : RssiIterator := .unset
  rssiUpdateInProgress : Bool := false
  slept : Bool := false

/-- `EXIT_GPIO_PIN`. -/
def exitGpioPin : UInt32 := 28

namespace ProgramEvent

/-- The event is a callback, of BTstack or of a pin. -/
def isCallback : ProgramEvent → Bool
  | .handlePinActivity .. | .announceToConnections _ | .mainLoopGate .. | .sendPackets
  | .startScanningForLocalNodes | .cleanupStaleItems _ => false
  | _ => true

/-- The callback starts with `global_activity++`. -/
def stirs : ProgramEvent → Bool
  | .packetCanSendNotificationHandler .. | .packetCanWriteWithoutResponseHandler .. => false
  | event => event.isCallback

/-- The switch to leave the loop. -/
def exits : ProgramEvent → Bool
  | .gpioCallback gpio fell => gpio == exitGpioPin && fell
  | _ => false

end ProgramEvent

/-- What happens while the loop runs: a callback, one of `att_read_callback` and
`sm_packet_handler`, which only count, or the part before which the loop stands. -/
inductive LoopEvent where
  | callback (event : ProgramEvent)
  | count
  | part (place : LoopPlace) (moment : Moment)

namespace MainLoop

/-- The loop before its first turn. -/
def start (program : Program) (globalActivity : UInt16) (keepRunning : Bool)
    (started : MainProgram.Periodic → Nat) (clock : Nat) : MainLoop where
  program
  globalActivity
  keepRunning
  clock
  place := .head
  loopStart := 0
  timers := .start started
  lastSleepOrActivity := reading clock
  lastActivity := globalActivity

/-- An event of the program. -/
def call (surroundings : Surroundings) (loop : MainLoop) (event : ProgramEvent) :
    Option MainLoop := do
  let program ← event.apply surroundings loop.program
  return { loop with program }

/-- The comparison for one kind of work. -/
def due (loop : MainLoop) (periodic : MainProgram.Periodic) : Bool :=
  WrappingTimer.due periodic.interval loop.loopStart (loop.timers periodic)

/-- Keep the time for one kind of work. -/
def keep (loop : MainLoop) (periodic : MainProgram.Periodic) (moment : Moment) : MainLoop :=
  { loop with timers := fun other =>
      if other = periodic then reading moment.done else loop.timers other }

/-- Whether `handlePinActivity` stores a message. -/
def storesPin (surroundings : Surroundings) (loop : MainLoop) (uptime : UInt64) : Bool :=
  (loop.program.repeater.smokeSeen || loop.program.repeater.lifeCheck) &&
    (loop.program.tracker.messages.find? (pinMessageOf surroundings.platform
      loop.program.repeater uptime).messageId).isNone

/-- The condition of the inner loop. -/
def sleeps (loop : MainLoop) : Bool :=
  WrappingTimer.due MainProgram.twoSecondsInUs loop.loopStart loop.lastSleepOrActivity &&
    loop.lastActivity == loop.globalActivity

/-- One part of the loop. -/
def part (surroundings : Surroundings) (loop : MainLoop) (moment : Moment) : Option MainLoop :=
  let uptime := UInt64.ofNat moment.time
  match loop.place with
  | .head =>
      some (if loop.keepRunning then
        { loop with place := .pins, loopStart := reading moment.time }
      else { loop with place := .left })
  | .pins => do
      let next ← loop.call surroundings (.handlePinActivity uptime moment.address)
      return { next with
        place := .announce
        globalActivity :=
          if loop.storesPin surroundings uptime then next.globalActivity + 1
          else next.globalActivity }
  | .announce =>
      if loop.due .announce then do
        let next ← loop.call surroundings (.announceToConnections uptime)
        return { next.keep .announce moment with place := .connect }
      else some { loop with place := .connect }
  | .connect => do
      let next ← loop.call surroundings (.mainLoopGate loop.loopStart moment.err)
      return { next with place := .send }
  | .send => do
      let next ← loop.call surroundings .sendPackets
      return { next with place := .flash }
  | .flash =>
      some (if loop.due .flash then { loop.keep .flash moment with place := .rssi }
        else { loop with place := .rssi })
  | .rssi =>
      if loop.due .rssiUpdate || loop.rssiUpdateInProgress then do
        let request ← loop.program.tracker.requestNextRssi loop.rssiIterator
          (loop.due .rssiUpdate)
        let kept := if loop.due .rssiUpdate then loop.keep .rssiUpdate moment else loop
        return { kept with
          place := .scan
          rssiIterator := request.iterator
          rssiUpdateInProgress := request.more }
      else some { loop with place := .scan }
  | .scan =>
      if loop.due .scan then do
        let next ← loop.call surroundings .startScanningForLocalNodes
        return { next.keep .scan moment with place := .cleanup }
      else some { loop with place := .cleanup }
  | .cleanup =>
      if loop.due .cleanup then do
        let next ← loop.call surroundings (.cleanupStaleItems uptime)
        return { next.keep .cleanup moment with place := .sleep, slept := false }
      else some { loop with place := .sleep, slept := false }
  | .sleep =>
      some (if loop.sleeps then { loop with place := .wfi } else { loop with place := .close })
  | .wfi =>
      -- whatever has come in since the test does not wake it
      some { loop with place := .sleep, slept := true }
  | .close =>
      some (if loop.slept || loop.lastActivity != loop.globalActivity then
        { loop with
          place := .head
          lastSleepOrActivity := reading moment.done
          lastActivity := loop.globalActivity }
      else { loop with place := .head })
  | .left => none

/-- What an event makes of the loop. -/
def apply (surroundings : Surroundings) (loop : MainLoop) : LoopEvent → Option MainLoop
  | .callback event => do
      let next ← loop.call surroundings event
      return { next with
        globalActivity :=
          if event.stirs then next.globalActivity + 1 else next.globalActivity
        keepRunning := next.keepRunning && !event.exits }
  | .count => some { loop with globalActivity := loop.globalActivity + 1 }
  | .part _ moment => do
      let next ← loop.part surroundings moment
      return { next with clock := moment.done }

end MainLoop

/-- Only callbacks come between the parts, the parts come in their order, the clock goes on,
and new objects come to lie where nothing is. -/
def LoopEvent.Allowed (loop : MainLoop) : LoopEvent → Prop
  | .callback event => event.isCallback = true ∧ event.Allowed loop.program
  | .count => True
  | .part place moment => place = loop.place ∧ loop.clock ≤ moment.time ∧
      moment.time ≤ moment.done ∧
      (place = .pins → loop.program.tracker.packetAt moment.address = none)

/-- One event. -/
def LoopStep (surroundings : Surroundings) (before : MainLoop) (event : LoopEvent)
    (after : MainLoop) : Prop :=
  event.Allowed before ∧ before.apply surroundings event = some after

instance (event : LoopEvent) (loop : MainLoop) : Decidable (event.Allowed loop) := by
  cases event <;> unfold LoopEvent.Allowed <;> infer_instance

/-- What an allowed event makes of the loop. -/
def MainLoop.next (surroundings : Surroundings) (loop : MainLoop) (event : LoopEvent) :
    Option MainLoop :=
  if event.Allowed loop then loop.apply surroundings event else none

theorem loopStep_of_next {surroundings : Surroundings} {before after : MainLoop}
    {event : LoopEvent} (done : before.next surroundings event = some after) :
    LoopStep surroundings before event after := by
  rw [MainLoop.next, Option.ite_none_right_eq_some] at done
  exact done

/-! ## Parts as events of the program -/

/-- The event of the program that a part is. -/
def MainLoop.work (loop : MainLoop) (moment : Moment) : Option ProgramEvent :=
  let uptime := UInt64.ofNat moment.time
  match loop.place with
  | .pins => some (.handlePinActivity uptime moment.address)
  | .announce => if loop.due .announce then some (.announceToConnections uptime) else none
  | .connect => some (.mainLoopGate loop.loopStart moment.err)
  | .send => some .sendPackets
  | .scan => if loop.due .scan then some .startScanningForLocalNodes else none
  | .cleanup => if loop.due .cleanup then some (.cleanupStaleItems uptime) else none
  | _ => none

/-- The event of the program that something in the loop is. -/
def LoopEvent.does (loop : MainLoop) : LoopEvent → Option ProgramEvent
  | .callback event => some event
  | .count => none
  | .part _ moment => loop.work moment

section Steps

variable {surroundings : Surroundings} {before after : MainLoop} {event : LoopEvent}

theorem program_of_call {next : MainLoop} {happens : ProgramEvent}
    (called : before.call surroundings happens = some next)
    (allowed : happens.Allowed before.program) :
    ProgramStep surroundings before.program happens next.program := by
  obtain ⟨program, applied, same⟩ := Option.bind_eq_some_iff.mp called
  cases same
  exact ⟨allowed, applied⟩

/-- A step of the loop is the event of the program that it says, or none. -/
def OptionalStep (surroundings : Surroundings) (before after : Program) :
    Option ProgramEvent → Prop
  | some event => ProgramStep surroundings before event after
  | none => after = before

theorem moves_of_part {moment : Moment} {next : MainLoop}
    (free : before.place = .pins → before.program.tracker.packetAt moment.address = none)
    (done : before.part surroundings moment = some next) :
    OptionalStep surroundings before.program next.program (before.work moment) := by
  unfold MainLoop.part at done
  unfold MainLoop.work
  cases place : before.place with
  | head | flash | sleep | close =>
      simp only [place, Option.some.injEq] at done
      subst done
      dsimp only [OptionalStep]
      split <;> rfl
  | wfi =>
      simp only [place, Option.some.injEq] at done
      subst done
      rfl
  | pins =>
      simp only [place, Option.bind_eq_bind, Option.bind_eq_some_iff] at done
      obtain ⟨middle, called, same⟩ := done
      have happens := program_of_call called (free place)
      cases same
      exact happens
  | connect | send =>
      simp only [place, Option.bind_eq_bind, Option.bind_eq_some_iff] at done
      obtain ⟨middle, called, same⟩ := done
      have happens := program_of_call called trivial
      cases same
      exact happens
  | announce | scan | cleanup =>
      simp only [place] at done ⊢
      split at done
      · rename_i now
        simp only [Option.bind_eq_bind, Option.bind_eq_some_iff] at done
        obtain ⟨middle, called, same⟩ := done
        have happens := program_of_call called trivial
        cases same
        rw [if_pos now]
        exact happens
      · rename_i later
        cases done
        rw [if_neg later]
        rfl
  | rssi =>
      simp only [place] at done ⊢
      split at done
      · simp only [Option.bind_eq_bind, Option.bind_eq_some_iff] at done
        obtain ⟨request, _, same⟩ := done
        cases same
        dsimp only [OptionalStep]
        split <;> rfl
      · cases done
        rfl
  | left =>
      rw [place] at done
      cases done

theorem moves_of_step (step : LoopStep surroundings before event after) :
    OptionalStep surroundings before.program after.program (event.does before) := by
  obtain ⟨allowed, done⟩ := step
  cases event with
  | callback happens =>
      obtain ⟨next, called, same⟩ := Option.bind_eq_some_iff.mp done
      have happens := program_of_call called allowed.2
      cases same
      exact happens
  | count =>
      cases done
      rfl
  | part place moment =>
      obtain ⟨next, worked, same⟩ := Option.bind_eq_some_iff.mp done
      obtain ⟨rfl, _, _, free⟩ := allowed
      have moves := moves_of_part free worked
      cases same
      exact moves

end Steps

/-! ## Pins -/

/-- A pin has asked for a message, and none has been made of it yet. -/
def Repeater.alarmed (repeater : Repeater) : Bool :=
  repeater.smokeSeen || repeater.lifeCheck

theorem alarmed_of_calm {platform : Platform} {before after : Repeater}
    (steps : BasicSteps platform Event.Calm before after) :
    after.alarmed = before.alarmed := by
  induction steps with
  | refl => rfl
  | tail _ last ih =>
      rw [← ih]
      cases last with
      | @event _ happens calm _ step =>
          cases happens with
          | processWrite | tracker =>
              obtain ⟨tracker, _, same⟩ := Option.bind_eq_some_iff.mp step.2
              cases same
              rfl
          | _ => exact calm.elim
      | copy | connectionStarted => rfl

/-- Handling the pins leaves none. -/
theorem alarmed_handlePinActivity {platform : Platform} {before after : Repeater}
    {uptime : UInt64} {address : Address}
    (done : before.handlePinActivity platform uptime address = some after) :
    after.alarmed = false := by
  unfold Repeater.handlePinActivity at done
  split at done
  · dsimp only at done
    split at done
    · obtain ⟨tracker, _, same⟩ := Option.bind_eq_some_iff.mp done
      cases same
      rfl
    · cases done
      rfl
  · rename_i idle
    cases done
    exact Bool.not_eq_true _ ▸ idle

/-- Only a pin alarms. -/
theorem alarmed_of_step {surroundings : Surroundings} {before after : Program}
    {event : ProgramEvent} (step : ProgramStep surroundings before event after)
    (alarmed : after.repeater.alarmed = true) :
    (∀ uptime address, event ≠ .handlePinActivity uptime address) ∧
      (before.repeater.alarmed = true ∨ ∃ gpio fell, event = .gpioCallback gpio fell) := by
  cases part : event.part with
  | none =>
      have same := alarmed_of_calm (Program.calm_of_step step part)
      refine ⟨?_, Or.inl (same ▸ alarmed)⟩
      rintro uptime address rfl
      cases part
  | some basic =>
      have happens := Program.eventStep_of_part step part
      cases event with
      | gpioCallback gpio fell => exact ⟨nofun, Or.inr ⟨gpio, fell, rfl⟩⟩
      | handlePinActivity uptime address =>
          cases part
          rw [alarmed_handlePinActivity happens.2] at alarmed
          cases alarmed
      | sendPackets | cleanupStaleItems =>
          cases part
          obtain ⟨tracker, _, same⟩ := Option.bind_eq_some_iff.mp happens.2
          refine ⟨nofun, Or.inl ?_⟩
          rw [← Option.some.inj same] at alarmed
          exact alarmed
      | _ => cases part

/-! ## Activity -/

/-- The test of `keep_running` is behind the loop in this turn. -/
def LoopPlace.pastHead : LoopPlace → Bool
  | .head | .left => false
  | _ => true

/-- The pins have been handled in this turn. -/
def LoopPlace.pastPins : LoopPlace → Bool
  | .head | .pins | .left => false
  | _ => true

/-- What may raise the counter. -/
def LoopEvent.stirs : LoopEvent → Bool
  | .callback event => event.stirs
  | .count => true
  | .part place _ => place == .pins

namespace MainLoop

/-- A pin has asked for something that this turn will not do any more. -/
def missed (loop : MainLoop) : Bool :=
  loop.place.pastHead && !loop.keepRunning ||
    loop.place.pastPins && loop.program.repeater.alarmed

/-- The counter and its last reading, and whether the loop goes on. -/
def counters (loop : MainLoop) : UInt16 × UInt16 × Bool :=
  (loop.globalActivity, loop.lastActivity, loop.keepRunning)

/-- The counter is ahead of its last reading by as much as has been counted in this turn, and
that is something if the turn has missed a pin. -/
def Counted (loop : MainLoop) (turn : List LoopEvent) : Prop :=
  ∃ count, count ≤ turn.countP LoopEvent.stirs ∧
    loop.globalActivity = loop.lastActivity + UInt16.ofNat count ∧
    (loop.missed = true → 0 < count)

end MainLoop

section Counting

variable {surroundings : Surroundings} {before after : MainLoop}

theorem counters_of_call {next : MainLoop} {happens : ProgramEvent}
    (called : before.call surroundings happens = some next) :
    next.counters = before.counters ∧ next.place = before.place := by
  obtain ⟨program, _, same⟩ := Option.bind_eq_some_iff.mp called
  cases same
  exact ⟨rfl, rfl⟩

/-- Most parts leave the counters alone. -/
theorem counters_of_part {moment : Moment} {next : MainLoop}
    (done : before.part surroundings moment = some next) (pins : before.place ≠ .pins)
    (close : before.place ≠ .close) :
    next.counters = before.counters := by
  unfold MainLoop.part at done
  cases place : before.place with
  | pins => exact absurd place pins
  | close => exact absurd place close
  | head | flash | sleep =>
      simp only [place, Option.some.injEq] at done
      subst done
      split <;> rfl
  | wfi =>
      simp only [place, Option.some.injEq] at done
      subst done
      rfl
  | connect | send =>
      simp only [place, Option.bind_eq_bind, Option.bind_eq_some_iff] at done
      obtain ⟨middle, called, same⟩ := done
      have kept := (counters_of_call called).1
      cases same
      exact kept
  | announce | scan | cleanup =>
      simp only [place] at done
      split at done
      · simp only [Option.bind_eq_bind, Option.bind_eq_some_iff] at done
        obtain ⟨middle, called, same⟩ := done
        have kept := (counters_of_call called).1
        cases same
        exact kept
      · cases done
        rfl
  | rssi =>
      simp only [place] at done
      split at done
      · simp only [Option.bind_eq_bind, Option.bind_eq_some_iff] at done
        obtain ⟨request, _, same⟩ := done
        cases same
        split <;> rfl
      · cases done
        rfl
  | left =>
      rw [place] at done
      cases done

theorem missed_iff {loop : MainLoop} (past : loop.place.pastPins = true) :
    loop.missed = true ↔ loop.keepRunning = false ∨ loop.program.repeater.alarmed = true := by
  have head : loop.place.pastHead = true := by
    cases place : loop.place <;> simp_all [LoopPlace.pastPins, LoopPlace.pastHead]
  simp [MainLoop.missed, past, head]

theorem missed_cases {loop : MainLoop} (missed : loop.missed = true) :
    loop.place.pastHead = true ∧ loop.keepRunning = false ∨
      loop.place.pastPins = true ∧ loop.program.repeater.alarmed = true := by
  simpa [MainLoop.missed] using missed

/-- A part misses nothing new. -/
theorem missed_of_part {moment : Moment} {next : MainLoop}
    (free : before.place = .pins → before.program.tracker.packetAt moment.address = none)
    (done : before.part surroundings moment = some next) (missed : next.missed = true)
    (close : before.place ≠ .close) : before.missed = true := by
  have moves := moves_of_part free done
  cases place : before.place with
  | close => exact absurd place close
  | left =>
      rw [MainLoop.part, place] at done
      cases done
  | head =>
      -- behind this test the loop goes on, or is over
      simp only [MainLoop.part, place, Option.some.injEq] at done
      subst done
      split at missed
      · rename_i goes
        simp [MainLoop.missed, LoopPlace.pastHead, LoopPlace.pastPins, goes] at missed
      · simp [MainLoop.missed, LoopPlace.pastHead, LoopPlace.pastPins] at missed
  | pins =>
      simp only [MainLoop.part, place, Option.bind_eq_bind, Option.bind_eq_some_iff] at done
      obtain ⟨middle, called, same⟩ := done
      have kept := congrArg (fun counters => counters.2.2) (counters_of_call called).1
      simp only [MainLoop.work, place, OptionalStep] at moves
      cases same
      rcases missed_cases missed with ⟨_, ended⟩ | ⟨_, alarmed⟩
      · have same : before.keepRunning = false := kept.symm.trans ended
        simp [MainLoop.missed, place, LoopPlace.pastHead, same]
      · exact absurd rfl ((alarmed_of_step moves alarmed).1 _ _)
  | announce | connect | send | flash | rssi | scan | cleanup | sleep | wfi =>
      have past : before.place.pastPins = true := by simp [place, LoopPlace.pastPins]
      have kept := counters_of_part done (by simp [place]) close
      rw [missed_iff past]
      rcases missed_cases missed with ⟨_, ended⟩ | ⟨_, alarmed⟩
      · exact Or.inl ((congrArg (fun counters => counters.2.2) kept).symm.trans ended)
      · refine Or.inr ?_
        cases works : before.work moment with
        | none =>
            rw [works] at moves
            rwa [← show next.program = before.program from moves]
        | some event =>
            rw [works] at moves
            refine (alarmed_of_step moves alarmed).2.resolve_right ?_
            rintro ⟨gpio, fell, rfl⟩
            simp [MainLoop.work, place] at works

/-- A callback makes the turn miss something only if it is that of a pin. -/
theorem missed_of_callback {event : ProgramEvent}
    (step : LoopStep surroundings before (.callback event) after)
    (missed : after.missed = true) :
    before.missed = true ∨ ∃ gpio fell, event = .gpioCallback gpio fell := by
  obtain ⟨next, called, same⟩ := Option.bind_eq_some_iff.mp step.2
  have happens := program_of_call called step.1.2
  obtain ⟨kept, there⟩ := counters_of_call called
  simp only [MainLoop.counters, Prod.mk.injEq] at kept
  cases same
  rcases missed_cases missed with ⟨past, ended⟩ | ⟨past, alarmed⟩
  · simp only [Bool.and_eq_false_iff, Bool.not_eq_false', kept.2.2] at ended
    rcases ended with ended | exits
    · rw [there] at past
      exact Or.inl (by simp [MainLoop.missed, past, ended])
    · cases event with
      | gpioCallback gpio fell => exact Or.inr ⟨gpio, fell, rfl⟩
      | _ => cases exits
  · refine (alarmed_of_step happens alarmed).2.imp_left fun old => ?_
    rw [there] at past
    simp [MainLoop.missed, past, old]

theorem counted_of_callback {event : ProgramEvent} {turn : List LoopEvent}
    (counted : before.Counted turn)
    (step : LoopStep surroundings before (.callback event) after) :
    after.Counted (turn ++ [.callback event]) := by
  obtain ⟨count, bounded, ahead, misses⟩ := counted
  have new := fun missed => missed_of_callback step missed
  obtain ⟨next, called, same⟩ := Option.bind_eq_some_iff.mp step.2
  obtain ⟨kept, _⟩ := counters_of_call called
  simp only [MainLoop.counters, Prod.mk.injEq] at kept
  have total : (turn ++ [LoopEvent.callback event]).countP LoopEvent.stirs =
      turn.countP LoopEvent.stirs + if event.stirs then 1 else 0 := by
    rw [List.countP_append, List.countP_singleton]
    rfl
  refine ⟨count + if event.stirs then 1 else 0, ?_, ?_, ?_⟩
  · omega
  · cases same
    simp only [kept.1, kept.2.1, ahead]
    split
    · rw [UInt16.ofNat_add, UInt16.add_assoc]
      rfl
    · simp
  · intro missed
    -- a pin that asks for something is counted
    rcases new missed with old | ⟨gpio, fell, rfl⟩
    · have := misses old
      omega
    · exact Nat.succ_pos count

theorem counted_of_count {turn : List LoopEvent} (counted : before.Counted turn)
    (step : LoopStep surroundings before .count after) : after.Counted (turn ++ [.count]) := by
  obtain ⟨count, bounded, ahead, misses⟩ := counted
  cases step.2
  refine ⟨count + 1, ?_, ?_, fun _ => Nat.succ_pos count⟩
  · rw [List.countP_append, List.countP_singleton]
    exact Nat.succ_le_succ bounded
  · simp only [ahead]
    rw [UInt16.ofNat_add, UInt16.add_assoc]
    rfl

/-- The part that handles the pins may count, the others do not. -/
theorem counted_of_part {moment : Moment} {next : MainLoop} {turn : List LoopEvent}
    (counted : before.Counted turn)
    (free : before.place = .pins → before.program.tracker.packetAt moment.address = none)
    (done : before.part surroundings moment = some next) (close : before.place ≠ .close) :
    next.Counted (turn ++ [.part before.place moment]) := by
  obtain ⟨count, bounded, ahead, misses⟩ := counted
  have counts : (turn ++ [LoopEvent.part before.place moment]).countP LoopEvent.stirs =
      turn.countP LoopEvent.stirs + if before.place = .pins then 1 else 0 := by
    rw [List.countP_append, List.countP_singleton]
    simp only [LoopEvent.stirs, beq_iff_eq]
  have missed := fun missed => misses (missed_of_part free done missed close)
  by_cases pins : before.place = .pins
  · rw [if_pos pins] at counts
    simp only [MainLoop.part, pins, Option.bind_eq_bind, Option.bind_eq_some_iff] at done
    obtain ⟨middle, called, same⟩ := done
    have kept := (counters_of_call called).1
    simp only [MainLoop.counters, Prod.mk.injEq] at kept
    have raised : next.lastActivity = before.lastActivity ∧
        (next.globalActivity = before.globalActivity ∨
          next.globalActivity = before.globalActivity + 1) := by
      cases same
      refine ⟨kept.2.1, ?_⟩
      rw [← kept.1]
      dsimp only
      split
      · exact Or.inr rfl
      · exact Or.inl rfl
    obtain ⟨last, same | more⟩ := raised
    · exact ⟨count, by omega, by rw [same, last, ahead], missed⟩
    · refine ⟨count + 1, by omega, ?_, fun _ => Nat.succ_pos count⟩
      rw [more, last, ahead, UInt16.ofNat_add, UInt16.add_assoc]
      rfl
  · have kept := counters_of_part done pins close
    simp only [MainLoop.counters, Prod.mk.injEq] at kept
    exact ⟨count, by omega, by rw [kept.1, kept.2.1, ahead], missed⟩

/-- Where a turn ends, the last reading is that of the counter. -/
theorem counted_of_close {moment : Moment} {next : MainLoop}
    (done : before.part surroundings moment = some next) (close : before.place = .close) :
    next.Counted [] := by
  simp only [MainLoop.part, close, Option.some.injEq] at done
  subst done
  refine ⟨0, Nat.le_refl 0, ?_, ?_⟩
  · split
    · simp
    · rename_i quiet
      simp only [Bool.or_eq_true, bne_iff_ne, not_or, not_not] at quiet
      simp [quiet.2]
  · split <;> simp [MainLoop.missed, LoopPlace.pastHead, LoopPlace.pastPins]

end Counting

/-- The event ends a turn of the loop. -/
def LoopEvent.closes : LoopEvent → Bool
  | .part place _ => place == .close
  | _ => false

/-- A part of the loop, and no callback. -/
def LoopEvent.isPart : LoopEvent → Bool
  | .part .. => true
  | _ => false

/-- The callback of a pin. -/
def LoopEvent.isPin : LoopEvent → Bool
  | .callback (.gpioCallback ..) => true
  | _ => false

namespace MainLoop

/-- Since the test of the inner loop only callbacks have come in, one of a pin among them if the
turn has missed something. -/
def Tested (loop : MainLoop) (turn : List LoopEvent) : Prop :=
  ∃ tested moment since, turn = tested ++ .part .sleep moment :: since ∧
    (∀ event ∈ since, event.isPart = false) ∧
    (turn.countP LoopEvent.stirs < 2 ^ 16 → loop.missed = true →
      ∃ event ∈ since, event.isPin = true)

/-- The events end with those of a turn, which counts as it should, and which has passed the
test of the inner loop where the loop goes to sleep. -/
def Turned (events : List LoopEvent) (loop : MainLoop) : Prop :=
  ∃ earlier turn, events = earlier ++ turn ∧ (∀ event ∈ turn, event.closes = false) ∧
    loop.Counted turn ∧ (loop.place = .wfi → loop.Tested turn)

end MainLoop

section Sleeping

variable {surroundings : Surroundings} {before after : MainLoop} {turn : List LoopEvent}

/-- Where the test of the inner loop passes, the counter is where it was; so nothing has been
missed if it has not come round. -/
theorem missed_of_sleeps (counted : before.Counted turn)
    (few : turn.countP LoopEvent.stirs < 2 ^ 16) (sleeps : before.sleeps = true) :
    before.missed = false := by
  obtain ⟨count, bounded, ahead, misses⟩ := counted
  have level : UInt16.ofNat count = 0 := by
    simp only [MainLoop.sleeps, Bool.and_eq_true, beq_iff_eq] at sleeps
    have same := ahead.symm.trans sleeps.2.symm
    simpa using same
  have none : count = 0 := by
    have value := congrArg UInt16.toNat level
    rw [UInt16.toNat_ofNat_of_lt' (by simp [UInt16.size]; omega)] at value
    exact value
  rw [← Bool.not_eq_true]
  intro missed
  have := misses missed
  omega

theorem sleeps_of_asleep {moment : Moment} {next : MainLoop}
    (done : before.part surroundings moment = some next) (asleep : next.place = .wfi) :
    before.place = .sleep ∧ before.sleeps = true := by
  unfold MainLoop.part at done
  cases place : before.place with
  | sleep =>
      simp only [place, Option.some.injEq] at done
      subst done
      by_cases sleeps : before.sleeps = true
      · exact ⟨rfl, sleeps⟩
      · rw [if_neg sleeps] at asleep
        cases asleep
  | head | flash | close =>
      simp only [place, Option.some.injEq] at done
      subst done
      split at asleep <;> cases asleep
  | wfi =>
      simp only [place, Option.some.injEq] at done
      subst done
      cases asleep
  | pins | connect | send =>
      simp only [place, Option.bind_eq_bind, Option.bind_eq_some_iff] at done
      obtain ⟨middle, _, same⟩ := done
      cases same
      cases asleep
  | announce | scan | cleanup | rssi =>
      simp only [place] at done
      split at done
      · simp only [Option.bind_eq_bind, Option.bind_eq_some_iff] at done
        obtain ⟨middle, _, same⟩ := done
        cases same
        cases asleep
      · cases done
        cases asleep
  | left =>
      rw [place] at done
      cases done

/-- A callback leaves the loop where it stands. -/
theorem place_of_outside {event : LoopEvent} (outside : event.isPart = false)
    (step : LoopStep surroundings before event after) : after.place = before.place := by
  cases event with
  | callback happens =>
      obtain ⟨next, called, same⟩ := Option.bind_eq_some_iff.mp step.2
      cases same
      exact (counters_of_call called).2
  | count =>
      cases step.2
      rfl
  | part place moment => cases outside

/-- What the loop misses by a callback is what a pin asks for. -/
theorem missed_of_outside {event : LoopEvent} (outside : event.isPart = false)
    (step : LoopStep surroundings before event after) (missed : after.missed = true) :
    before.missed = true ∨ event.isPin = true := by
  cases event with
  | callback happens =>
      rcases missed_of_callback step missed with old | ⟨gpio, fell, rfl⟩
      · exact Or.inl old
      · exact Or.inr rfl
  | count =>
      cases step.2
      exact Or.inl missed
  | part place moment => cases outside

theorem tested_of_outside {event : LoopEvent} (tested : before.Tested turn)
    (outside : event.isPart = false) (step : LoopStep surroundings before event after) :
    after.Tested (turn ++ [event]) := by
  obtain ⟨earlier, moment, since, rfl, others, pins⟩ := tested
  refine ⟨earlier, moment, since ++ [event], by simp, ?_, fun few missed => ?_⟩
  · simp only [List.mem_append, List.mem_singleton]
    rintro other (old | rfl)
    · exact others other old
    · exact outside
  · rcases missed_of_outside outside step missed with old | own
    · rw [List.countP_append] at few
      obtain ⟨pin, member, own⟩ := pins (by omega) old
      exact ⟨pin, List.mem_append_left _ member, own⟩
    · exact ⟨event, List.mem_append_right _ (List.mem_singleton.mpr rfl), own⟩

/-- The loop comes to `__wfi()` by the test of the inner loop. -/
theorem tested_of_part {moment : Moment} {next : MainLoop} (counted : before.Counted turn)
    (free : before.place = .pins → before.program.tracker.packetAt moment.address = none)
    (done : before.part surroundings moment = some next) (asleep : next.place = .wfi) :
    next.Tested (turn ++ [.part before.place moment]) := by
  obtain ⟨place, sleeps⟩ := sleeps_of_asleep done asleep
  refine ⟨turn, moment, [], by rw [place], by simp, fun few missed => ?_⟩
  have old := missed_of_part free done missed (by simp [place])
  rw [List.countP_append] at few
  rw [missed_of_sleeps counted (by omega) sleeps] at old
  cases old

/-- One event goes on with the turn, or ends it. -/
theorem turned_of_step {event : LoopEvent} {events : List LoopEvent}
    (turned : before.Turned events) (step : LoopStep surroundings before event after) :
    after.Turned (events ++ [event]) := by
  obtain ⟨earlier, turn, rfl, open', counted, tested⟩ := turned
  have further : event.closes = false → after.Counted (turn ++ [event]) →
      (after.place = .wfi → after.Tested (turn ++ [event])) →
      after.Turned (earlier ++ turn ++ [event]) := by
    intro goes counted tested
    refine ⟨earlier, turn ++ [event], List.append_assoc _ _ _, ?_, counted, tested⟩
    simp only [List.mem_append, List.mem_singleton]
    rintro other (old | rfl)
    · exact open' other old
    · exact goes
  cases event with
  | callback happens =>
      exact further rfl (counted_of_callback counted step) fun asleep =>
        tested_of_outside (tested ((place_of_outside rfl step).symm.trans asleep)) rfl step
  | count =>
      exact further rfl (counted_of_count counted step) fun asleep =>
        tested_of_outside (tested ((place_of_outside rfl step).symm.trans asleep)) rfl step
  | part place moment =>
      obtain ⟨rfl, _, _, free⟩ := step.1
      obtain ⟨next, done, same⟩ := Option.bind_eq_some_iff.mp step.2
      by_cases close : before.place = .close
      · have fresh := counted_of_close done close
        have awake : next.place ≠ .wfi := fun asleep => by
          rw [(sleeps_of_asleep done asleep).1] at close
          cases close
        cases same
        exact ⟨earlier ++ turn ++ [_], [], (List.append_nil _).symm, by simp, fresh,
          fun asleep => absurd asleep awake⟩
      · have counts := counted_of_part counted free done close
        have tests := tested_of_part counted free done
        cases same
        exact further (by simpa [LoopEvent.closes] using close) counts tests

end Sleeping

/-- However the callbacks come in, the events of a run end with those of a turn. -/
theorem turned_of_run {surroundings : Surroundings} {program : Program} {activity : UInt16}
    {goes : Bool} {started : MainProgram.Periodic → Nat} {clock : Nat}
    {events : List LoopEvent} {loop : MainLoop}
    (run : Run (LoopStep surroundings) (.start program activity goes started clock) events
      loop) : loop.Turned events := by
  have initial : (MainLoop.start program activity goes started clock).Turned [] :=
    ⟨[], [], rfl, by simp, ⟨0, Nat.le_refl 0, by simp [MainLoop.start],
      by simp [MainLoop.start, MainLoop.missed, LoopPlace.pastHead, LoopPlace.pastPins]⟩, nofun⟩
  exact @Run.invariant_of_labels _ _ _ MainLoop.Turned _ _ _ run
    (fun _ turned step => turned_of_step turned step) initial

/-- However the callbacks come in between the parts of the main loop: when the test of the inner
loop passes, no alarm waits to be made a message of, and the loop has not been told to end; so
what it then sleeps over has come in since that test.  The exception is a turn in which 65536
of what counts as activity has happened. -/
theorem nothing_missed_asleep {surroundings : Surroundings} {program : Program} {activity : UInt16}
    {goes : Bool} {started : MainProgram.Periodic → Nat} {clock : Nat}
    {events : List LoopEvent} {loop : MainLoop}
    (run : Run (LoopStep surroundings) (.start program activity goes started clock) events
      loop) :
    ∃ earlier turn, events = earlier ++ turn ∧ (∀ event ∈ turn, event.closes = false) ∧
      (turn.countP LoopEvent.stirs < 2 ^ 16 →
        (loop.place = .sleep → loop.sleeps = true →
          loop.keepRunning = true ∧ loop.program.repeater.smokeSeen = false ∧
            loop.program.repeater.lifeCheck = false) ∧
        (loop.place = .wfi →
          ∃ tested moment since, turn = tested ++ .part .sleep moment :: since ∧
            (∀ event ∈ since, event.isPart = false) ∧
            (loop.keepRunning = false ∨ loop.program.repeater.smokeSeen = true ∨
              loop.program.repeater.lifeCheck = true → ∃ event ∈ since, event.isPin = true))) := by
  obtain ⟨earlier, turn, split, open', counted, tested⟩ := turned_of_run run
  refine ⟨earlier, turn, split, open', fun few => ⟨fun place sleeps => ?_, fun place => ?_⟩⟩
  · have past : loop.place.pastPins = true := by rw [place]; rfl
    have nothing := missed_of_sleeps counted few sleeps
    rw [← Bool.not_eq_true, missed_iff past] at nothing
    simpa [Repeater.alarmed] using nothing
  · have past : loop.place.pastPins = true := by rw [place]; rfl
    obtain ⟨before, moment, since, same, outside, pins⟩ := tested place
    refine ⟨before, moment, since, same, outside, fun missed => pins few ?_⟩
    rw [missed_iff past]
    simpa [Repeater.alarmed] using missed

/-- The counter comes round: 65536 callbacks that count leave the loop as it was. -/
theorem counter_comes_round (surroundings : Surroundings) (loop : MainLoop) :
    Run (LoopStep surroundings) loop (List.replicate (2 ^ 16) .count) loop := by
  have counts : ∀ count (loop : MainLoop),
      Run (LoopStep surroundings) loop (List.replicate count .count)
        { loop with globalActivity := loop.globalActivity + UInt16.ofNat count } := by
    intro count
    induction count with
    | zero =>
        intro loop
        simpa using Run.nil loop
    | succ count ih =>
        intro loop
        rw [List.replicate_succ]
        refine .cons ⟨trivial, rfl⟩ ?_
        have rest := ih { loop with globalActivity := loop.globalActivity + 1 }
        simp only [UInt16.add_assoc] at rest
        rw [UInt16.ofNat_add, UInt16.add_comm (UInt16.ofNat count)]
        exact rest
  have round := counts (2 ^ 16) loop
  rwa [show UInt16.ofNat (2 ^ 16) = 0 from rfl, UInt16.add_zero] at round

/-- A turn of the loop that begins at a time. -/
def turnAt (time : Nat) (address : Address) : List LoopEvent :=
  [.head, .pins, .announce, .connect, .send, .flash, .rssi, .scan, .cleanup, .sleep, .close].map
    fun place => .part place { time, done := time, address }

/-- A pin, the turn that handles it, and the next turn up to the test of the inner loop. -/
def alarmHandled : List LoopEvent :=
  .callback (.gpioCallback smokeSeenPin true) :: turnAt 1000000 200 ++
    (turnAt 4000000 300).take 9

/-- The loop passes the test in the turn behind that of a pin; a second pin that falls before
`__wfi()` is slept over. -/
theorem asleep_after_alarm : ∃ loop later,
    Run (LoopStep bench) (.start (Program.new 100) 0 true (fun _ => 0) 0) alarmHandled loop ∧
    loop.place = .sleep ∧ loop.sleeps = true ∧ loop.program.repeater.smokeSeen = false ∧
    200 ∈ loop.program.tracker.broadcastPacketsToSendList ∧
    Run (LoopStep bench) loop
      [.part .sleep ⟨4000000, 4000000, 300, 0⟩, .callback (.gpioCallback smokeSeenPin true)]
      later ∧
    later.place = .wfi ∧ later.program.repeater.smokeSeen = true := by
  have outcome : ((follow (MainLoop.next bench) alarmHandled
      (.start (Program.new 100) 0 true (fun _ => 0) 0)).bind fun loop =>
    (follow (MainLoop.next bench) [.part .sleep ⟨4000000, 4000000, 300, 0⟩,
      .callback (.gpioCallback smokeSeenPin true)] loop).map fun later =>
        ((loop.place, loop.sleeps, loop.program.tracker.broadcastPacketsToSendList),
          later.place, later.program.repeater.smokeSeen)) =
      some ((.sleep, true, [200]), .wfi, true) := by decide
  obtain ⟨loop, followed, outcome⟩ := Option.bind_eq_some_iff.mp outcome
  obtain ⟨later, falls, outcome⟩ := Option.map_eq_some_iff.mp outcome
  simp only [Prod.mk.injEq] at outcome
  obtain ⟨⟨place, sleeps, waits⟩, asleep, missed⟩ := outcome
  have run := Run.of_follow loopStep_of_next followed
  obtain ⟨earlier, turn, split, _, misses⟩ := nothing_missed_asleep run
  have few : alarmHandled.countP LoopEvent.stirs = 3 := by decide
  rw [split, List.countP_append] at few
  have nothing := (misses (by omega)).1 place sleeps
  exact ⟨loop, later, run, place, sleeps, nothing.2.1, by simp [waits],
    Run.of_follow loopStep_of_next falls, asleep, missed⟩

end BleRepeater
