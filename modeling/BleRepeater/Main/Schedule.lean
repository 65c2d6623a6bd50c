import BleRepeater.Library.WrappingTimer
import BleRepeater.Main.ConnectGate

/-!
# The schedule of the main loop

The periodic work of the main loop, each kind with its own interval and with the reading of
the clock that was kept when it was last done.  The reading for the clean-up is at first one
of the future, so that the first clean-up comes at once unless five minutes have gone by; all
others, and all further work of every kind, keep their intervals.
-/

namespace BleRepeater.MainProgram

open WrappingTimer

/-- `two_minutes_in_us`, which is five. -/
def twoMinutesInUs : UInt32 := 300000000

/-- `five_minutes_in_us`. -/
def fiveMinutesInUs : UInt32 := 300000000

/-- `ten_minutes_in_us`. -/
def tenMinutesInUs : UInt32 := 600000000

/-- What the main loop does from time to time: `announceToConnections`, the LED,
`requestNextRssi(true)`, `start_scanning_for_local_nodes` and `cleanupStaleItems`. -/
inductive Periodic where
  | announce
  | flash
  | rssiUpdate
  | scan
  | cleanup
  deriving DecidableEq

/-- What the difference to `loopStart` is compared with. -/
def Periodic.interval : Periodic → UInt32
  | announce => twoSecondsInUs
  | flash => twoSecondsInUs
  | rssiUpdate => twoMinutesInUs
  | scan => fiveMinutesInUs
  | cleanup => tenMinutesInUs

/-- `lastAnnounce`, `lastFlash`, `lastRssiUpdate`, `lastScan` and `lastCleanup`. -/
abbrev LoopTimers := Periodic → UInt32

/-- The timers before the loop, where `started` is when each one is set. -/
def LoopTimers.start (started : Periodic → Nat) : LoopTimers
  | .announce => reading (started .announce)
  | .flash => 0
  | .rssiUpdate => reading (started .rssiUpdate)
  | .scan => reading (started .scan)
  | .cleanup => reading (started .cleanup) + fiveMinutesInUs

/-- The times of one turn of the loop: `loopStart`, and for each kind of work when it is done
if it is, and when `time_us_32()` is called for its timer then. -/
structure Turn where
  loopStart : Nat
  acts : Periodic → Nat
  done : Periodic → Nat
  begins : ∀ periodic, loopStart ≤ acts periodic
  ends : ∀ periodic, acts periodic ≤ done periodic

/-- A turn as one kind of work sees it. -/
def Turn.tick (turn : Turn) (periodic : Periodic) : Tick where
  start := turn.loopStart
  acts := turn.acts periodic
  done := turn.done periodic
  begins := turn.begins periodic
  ends := turn.ends periodic

/-- The work that a turn does. -/
def LoopTimers.performs (timers : LoopTimers) (turn : Turn) (periodic : Periodic) : Bool :=
  due periodic.interval (reading turn.loopStart) (timers periodic)

/-- The timers after a turn. -/
def LoopTimers.turn (timers : LoopTimers) (turn : Turn) : LoopTimers := fun periodic =>
  if timers.performs turn periodic then reading (turn.done periodic) else timers periodic

/-- The turns of the loop that do one kind of work. -/
def performed (periodic : Periodic) : LoopTimers → List Turn → List Tick
  | _, [] => []
  | timers, turn :: turns =>
      if timers.performs turn periodic then
        turn.tick periodic :: performed periodic (timers.turn turn) turns
      else performed periodic (timers.turn turn) turns

/-- The times of a loop as one kind of work sees them: from turn to turn, and from when its
timer is set, less than ten minutes go by. -/
structure LoopTimes (periodic : Periodic) (started : Nat) (turns : List Turn) : Prop where
  inOrder : InOrder started (turns.map (Turn.tick · periodic))
  brisk : Brisk tenMinutesInUs.toNat started (turns.map (Turn.tick · periodic))

/-- The first clean-up is no earlier than fifteen minutes after the start, and every further
one more than ten minutes after the previous. -/
structure CleansAsDocumented (started : Nat) (cleanups : List Tick) : Prop where
  first : ∀ first ∈ cleanups.head?, started + 900000000 ≤ first.acts
  further : cleanups.IsChain fun earlier later => earlier.acts + 600000000 < later.acts

variable {periodic : Periodic} {timers : LoopTimers} {turns : List Turn} {started : Nat}

/-- Each kind of work goes by its own timer. -/
theorem performed_eq :
    performed periodic timers turns =
      firings periodic.interval (timers periodic) (turns.map (Turn.tick · periodic)) := by
  induction turns generalizing timers with
  | nil => rfl
  | cons turn turns ih =>
      rw [performed, ih, List.map_cons, firings, LoopTimers.turn]
      change (if timers.performs turn periodic = true then _ else _) =
        if timers.performs turn periodic = true then _ else _
      split <;> rfl

/-- Every kind of work keeps its interval: from the time for which its timer is set, unless the
loop starts before that, and from one time to the next. -/
theorem performed_apart {last : Nat} (set : timers periodic = reading last)
    (inOrder : InOrder last (turns.map (Turn.tick · periodic))) :
    (∀ first ∈ (performed periodic timers turns).head?,
      last + periodic.interval.toNat < first.acts) ∧
      (performed periodic timers turns).IsChain fun earlier later =>
        earlier.acts + periodic.interval.toNat < later.acts := by
  rw [performed_eq, set]
  exact (firings_apart inOrder).acts

/-- The timer for the clean-up is set for five minutes after the start. -/
theorem start_cleanup (starts : Periodic → Nat) :
    LoopTimers.start starts .cleanup = reading (starts .cleanup + fiveMinutesInUs.toNat) := by
  rw [reading, UInt32.ofNat_add, UInt32.ofNat_toNat]
  rfl

/-- A turn before that cleans up. -/
theorem performs_early {starts : Periodic → Nat} {turn : Turn}
    (late : starts .cleanup ≤ turn.loopStart)
    (early : turn.loopStart < starts .cleanup + 300000000) :
    (LoopTimers.start starts).performs turn .cleanup = true := by
  rw [LoopTimers.performs, start_cleanup]
  have five : fiveMinutesInUs.toNat = 300000000 := rfl
  have ten : Periodic.cleanup.interval.toNat = 600000000 := rfl
  exact due_of_ahead (by omega) (by omega)

/-- For every start of the clock and all times of the loop: the clean-ups are made as
documented exactly when no turn of the loop starts in the five minutes after the start. -/
theorem cleansAsDocumented_iff {starts : Periodic → Nat}
    (times : LoopTimes .cleanup (starts .cleanup) turns) :
    CleansAsDocumented (starts .cleanup) (performed .cleanup (LoopTimers.start starts) turns) ↔
      ∀ turn ∈ turns, starts .cleanup + 300000000 ≤ turn.loopStart := by
  have five : fiveMinutesInUs.toNat = 300000000 := rfl
  have ten : Periodic.cleanup.interval.toNat = 600000000 := rfl
  cases turns with
  | nil => exact iff_of_true ⟨by simp [performed], .nil⟩ (by simp)
  | cons turn turns =>
      have after : starts .cleanup ≤ turn.loopStart := times.inOrder.1
      have finished : turn.done .cleanup < turn.loopStart + 600000000 := times.brisk.2.1
      have begins := turn.begins .cleanup
      have ends := turn.ends .cleanup
      constructor
      · intro documented
        -- the first turn cleans up if it is early, and is over before the fifteen minutes are
        have late : starts .cleanup + 300000000 ≤ turn.loopStart := by
          by_contra early
          have cleans := performs_early after (Nat.lt_of_not_le early)
          have first := documented.first (turn.tick .cleanup) (by rw [performed, if_pos cleans]; rfl)
          change starts .cleanup + 900000000 ≤ turn.acts .cleanup at first
          omega
        rw [List.forall_mem_cons]
        refine ⟨late, fun other member => ?_⟩
        have behind := times.inOrder.2.le_start (other.tick .cleanup)
          (List.mem_map_of_mem member)
        change turn.done .cleanup ≤ other.loopStart at behind
        omega
      · intro late
        have head := late turn (by simp)
        have inOrder : InOrder (starts .cleanup + fiveMinutesInUs.toNat)
            ((turn :: turns).map (Turn.tick · .cleanup)) := ⟨head, times.inOrder.2⟩
        obtain ⟨first, further⟩ := performed_apart (start_cleanup starts) inOrder
        rw [ten] at first further
        refine ⟨fun tick same => ?_, further⟩
        have := first tick same
        omega

/-- A turn in which no work takes any time. -/
def Turn.instant (time : Nat) : Turn where
  loopStart := time
  acts _ := time
  done _ := time
  begins _ := Nat.le_refl _
  ends _ := Nat.le_refl _

/-- All timers are set just before the clock wraps. -/
def beforeWrap (_periodic : Periodic) : Nat :=
  4000000000

/-- Turns 5, 14, 15, 24 and 26 minutes later: the third and the last clean up. -/
theorem cleansAsDocumented_twice :
    ∃ cleanups, performed .cleanup (LoopTimers.start beforeWrap)
        ([4300000000, 4840000000, 4900000001, 5440000000, 5560000000].map Turn.instant) =
          cleanups ∧
      cleanups.map Tick.start = [4900000001, 5560000000] ∧
      CleansAsDocumented (beforeWrap .cleanup) cleanups := by
  refine ⟨_, rfl, by decide, (cleansAsDocumented_iff ⟨?_, ?_⟩).mpr ?_⟩
  · simp [InOrder, Turn.tick, Turn.instant, beforeWrap]
  · simp [Brisk, Turn.tick, Turn.instant, beforeWrap, tenMinutesInUs]
  · simp [Turn.instant, beforeWrap]

/-- A turn a microsecond after the start cleans up. -/
theorem cleans_at_once :
    ¬ ∀ (starts : Periodic → Nat) (turns : List Turn),
      LoopTimes .cleanup (starts .cleanup) turns →
      CleansAsDocumented (starts .cleanup)
        (performed .cleanup (LoopTimers.start starts) turns) := by
  intro always
  have documented := always (fun _ => 0) [.instant 1]
    ⟨by simp [InOrder, Turn.tick, Turn.instant],
      by simp [Brisk, Turn.tick, Turn.instant, tenMinutesInUs]⟩
  have cleans : (LoopTimers.start fun _ => 0).performs (.instant 1) .cleanup = true := by decide
  have first := documented.first (Turn.tick (.instant 1) .cleanup)
    (by rw [performed, if_pos cleans]; rfl)
  revert first
  simp [Turn.tick, Turn.instant]

end BleRepeater.MainProgram
