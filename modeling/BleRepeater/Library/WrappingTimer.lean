import Mathlib

/-!
# Wrapping timers

A loop reads a 32-bit clock that wraps, and acts when the reading is more than an interval ahead
of the one that it kept from the last time.  As long as the kept reading is not ahead of the
clock, it never acts too early, however often the clock wraps in between; while the kept reading
is ahead, the difference wraps, and the loop acts at once.
-/

namespace BleRepeater.WrappingTimer

/-- The clock at a time. -/
def reading (time : Nat) : UInt32 :=
  UInt32.ofNat time

/-- The unsigned difference exceeds the interval. -/
def due (interval now last : UInt32) : Bool :=
  decide (now - last > interval)

/-- A turn of the loop: it looks at the clock at `start`, if it acts it does so at `acts`, and
it keeps the reading of `done`. -/
structure Tick where
  start : Nat
  acts : Nat
  done : Nat
  begins : start ≤ acts
  ends : acts ≤ done

/-- The turns at which the loop acts. -/
def firings (interval : UInt32) : UInt32 → List Tick → List Tick
  | _, [] => []
  | last, tick :: ticks =>
      if due interval (reading tick.start) last then
        tick :: firings interval (reading tick.done) ticks
      else firings interval last ticks

/-- The turns come one after the other, the first not before a time. -/
def InOrder : Nat → List Tick → Prop
  | _, [] => True
  | since, tick :: ticks => since ≤ tick.start ∧ InOrder tick.done ticks

/-- Successive turns are more than an interval apart, the first from a time. -/
def Apart (interval : Nat) : Nat → List Tick → Prop
  | _, [] => True
  | since, tick :: ticks => since + interval < tick.start ∧ Apart interval tick.done ticks

/-- From turn to turn, the first from a time, less than a step goes by. -/
def Brisk (step : Nat) : Nat → List Tick → Prop
  | _, [] => True
  | since, tick :: ticks =>
      tick.start < since + step ∧ tick.done < tick.start + step ∧ Brisk step tick.start ticks

variable {interval : UInt32} {ticks : List Tick}

/-- The loop never acts before the interval is over. -/
theorem lt_of_due {now last : Nat} (ordered : last ≤ now)
    (fires : due interval (reading now) (reading last) = true) : last + interval.toNat < now := by
  have longer := UInt32.lt_iff_toNat_lt.mp (of_decide_eq_true fires)
  simp only [reading, UInt32.toNat_sub, UInt32.toNat_ofNat'] at longer
  omega

/-- Where the kept reading is ahead of the clock, but not by much, the loop acts. -/
theorem due_of_ahead {now last : Nat} (ahead : now < last)
    (near : last - now + interval.toNat < 2 ^ 32) :
    due interval (reading now) (reading last) = true := by
  refine decide_eq_true (UInt32.lt_iff_toNat_lt.mpr ?_)
  simp only [reading, UInt32.toNat_sub, UInt32.toNat_ofNat']
  omega

theorem InOrder.mono {earlier later : Nat} (inOrder : InOrder later ticks)
    (before : earlier ≤ later) : InOrder earlier ticks := by
  cases ticks with
  | nil => trivial
  | cons tick ticks => exact ⟨Nat.le_trans before inOrder.1, inOrder.2⟩

/-- Every turn starts after the time that the first one does not come before. -/
theorem InOrder.le_start {since : Nat} (inOrder : InOrder since ticks) :
    ∀ tick ∈ ticks, since ≤ tick.start := by
  induction ticks generalizing since with
  | nil => simp
  | cons first ticks ih =>
      have through := Nat.le_trans first.begins first.ends
      rw [List.forall_mem_cons]
      refine ⟨inOrder.1, fun tick member => ?_⟩
      have later := ih inOrder.2 tick member
      have here := inOrder.1
      omega

/-- The turns at which the loop acts are more than the interval apart. -/
theorem firings_apart {last : Nat} (inOrder : InOrder last ticks) :
    Apart interval.toNat last (firings interval (reading last) ticks) := by
  induction ticks generalizing last with
  | nil => trivial
  | cons tick ticks ih =>
      rw [firings]
      split
      · rename_i fires
        exact ⟨lt_of_due inOrder.1 fires, ih inOrder.2⟩
      · have here := inOrder.1
        have through := Nat.le_trans tick.begins tick.ends
        exact ih (inOrder.2.mono (by omega))

/-- What the loop does at turns more than an interval apart is more than an interval apart. -/
theorem Apart.acts {length since : Nat} (apart : Apart length since ticks) :
    (∀ first ∈ ticks.head?, since + length < first.acts) ∧
      ticks.IsChain fun earlier later => earlier.acts + length < later.acts := by
  induction ticks generalizing since with
  | nil => simp
  | cons tick ticks ih =>
      obtain ⟨next, rest⟩ := ih apart.2
      refine ⟨?_, ?_⟩
      · intro first same
        cases same
        exact Nat.lt_of_lt_of_le apart.1 tick.begins
      · cases ticks with
        | nil => exact .singleton tick
        | cons second ticks =>
            have later := next second rfl
            have finished := tick.ends
            exact .cons_cons (by omega) rest

end BleRepeater.WrappingTimer
