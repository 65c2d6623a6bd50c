import BleRepeater.Main.MainLoop

/-!
# Intervals

The reading that the loop keeps for a kind of work is that of a time which has gone by, and the
one that it compares with is taken later, where it comes to that work again.  So a kind of work
keeps its interval, however the readings wrap and whatever comes in between.
-/

namespace BleRepeater

open Transition WrappingTimer

/-- The part of the loop that does one kind of work. -/
def MainProgram.Periodic.place : MainProgram.Periodic → LoopPlace
  | .announce => .announce
  | .flash => .flash
  | .rssiUpdate => .rssi
  | .scan => .scan
  | .cleanup => .cleanup

/-- The order of the parts in a turn. -/
def LoopPlace.rank : LoopPlace → Nat
  | .head => 0
  | .pins => 1
  | .announce => 2
  | .connect => 3
  | .send => 4
  | .flash => 5
  | .rssi => 6
  | .scan => 7
  | .cleanup => 8
  | .sleep => 9
  | .wfi => 10
  | .close => 11
  | .left => 12

/-- The turn has begun and has not come past a kind of work. -/
def LoopPlace.comesTo (place : LoopPlace) (periodic : MainProgram.Periodic) : Prop :=
  0 < place.rank ∧ place.rank ≤ periodic.place.rank

theorem comesTo_of_next {place next : LoopPlace} {periodic : MainProgram.Periodic}
    (moves : next.rank = place.rank + 1) (begun : 0 < place.rank)
    (comes : next.comesTo periodic) : place.comesTo periodic ∧ place ≠ periodic.place := by
  obtain ⟨_, ahead⟩ := comes
  refine ⟨⟨begun, by omega⟩, ?_⟩
  rintro rfl
  omega

theorem rank_place_le (periodic : MainProgram.Periodic) : periodic.place.rank ≤ 8 := by
  cases periodic <;> decide

namespace MainLoop

variable {surroundings : Surroundings} {before after : MainLoop} {moment : Moment}
  {periodic : MainProgram.Periodic}

/-- What a part does to the reading at the start of the turn and to the reading kept for one kind
of work, and where the loop stands behind it. -/
structure Keeps (before after : MainLoop) (moment : Moment) (periodic : MainProgram.Periodic) :
    Prop where
  loopStart : after.loopStart = before.loopStart ∨
    before.place = .head ∧ after.loopStart = reading moment.time
  timer : after.timers periodic = before.timers periodic ∨
    before.place = periodic.place ∧ after.timers periodic = reading moment.done
  place : after.place.comesTo periodic →
    before.place = .head ∧ after.loopStart = reading moment.time ∨
      before.place.comesTo periodic ∧ before.place ≠ periodic.place

/-- A part that keeps no reading. -/
theorem keeps_of_same (loopStart : after.loopStart = before.loopStart)
    (timers : after.timers = before.timers)
    (moves : after.place.rank = before.place.rank + 1) (begun : 0 < before.place.rank) :
    before.Keeps after moment periodic :=
  ⟨Or.inl loopStart, Or.inl (congrFun timers periodic),
    fun comes => Or.inr (comesTo_of_next moves begun comes)⟩

/-- A part that does a kind of work keeps the reading for it. -/
theorem keeps_of_kept (other : MainProgram.Periodic)
    (loopStart : after.loopStart = before.loopStart)
    (timers : after.timers periodic =
      if periodic = other then reading moment.done else before.timers periodic)
    (here : before.place = other.place) (moves : after.place.rank = before.place.rank + 1)
    (begun : 0 < before.place.rank) : before.Keeps after moment periodic := by
  refine ⟨Or.inl loopStart, ?_, fun comes => Or.inr (comesTo_of_next moves begun comes)⟩
  by_cases same : periodic = other
  · rw [if_pos same] at timers
    exact Or.inr ⟨same ▸ here, timers⟩
  · rw [if_neg same] at timers
    exact Or.inl timers

/-- A part behind all periodic work. -/
theorem keeps_of_behind (loopStart : after.loopStart = before.loopStart)
    (timers : after.timers = before.timers)
    (behind : ¬ after.place.comesTo periodic) : before.Keeps after moment periodic :=
  ⟨Or.inl loopStart, Or.inl (congrFun timers periodic), fun comes => absurd comes behind⟩

theorem not_comesTo_of_behind {place : LoopPlace} (behind : 8 < place.rank) :
    ¬ place.comesTo periodic := by
  rintro ⟨_, ahead⟩
  have := rank_place_le periodic
  omega

theorem times_of_call {event : ProgramEvent} {next : MainLoop}
    (called : before.call surroundings event = some next) :
    next.loopStart = before.loopStart ∧ next.timers = before.timers ∧
      next.clock = before.clock := by
  obtain ⟨program, _, same⟩ := Option.bind_eq_some_iff.mp called
  cases same
  exact ⟨rfl, rfl, rfl⟩

/-- A part that calls the program for a kind of work. -/
theorem keeps_of_work {other : MainProgram.Periodic} {event : ProgramEvent} {next : MainLoop}
    {place : LoopPlace} {slept : Bool} (called : before.call surroundings event = some next)
    (here : before.place = other.place) (moves : place.rank = before.place.rank + 1)
    (begun : 0 < before.place.rank) :
    before.Keeps { next.keep other moment with place, slept } moment periodic := by
  obtain ⟨loopStart, timers, _⟩ := times_of_call called
  refine keeps_of_kept other loopStart ?_ here moves begun
  rw [← timers]
  rfl

theorem keeps_of_part (done : before.part surroundings moment = some after)
    (periodic : MainProgram.Periodic) : before.Keeps after moment periodic := by
  unfold MainLoop.part at done
  cases here : before.place with
  | head =>
      simp only [here, Option.some.injEq] at done
      subst done
      split
      · exact ⟨Or.inr ⟨here, rfl⟩, Or.inl rfl, fun _ => Or.inl ⟨here, rfl⟩⟩
      · exact keeps_of_behind rfl rfl
          (not_comesTo_of_behind (show 8 < LoopPlace.left.rank by decide))
  | pins | connect | send =>
      simp only [here, Option.bind_eq_bind, Option.bind_eq_some_iff] at done
      obtain ⟨middle, called, same⟩ := done
      obtain ⟨loopStart, timers, _⟩ := times_of_call called
      cases same
      exact keeps_of_same loopStart timers (by rw [here]; rfl) (by rw [here]; decide)
  | announce | scan | cleanup =>
      simp only [here] at done
      split at done
      · simp only [Option.bind_eq_bind, Option.bind_eq_some_iff] at done
        obtain ⟨middle, called, same⟩ := done
        cases same
        exact keeps_of_work called here (by rw [here]; rfl) (by rw [here]; decide)
      · cases done
        exact keeps_of_same rfl rfl (by rw [here]; rfl) (by rw [here]; decide)
  | flash =>
      simp only [here, Option.some.injEq] at done
      subst done
      split
      · exact keeps_of_kept .flash rfl rfl here (by rw [here]; rfl) (by rw [here]; decide)
      · exact keeps_of_same rfl rfl (by rw [here]; rfl) (by rw [here]; decide)
  | rssi =>
      simp only [here] at done
      split at done
      · simp only [Option.bind_eq_bind, Option.bind_eq_some_iff] at done
        obtain ⟨request, _, same⟩ := done
        cases same
        by_cases now : before.due .rssiUpdate = true
        · exact keeps_of_kept .rssiUpdate (by simp [now, keep]) (by simp [now, keep]) here
            (by rw [here]; rfl) (by rw [here]; decide)
        · exact keeps_of_same (by simp [now]) (by simp [now]) (by rw [here]; rfl)
            (by rw [here]; decide)
      · cases done
        exact keeps_of_same rfl rfl (by rw [here]; rfl) (by rw [here]; decide)
  | sleep =>
      simp only [here, Option.some.injEq] at done
      subst done
      split
      · exact keeps_of_behind rfl rfl
          (not_comesTo_of_behind (show 8 < LoopPlace.wfi.rank by decide))
      · exact keeps_of_behind rfl rfl
          (not_comesTo_of_behind (show 8 < LoopPlace.close.rank by decide))
  | wfi =>
      simp only [here, Option.some.injEq] at done
      subst done
      exact keeps_of_behind rfl rfl
        (not_comesTo_of_behind (show 8 < LoopPlace.sleep.rank by decide))
  | close =>
      simp only [here, Option.some.injEq] at done
      subst done
      have head : ¬ LoopPlace.head.comesTo periodic := fun comes => Nat.lt_irrefl 0 comes.1
      split
      · exact keeps_of_behind rfl rfl head
      · exact keeps_of_behind rfl rfl head
  | left =>
      rw [here] at done
      cases done

/-- A part that is due keeps the reading of when it is done. -/
theorem timer_of_due (done : before.part surroundings moment = some after)
    (here : before.place = periodic.place) (due : before.due periodic = true) :
    after.timers periodic = reading moment.done := by
  unfold MainLoop.part at done
  cases periodic with
  | announce | scan | cleanup =>
      simp only [here, MainProgram.Periodic.place, due, if_true, Option.bind_eq_bind,
        Option.bind_eq_some_iff] at done
      obtain ⟨middle, _, same⟩ := done
      cases same
      rfl
  | flash =>
      simp only [here, MainProgram.Periodic.place, due, if_true, Option.some.injEq] at done
      subst done
      rfl
  | rssiUpdate =>
      simp only [here, MainProgram.Periodic.place, due, Bool.true_or, if_true,
        Option.bind_eq_bind, Option.bind_eq_some_iff] at done
      obtain ⟨request, _, same⟩ := done
      cases same
      rfl

/-- The reading that is kept for a kind of work is of a time that is not before another one,
and where the loop may still come to that work in this turn, the turn began after that. -/
def Spaced (since : Nat) (periodic : MainProgram.Periodic) (loop : MainLoop) : Prop :=
  ∃ kept, since ≤ kept ∧ kept ≤ loop.clock ∧ loop.timers periodic = reading kept ∧
    (loop.place.comesTo periodic →
      ∃ begun, kept ≤ begun ∧ begun ≤ loop.clock ∧ loop.loopStart = reading begun)

theorem spaced_of_step {since : Nat} {event : LoopEvent} (spaced : Spaced since periodic before)
    (step : LoopStep surroundings before event after) : Spaced since periodic after := by
  obtain ⟨kept, later, past, timer, turn⟩ := spaced
  cases event with
  | callback happens =>
      obtain ⟨next, called, same⟩ := Option.bind_eq_some_iff.mp step.2
      obtain ⟨loopStart, timers, clock⟩ := times_of_call called
      have place := (counters_of_call called).2
      cases same
      refine ⟨kept, later, clock ▸ past, (congrFun timers periodic).trans timer, ?_⟩
      dsimp only
      rw [place, loopStart, clock]
      exact turn
  | count =>
      cases step.2
      exact ⟨kept, later, past, timer, turn⟩
  | part place moment =>
      obtain ⟨next, worked, same⟩ := Option.bind_eq_some_iff.mp step.2
      obtain ⟨_, goesOn, ends, _⟩ := step.1
      have keeps := keeps_of_part worked periodic
      cases same
      rcases keeps.timer with old | ⟨here, new⟩
      · refine ⟨kept, later, by dsimp only; omega, old.trans timer, fun comes => ?_⟩
        rcases keeps.place comes with ⟨_, begins⟩ | ⟨stands, _⟩
        · exact ⟨moment.time, by omega, ends, begins⟩
        · obtain ⟨begun, after, before, read⟩ := turn stands
          rcases keeps.loopStart with same | ⟨head, _⟩
          · exact ⟨begun, after, by dsimp only; omega, same.trans read⟩
          · rw [head] at stands
            exact absurd stands.1 (Nat.lt_irrefl 0)
      · -- the turn has come past this kind of work
        refine ⟨moment.done, by omega, Nat.le_refl _, new, fun comes => ?_⟩
        rcases keeps.place comes with ⟨head, _⟩ | ⟨_, other⟩
        · rw [head] at here
          cases periodic <;> cases here
        · exact absurd here other

end MainLoop

variable {surroundings : Surroundings} {periodic : MainProgram.Periodic}

/-- No kind of periodic work is done again before its interval is over: from any state of the
loop, whatever callbacks come in between, and however often the clock wraps. -/
theorem work_apart {before middle again : MainLoop} {first second : Moment}
    {between : List LoopEvent}
    (works : LoopStep surroundings before (.part periodic.place first) middle)
    (due : before.due periodic = true)
    (run : Run (LoopStep surroundings) middle between again)
    (allowed : (LoopEvent.part periodic.place second).Allowed again)
    (dueAgain : again.due periodic = true) :
    first.done + periodic.interval.toNat < second.time := by
  have spaced : middle.Spaced first.done periodic := by
    obtain ⟨next, worked, same⟩ := Option.bind_eq_some_iff.mp works.2
    have timer := MainLoop.timer_of_due worked works.1.1.symm due
    have keeps := MainLoop.keeps_of_part worked periodic
    cases same
    refine ⟨first.done, Nat.le_refl _, Nat.le_refl _, timer, fun comes => ?_⟩
    rcases keeps.place comes with ⟨head, _⟩ | ⟨_, other⟩
    · have here := works.1.1
      rw [head] at here
      cases periodic <;> cases here
    · exact absurd works.1.1.symm other
  obtain ⟨kept, later, _, timer, turn⟩ := run.invariant MainLoop.spaced_of_step spaced
  obtain ⟨here, goesOn, _⟩ := allowed
  have comes : again.place.comesTo periodic := by
    rw [← here]
    refine ⟨?_, Nat.le_refl _⟩
    cases periodic <;> decide
  obtain ⟨begun, after, clock, read⟩ := turn comes
  rw [MainLoop.due, timer, read] at dueAgain
  have apart := lt_of_due after dueAgain
  omega

/-- From behind the announcing of one turn to that of the next, with a callback. -/
def untilAnnounce : List LoopEvent :=
  .count :: (turnAt 3000000 200).drop 3 ++ (turnAt 6000000 300).take 2

/-- The loop announces in two turns that are three seconds apart. -/
theorem announces_twice : ∃ before middle again,
    LoopStep bench before (.part .announce ⟨3000000, 3000000, 200, 0⟩) middle ∧
    Run (LoopStep bench) middle untilAnnounce again ∧
    again.place = .announce ∧ again.due .announce = true ∧ 3000000 + 2000000 < 6000000 := by
  have outcome : ((follow (MainLoop.next bench) ((turnAt 3000000 200).take 2)
      (.start (Program.new 100) 0 true (fun _ => 0) 0)).bind fun before =>
    (before.next bench (.part .announce ⟨3000000, 3000000, 200, 0⟩)).bind fun middle =>
    (follow (MainLoop.next bench) untilAnnounce middle).map fun again =>
      (before.due .announce, again.due .announce, again.place,
        decide (again.clock ≤ 6000000))) =
      some (true, true, .announce, true) := by decide
  obtain ⟨before, _, outcome⟩ := Option.bind_eq_some_iff.mp outcome
  obtain ⟨middle, works, outcome⟩ := Option.bind_eq_some_iff.mp outcome
  obtain ⟨again, followed, outcome⟩ := Option.map_eq_some_iff.mp outcome
  simp only [Prod.mk.injEq, decide_eq_true_eq] at outcome
  obtain ⟨due, dueAgain, here, clock⟩ := outcome
  have first := loopStep_of_next works
  have run := Run.of_follow loopStep_of_next followed
  have apart := @work_apart bench .announce before middle again ⟨3000000, 3000000, 200, 0⟩
    ⟨6000000, 6000000, 300, 0⟩ _ first due run ⟨here.symm, clock, Nat.le_refl _, nofun⟩ dueAgain
  exact ⟨before, middle, again, first, run, here, dueAgain, apart⟩

end BleRepeater
