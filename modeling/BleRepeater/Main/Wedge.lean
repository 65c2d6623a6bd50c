import BleRepeater.Main.ConnectGate

/-!
# Wedged gates

The flag for a query is set before BTstack has accepted the query, and only the end of a query
clears it.  So when BTstack refuses a query and nothing else is outstanding, the gate stays
closed: the program connects to no neighbour any more, until some other device has connected to
it and can be asked.
-/

namespace BleRepeater

open Transition Tracker Repeater

/-- The gate is closed, and nothing is outstanding that would open it. -/
structure Wedged (program : MainProgram) : Prop where
  closed : program.flagsClear = false
  idle : program.outstanding.Idle

/-- A query is refused, and nothing else is outstanding. -/
def Refuses (program : MainProgram) : MainEvent → Prop
  | .gapLeConnectionComplete _ _ _ _ _ own err => err ≠ 0 ∧
      program.outstanding.connects = (if own then 1 else 0) ∧
      program.outstanding.primaryServices = [] ∧ program.outstanding.characteristics = []
  | .gattQueryComplete conHandle query err => err ≠ 0 ∧ DiscoversNext program conHandle ∧
      program.outstanding.connects = 0 ∧
      (program.outstanding.complete conHandle query).primaryServices = [] ∧
      (program.outstanding.complete conHandle query).characteristics = []
  | _ => False

/-- A connection is completed, and the query for its services accepted. -/
def Accepts (_program : MainProgram) : MainEvent → Prop
  | .gapLeConnectionComplete _ _ _ _ _ _ err => err = 0
  | _ => False

/-- While the flag for a connect is set, one is outstanding. -/
def Pending (program : MainProgram) : Prop :=
  program.connectionInProgress = true → program.outstanding.connects > 0

variable {platform : Platform} {before after : MainProgram} {event : MainEvent}

theorem mainLoopGate_of_closed (closed : before.flagsClear = false) (loopStart : UInt32)
    (err : UInt8) : before.mainLoopGate loopStart err = before := by
  rw [MainProgram.mainLoopGate, closed]
  simp

/-- The loop changes nothing, or a connect is outstanding. -/
theorem mainLoopGate_cases (before : MainProgram) (loopStart : UInt32) (err : UInt8) :
    before.mainLoopGate loopStart err = before ∨
      (before.mainLoopGate loopStart err).outstanding.connects > 0 := by
  unfold MainProgram.mainLoopGate MainProgram.connectToFirstNeighbour
  split
  · split
    · exact Or.inl rfl
    · split
      · exact Or.inl rfl
      · split
        · exact Or.inr (Nat.succ_pos _)
        · exact Or.inl rfl
  · exact Or.inl rfl

theorem pending_of_step (pending : Pending before) (step : MainStep platform before event after) :
    Pending after := by
  obtain ⟨_, done⟩ := step
  cases event with
  | mainLoopGate loopStart err =>
      cases done
      rcases mainLoopGate_cases before loopStart err with same | started
      · rwa [same]
      · exact fun _ => started
  | gapLeConnectionComplete =>
      cases done
      exact fun set => absurd set Bool.false_ne_true
  | gattQueryComplete conHandle query err =>
      obtain ⟨flag, _, _, connects, _⟩ := gattQueryComplete_eq done
      rw [Pending, flag, connects]
      exact pending
  | startScanningForLocalNodes | stopScanHandler =>
      cases done
      exact pending
  | other event =>
      obtain ⟨repeater, _, same⟩ := Option.bind_eq_some_iff.mp done
      cases same
      exact pending

theorem wedged_gapLeConnectionComplete_iff {uptime : UInt64} {conHandle : UInt16}
    {address : Bytes} {addressType role : UInt8} {own : Bool} {err : UInt8}
    (allowed : own = true → before.outstanding.connects > 0) :
    Wedged (before.gapLeConnectionComplete uptime conHandle address addressType role own err) ↔
      Refuses before (.gapLeConnectionComplete uptime conHandle address addressType role own
        err) := by
  have none_left : (if own then before.outstanding.connects - 1
      else before.outstanding.connects) = 0 ↔
      before.outstanding.connects = (if own then 1 else 0) := by
    cases own with
    | true =>
        have some := allowed rfl
        simp only [if_true]
        omega
    | false => simp
  have none_asked : (if err = 0 then conHandle :: before.outstanding.primaryServices
      else before.outstanding.primaryServices) = [] ↔
      err ≠ 0 ∧ before.outstanding.primaryServices = [] := by
    split <;> simp [*]
  constructor
  · rintro ⟨_, connects, primary, characteristics⟩
    obtain ⟨refused, primary⟩ := none_asked.mp primary
    exact ⟨refused, none_left.mp connects, primary, characteristics⟩
  · rintro ⟨refused, connects, primary, characteristics⟩
    refine ⟨?_, none_left.mpr connects, none_asked.mpr ⟨refused, primary⟩, characteristics⟩
    simp [MainProgram.gapLeConnectionComplete, MainProgram.flagsClear]

theorem wedged_gattQueryComplete_iff (pending : Pending before) {conHandle : UInt16}
    {query : Discovery} {err : UInt8}
    (done : before.gattQueryComplete conHandle query err = some after) :
    Wedged after ↔ Refuses before (.gattQueryComplete conHandle query err) := by
  obtain ⟨flag, primaryFlag, characteristicsFlag, connects, primary, characteristics⟩ :=
    gattQueryComplete_eq done
  constructor
  · rintro ⟨closed, noConnect, noPrimary, noCharacteristics⟩
    rw [connects] at noConnect
    have quiet : before.connectionInProgress = false := by
      rw [← Bool.not_eq_true]
      intro set
      have := pending set
      omega
    -- the flag that is still set is that of the next query
    have discovers : DiscoversNext before conHandle := by
      rw [← characteristicsFlag]
      simpa [MainProgram.flagsClear, flag, quiet, primaryFlag] using closed
    have left := mt characteristics.mpr (not_not.mpr noCharacteristics)
    rw [not_or, not_not] at left
    exact ⟨fun accepted => left.2 ⟨discovers, accepted⟩, discovers, noConnect,
      primary.symm.trans noPrimary, left.1⟩
  · rintro ⟨refused, discovers, noConnect, noPrimary, noCharacteristics⟩
    refine ⟨?_, connects.trans noConnect, primary.trans noPrimary, ?_⟩
    · simp [MainProgram.flagsClear, characteristicsFlag.mpr discovers]
    · by_contra asked
      rcases characteristics.mp asked with left | ⟨_, accepted⟩
      · exact left noCharacteristics
      · exact refused accepted

/-- What closes a gate for good, and what may open it again. -/
theorem wedged_of_step_iff (pending : Pending before)
    (step : MainStep platform before event after) :
    Wedged after ↔ Refuses before event ∨ Wedged before ∧ ¬ Accepts before event := by
  obtain ⟨allowed, done⟩ := step
  cases event with
  | mainLoopGate loopStart err =>
      cases done
      simp only [Refuses, Accepts, false_or, not_false_eq_true, and_true]
      constructor
      · intro wedged
        rcases mainLoopGate_cases before loopStart err with same | started
        · exact same ▸ wedged
        · have := wedged.idle.1
          omega
      · intro wedged
        rwa [mainLoopGate_of_closed wedged.closed]
  | gapLeConnectionComplete uptime conHandle address addressType role own err =>
      cases done
      rw [wedged_gapLeConnectionComplete_iff allowed]
      constructor
      · exact Or.inl
      · rintro (refuses | ⟨⟨_, connects, primary, characteristics⟩, refused⟩)
        · exact refuses
        · have others : own = false := by
            rw [← Bool.not_eq_true]
            intro ours
            have := allowed ours
            omega
          subst others
          exact ⟨refused, connects, primary, characteristics⟩
  | gattQueryComplete conHandle query err =>
      rw [wedged_gattQueryComplete_iff pending done]
      constructor
      · exact Or.inl
      · rintro (refuses | ⟨⟨_, _, primary, characteristics⟩, _⟩)
        · exact refuses
        · -- the query that is complete was outstanding
          have outstanding : conHandle ∈ before.outstanding.queries query := allowed
          cases query with
          | primaryServices =>
              rw [Outstanding.queries, primary] at outstanding
              cases outstanding
          | characteristics =>
              rw [Outstanding.queries, characteristics] at outstanding
              cases outstanding
  | startScanningForLocalNodes | stopScanHandler =>
      cases done
      simp only [Refuses, Accepts, false_or, not_false_eq_true, and_true]
      exact ⟨fun wedged => ⟨wedged.closed, wedged.idle⟩,
        fun wedged => ⟨wedged.closed, wedged.idle⟩⟩
  | other event =>
      obtain ⟨repeater, _, same⟩ := Option.bind_eq_some_iff.mp done
      cases same
      simp only [Refuses, Accepts, false_or, not_false_eq_true, and_true]
      exact ⟨fun wedged => ⟨wedged.closed, wedged.idle⟩,
        fun wedged => ⟨wedged.closed, wedged.idle⟩⟩

/-- In every run, the gate is closed with nothing outstanding exactly if BTstack has refused a
query while nothing else was outstanding, and has accepted none for the services of a completed
connection since; and as long as that is so the loop connects to nothing. -/
theorem wedged_iff_of_run {address : Address} {events : List MainEvent} {finish : MainProgram}
    (run : Run (MainStep platform) (MainProgram.new address) events finish) :
    (Wedged finish ↔ BroughtSince (MainStep platform) Refuses Accepts (MainProgram.new address)
      events finish) ∧
    (Wedged finish → ∀ loopStart err, finish.mainLoopGate loopStart err = finish) := by
  have fresh : ¬ Wedged (MainProgram.new address) := fun wedged => by
    have := wedged.closed
    cases this
  refine ⟨?_, fun wedged => mainLoopGate_of_closed wedged.closed⟩
  rw [run.has_iff_of_invariant pending_of_step wedged_of_step_iff
    (show Pending (MainProgram.new address) from nofun)]
  exact or_iff_right fun old => fresh old.1

/-- The connection to the only neighbour is completed, the query for its services is refused,
and another neighbour is found. -/
def refusedAndFound : List MainEvent :=
  connecting ++
    [.gapLeConnectionComplete 0 0x40 [1, 2, 3, 4, 5, 6] 0 hciRoleMaster true 0x16,
      .other (.tracker (.addAvailablePeer 0 [7, 7, 7, 7, 7, 7] 0 .andNameFound 0)),
      .mainLoopGate 9000000 0]

/-- The loop does not connect to the other neighbour. -/
theorem wedged_refused : ∃ finish,
    Run (MainStep bytesSummed) (MainProgram.new 100) refusedAndFound finish ∧
    BroughtSince (MainStep bytesSummed) Refuses Accepts (MainProgram.new 100) refusedAndFound
      finish ∧
    finish.repeater.tracker.getConnectableNeighbours.length = 1 ∧
    ∀ loopStart err, finish.mainLoopGate loopStart err = finish := by
  have outcome : (follow (MainEvent.next bytesSummed) refusedAndFound (MainProgram.new 100)).map
      (fun program => ((program.flagsClear, program.outstanding.connects),
        (program.outstanding.primaryServices, program.outstanding.characteristics),
        program.repeater.tracker.getConnectableNeighbours.length)) =
        some ((false, 0), ([], []), 1) := by decide
  obtain ⟨finish, done, same⟩ := Option.map_eq_some_iff.mp outcome
  simp only [Prod.mk.injEq] at same
  obtain ⟨⟨closed, connects⟩, ⟨primary, characteristics⟩, found⟩ := same
  have run := Run.of_follow mainStep_of_next done
  obtain ⟨wedged_iff, stays⟩ := wedged_iff_of_run run
  have wedged : Wedged finish := ⟨closed, connects, primary, characteristics⟩
  exact ⟨finish, run, wedged_iff.mp wedged, found, stays wedged⟩

end BleRepeater
