import BleRepeater.Main.ConnectGate

/-!
# The first neighbour

`connect_to_first_neighbour` looks at the connectable neighbour with the least address, and
at no other.  A device that goes on advertising while it is connected is stored as a
neighbour again, and as long as its record comes first, the main loop connects to nobody.
-/

namespace BleRepeater

open Transition

namespace Tracker

/-- The entries behind `getConnectableNeighbours`, in address order. -/
def connectableEntries (tracker : Tracker) : List (Bytes × BleConnection) :=
  tracker.availableNeighbours.entries.filter fun entry =>
    (decide (tracker.timestampOffsetMs ≥ buildTimeMs) || entry.2.isRepeater) &&
      !entry.2.connected && !entry.2.isRandom

/-- The address of a neighbour belongs to no connected connection. -/
def Free (tracker : Tracker) (neighbour : BleConnection) : Prop :=
  ∀ entry ∈ tracker.connections.entries, entry.2.connection.connected = true →
    entry.2.connection.btAddress ≠ neighbour.btAddress

instance decidableFree (tracker : Tracker) (neighbour : BleConnection) :
    Decidable (tracker.Free neighbour) :=
  inferInstanceAs (Decidable (∀ entry ∈ tracker.connections.entries, _ → _))

/-- Some connectable neighbour that is free comes before all that are not. -/
def FreeFirst (tracker : Tracker) : Prop :=
  ∃ entry ∈ tracker.connectableEntries, tracker.Free entry.2 ∧
    ∀ other ∈ tracker.connectableEntries, ¬ tracker.Free other.2 → entry.1 < other.1

/-- The neighbour that `connect_to_first_neighbour` calls `gap_connect` for. -/
def gapConnectTarget (tracker : Tracker) : Option BleConnection :=
  match tracker.getConnectableNeighbours with
  | [] => none
  | neighbour :: _ =>
      if (tracker.getConnectionForAddress neighbour.btAddress).isSome then none
      else some neighbour

variable {tracker : Tracker}

theorem getConnectableNeighbours_eq (tracker : Tracker) :
    tracker.getConnectableNeighbours = tracker.connectableEntries.map Prod.snd := by
  rw [getConnectableNeighbours, connectableEntries, List.filter_map]
  rfl

theorem connectableEntries_sorted (tracker : Tracker) :
    tracker.connectableEntries.Pairwise fun left right => left.1 < right.1 :=
  tracker.availableNeighbours.sorted.filter _

theorem getConnectionForAddress_isSome_iff {neighbour : BleConnection} :
    (tracker.getConnectionForAddress neighbour.btAddress).isSome ↔
      ¬ tracker.Free neighbour := by
  simp [getConnectionForAddress, Free]

/-- Only the first entry decides. -/
theorem gapConnectTarget_cons {first : Bytes × BleConnection}
    {others : List (Bytes × BleConnection)}
    (entries : tracker.connectableEntries = first :: others) :
    tracker.gapConnectTarget = if tracker.Free first.2 then some first.2 else none := by
  rw [gapConnectTarget, getConnectableNeighbours_eq, entries, List.map_cons]
  simp only [getConnectionForAddress_isSome_iff]
  by_cases free : tracker.Free first.2
  · rw [if_pos free, if_neg (not_not.mpr free)]
  · rw [if_neg free, if_pos free]

theorem freeFirst_cons {first : Bytes × BleConnection}
    {others : List (Bytes × BleConnection)}
    (entries : tracker.connectableEntries = first :: others) :
    tracker.FreeFirst ↔ tracker.Free first.2 := by
  have sorted := tracker.connectableEntries_sorted
  rw [entries, List.pairwise_cons] at sorted
  rw [FreeFirst, entries]
  constructor
  · rintro ⟨entry, member, free, earlier⟩
    by_contra blocked
    have ahead := earlier first (by simp) blocked
    rcases List.mem_cons.mp member with rfl | later
    · exact blocked free
    · exact lt_asymm ahead (sorted.1 entry later)
  · intro free
    refine ⟨first, by simp, free, ?_⟩
    intro other member blocked
    rcases List.mem_cons.mp member with rfl | later
    · exact absurd free blocked
    · exact sorted.1 other later

end Tracker

namespace MainProgram

open Tracker

/-- What `connect_to_first_neighbour` does follows from the neighbour that it calls
`gap_connect` for. -/
theorem connectToFirstNeighbour_eq (program : MainProgram) (err : UInt8) :
    program.connectToFirstNeighbour err =
      match program.repeater.tracker.gapConnectTarget with
      | none => (program, false)
      | some neighbour =>
          if err = 0 then
            ({ program with
              repeater := { program.repeater with
                tracker := program.repeater.tracker.setConnectionStarted neighbour }
              connectionInProgress := true
              outstanding := { program.outstanding with
                connects := program.outstanding.connects + 1 } }, true)
          else (program, false) := by
  rw [connectToFirstNeighbour, gapConnectTarget]
  cases program.repeater.tracker.getConnectableNeighbours with
  | nil => rfl
  | cons neighbour others =>
      dsimp only
      by_cases connected :
          (program.repeater.tracker.getConnectionForAddress neighbour.btAddress).isSome
      · rw [if_pos connected, if_pos connected]
      · rw [if_neg connected, if_neg connected]

/-- While there is no such neighbour, no turn of the main loop connects to anybody. -/
theorem mainLoopGate_blocked {program : MainProgram} (loopStart : UInt32) (err : UInt8)
    (blocked : program.repeater.tracker.gapConnectTarget = none) :
    program.mainLoopGate loopStart err = program := by
  rw [mainLoopGate, connectToFirstNeighbour_eq, blocked]
  exact ite_self program

/-- When some connectable neighbour is free, `gap_connect` is called for one that is exactly
when a free one comes before all that are not. -/
theorem gapConnect_free_iff (tracker : Tracker)
    (available : ∃ neighbour ∈ tracker.getConnectableNeighbours, tracker.Free neighbour) :
    (∃ neighbour ∈ tracker.getConnectableNeighbours, tracker.Free neighbour ∧
      tracker.gapConnectTarget = some neighbour) ↔ tracker.FreeFirst := by
  obtain ⟨neighbour, member, _⟩ := available
  rw [getConnectableNeighbours_eq] at member ⊢
  cases entries : tracker.connectableEntries with
  | nil => simp [entries] at member
  | cons first others =>
      rw [gapConnectTarget_cons entries, freeFirst_cons entries]
      constructor
      · rintro ⟨chosen, _, free, target⟩
        by_contra blocked
        rw [if_neg blocked] at target
        cases target
      · intro free
        exact ⟨first.2, by simp, free, if_pos free⟩

/-- Two repeaters advertise, and neither is connected. -/
def advertised : List Operation :=
  [.addAvailablePeer 0 [9, 9, 9, 9, 9, 9] 0 .andNameFound 0,
    .addAvailablePeer 0 [1, 2, 3, 4, 5, 6] 0 .andNameFound 0]

/-- The first of two free neighbours is connected to. -/
theorem gapConnect_free_iff_advertised :
    ∃ tracker, Run (OperationStep bytesSummed) (Tracker.new 100) advertised tracker ∧
      ∃ neighbour ∈ tracker.getConnectableNeighbours, tracker.Free neighbour ∧
        tracker.gapConnectTarget = some neighbour := by
  have outcome : ((follow (Operation.next bytesSummed) advertised (Tracker.new 100)).map
      fun tracker => (tracker.connectableEntries.map Prod.fst, tracker.connections.entries)) =
        some ([[1, 2, 3, 4, 5, 6], [9, 9, 9, 9, 9, 9]], []) := by decide
  obtain ⟨tracker, done, same⟩ := Option.map_eq_some_iff.mp outcome
  obtain ⟨addresses, unconnected⟩ := Prod.mk.inj same
  obtain ⟨first, others, entries, _⟩ := List.map_eq_cons_iff.mp addresses
  have free : tracker.Free first.2 := by simp [Free, unconnected]
  refine ⟨tracker, Run.of_follow step_of_next done, (gapConnect_free_iff tracker
    ⟨first.2, ?_, free⟩).mpr ((freeFirst_cons entries).mpr free)⟩
  rw [getConnectableNeighbours_eq, entries]
  simp

/-- The repeater with the lower address is connected, and advertises again. -/
def advertisedAgain : List Operation :=
  [.reportConnection 0 0x40 [1, 2, 3, 4, 5, 6] 0,
    .addAvailablePeer 0 [9, 9, 9, 9, 9, 9] 0 .andNameFound 0,
    .addAvailablePeer 0 [1, 2, 3, 4, 5, 6] 0 .andNameFound 0]

/-- A connected neighbour blocks the one behind it. -/
theorem connected_blocks :
    ∃ tracker, Run (OperationStep bytesSummed) (Tracker.new 100) advertisedAgain tracker ∧
      (∃ neighbour ∈ tracker.getConnectableNeighbours, tracker.Free neighbour) ∧
      tracker.gapConnectTarget = none := by
  have outcome : ((follow (Operation.next bytesSummed) advertisedAgain
      (Tracker.new 100)).map fun tracker =>
        (tracker.getConnectableNeighbours.any fun neighbour => decide (tracker.Free neighbour),
          tracker.gapConnectTarget)) = some (true, none) := by decide
  obtain ⟨tracker, done, same⟩ := Option.map_eq_some_iff.mp outcome
  obtain ⟨some, blocked⟩ := Prod.mk.inj same
  refine ⟨tracker, Run.of_follow step_of_next done, ?_, blocked⟩
  simpa using some

end MainProgram

end BleRepeater
