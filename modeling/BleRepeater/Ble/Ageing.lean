import BleRepeater.Ble.Neighbours

/-!
# Ageing

Connections and neighbours are stamped with the uptime.  The clean-up compares the stamp
with the clock, which is the uptime and an offset that announces have set, so the offset
counts as age.
-/

namespace BleRepeater.Tracker

open Transition

/-! ## Stamps -/

/-- What ages: a connection object, or a neighbour. -/
inductive Subject where
  | connection (ref : ConnectionRef)
  | neighbour (address : Bytes)
  deriving DecidableEq

/-- The object of a subject. -/
def record (tracker : Tracker) : Subject → Option BleConnection
  | .connection ref => tracker.connectionAt ref
  | .neighbour address => tracker.availableNeighbours.find? address

/-- The operation stamps a subject with an uptime. -/
def Operation.Stamps (tracker : Tracker) (subject : Subject) (uptime : UInt64) :
    Operation → Prop
  | .addAvailablePeer stamp btAddress _ _ _ =>
      subject = .neighbour btAddress ∧ stamp = uptime
  | .reportConnection stamp handle _ _ =>
      subject = .connection (tracker.connectionsIndex handle).1 ∧ stamp = uptime
  | .reportConnectionWithRole stamp handle _ _ _ =>
      subject = .connection (tracker.connectionsIndex handle).1 ∧ stamp = uptime
  | _ => False

/-- A setter leaves the stamp alone, as all setters that the main program calls do. -/
def Operation.KeepsStamps : Operation → Prop
  | .updateConnection _ change => ∀ connection,
      (change connection).lastSeenTime = connection.lastSeenTime
  | _ => True

/-- The operation does not stamp the subject. -/
structure LeavesStamp (subject : Subject) (tracker : Tracker) (operation : Operation) :
    Prop where
  unstamped : ∀ uptime, ¬ operation.Stamps tracker subject uptime
  keeps : operation.KeepsStamps

/-- The subject was last stamped with an uptime: that is the stamp of its object, and no
other object will come to be behind its pointer. -/
structure Stamped (subject : Subject) (uptime : UInt64) (tracker : Tracker) : Prop where
  created : tracker.Created
  stamp : ∀ object, tracker.record subject = some object → object.lastSeenTime = uptime
  past : ∀ ref, subject = .connection ref → ref.generation < tracker.nextGeneration

variable {platform : Platform} {before after : Tracker} {operation : Operation}
  {subject : Subject} {uptime : UInt64}

theorem stamped_of_stamps (created : before.Created)
    (step : OperationStep platform before operation after)
    (stamps : operation.Stamps before subject uptime) : Stamped subject uptime after := by
  have next := created.step step
  have done := step.2
  have known : ∀ {ref object}, after.connectionAt ref = some object →
      ref.generation < after.nextGeneration := fun found => next _ (by simp [found])
  cases operation with
  | addAvailablePeer stamp btAddress btAddressType services rssi =>
      obtain ⟨rfl, rfl⟩ := stamps
      cases done
      refine ⟨next, ?_, by simp⟩
      intro object found
      simp only [record, addAvailablePeer, OrderedMap.find?_insert_self] at found
      cases found
      rfl
  | reportConnection stamp handle addr addressType =>
      obtain ⟨rfl, rfl⟩ := stamps
      cases done
      have there := connectionAt_reportConnection before stamp handle addr addressType
        (before.connectionsIndex handle).1
      rw [if_pos rfl] at there
      refine ⟨next, ?_, ?_⟩
      · intro object found
        cases found.symm.trans there
        rfl
      · intro ref same
        cases same
        exact known there
  | reportConnectionWithRole stamp handle addr addressType role =>
      obtain ⟨rfl, rfl⟩ := stamps
      cases done
      have there := connectionAt_reportConnectionWithRole before stamp handle addr
        addressType role (before.connectionsIndex handle).1
      rw [if_pos rfl] at there
      refine ⟨next, ?_, ?_⟩
      · intro object found
        cases found.symm.trans there
        rfl
      · intro ref same
        cases same
        exact known there
  | _ => exact stamps.elim

/-- An operation that does not stamp a connection leaves its stamp. -/
theorem stamp_of_connection {ref : ConnectionRef} {object : BleConnection}
    (stamped : Stamped (.connection ref) uptime before)
    (leaves : LeavesStamp (.connection ref) before operation)
    (step : OperationStep platform before operation after)
    (found : after.connectionAt ref = some object) : object.lastSeenTime = uptime := by
  have done := step.2
  by_cases cleanup : ∃ uptime, operation = .cleanupStaleItems uptime
  · obtain ⟨cleaned, rfl⟩ := cleanup
    exact stamped.stamp object ((connectionAt_cleanupStaleItems done).mp found).1
  · have connects := connects_of_step step fun uptime same => cleanup ⟨uptime, same⟩
    cases there : before.connectionAt ref with
    | none =>
        have fresh := (connects.fresh ref object found there).1
        exact absurd (stamped.past ref rfl) (Nat.not_lt.mpr fresh)
    | some old =>
        have stamp := stamped.stamp old there
        have index := connectionsIndex_of_connectionAt there
        by_cases touched : operation.Touches ref.key
        · cases operation with
          | reportConnection now handle addr addressType =>
              cases touched
              exact absurd ⟨congrArg _ index.symm, rfl⟩ (leaves.unstamped now)
          | reportConnectionWithRole now handle addr addressType role =>
              cases touched
              exact absurd ⟨congrArg _ index.symm, rfl⟩ (leaves.unstamped now)
          | reportDisconnection handle =>
              cases done
              rw [connectionAt_reportDisconnection, there] at found
              split at found <;> cases found <;> exact stamp
          | updateConnection changed change =>
              cases done
              rw [connectionAt_updateConnection, there] at found
              split at found <;> cases found
              · exact (leaves.keeps old).trans stamp
              · exact stamp
          | _ => exact touched.elim
        · obtain ⟨other, still, alike⟩ := connects.kept ref old there
          cases found.symm.trans still
          exact (congrArg BleConnection.lastSeenTime (alike touched)).symm.trans stamp

/-- An operation that does not stamp a neighbour leaves its stamp. -/
theorem stamp_of_neighbour {address : Bytes} {object : BleConnection}
    (stamped : Stamped (.neighbour address) uptime before)
    (leaves : LeavesStamp (.neighbour address) before operation)
    (step : OperationStep platform before operation after)
    (found : after.availableNeighbours.find? address = some object) :
    object.lastSeenTime = uptime := by
  have done := step.2
  cases operation with
  | addAvailablePeer now btAddress btAddressType services rssi =>
      cases done
      simp only [addAvailablePeer, OrderedMap.find?_insert] at found
      split at found
      · rename_i same
        exact absurd ⟨congrArg _ same, rfl⟩ (leaves.unstamped now)
      · exact stamped.stamp object found
  | reportConnection now handle addr addressType =>
      cases done
      rw [neighbours_reportConnection, OrderedMap.erase, OrderedMap.find?_eraseIf] at found
      exact stamped.stamp object found.1
  | reportConnectionWithRole now handle addr addressType role =>
      cases done
      rw [neighbours_reportConnectionWithRole, OrderedMap.erase,
        OrderedMap.find?_eraseIf] at found
      exact stamped.stamp object found.1
  | cleanupStaleItems now =>
      rw [neighbours_cleanupStaleItems done, OrderedMap.find?_eraseIf] at found
      exact stamped.stamp object found.1
  | _ =>
      rw [neighbours_of_step step not_false] at found
      exact stamped.stamp object found

theorem nextGeneration_le (step : OperationStep platform before operation after) :
    before.nextGeneration ≤ after.nextGeneration := by
  by_cases cleanup : ∃ uptime, operation = .cleanupStaleItems uptime
  · obtain ⟨cleaned, rfl⟩ := cleanup
    exact (nextGeneration_cleanupStaleItems step.2).ge
  · exact (connects_of_step step fun uptime same => cleanup ⟨uptime, same⟩).generation

/-- The stamp stays until the subject is stamped again. -/
theorem Stamped.step (stamped : Stamped subject uptime before)
    (leaves : LeavesStamp subject before operation)
    (step : OperationStep platform before operation after) : Stamped subject uptime after := by
  refine ⟨stamped.created.step step, ?_, fun ref same =>
    Nat.lt_of_lt_of_le (stamped.past ref same) (nextGeneration_le step)⟩
  intro object found
  cases subject with
  | connection ref => exact stamp_of_connection stamped leaves step found
  | neighbour address => exact stamp_of_neighbour stamped leaves step found

/-! ## Cleaning up -/

/-- A clean-up keeps what is not stale. -/
theorem record_cleanupStaleItems {now : UInt64} {object : BleConnection}
    (done : before.cleanupStaleItems now = some after) :
    after.record subject = some object ↔ before.record subject = some object ∧
      connectionStale (before.timeMs now) object = false := by
  cases subject with
  | connection ref => exact connectionAt_cleanupStaleItems done
  | neighbour address =>
      rw [record, record, neighbours_cleanupStaleItems done, OrderedMap.find?_eraseIf]

/-- An object stamped at one uptime is kept by a clean-up at another when ten minutes have not
passed, and removed when ten minutes and a millisecond have. -/
structure AgesByElapsed (stamp uptime : UInt64) (before after : Option BleConnection) :
    Prop where
  kept : uptime.toNat ≤ stamp.toNat + 600000000 → after = before
  removed : stamp.toNat + 600001000 < uptime.toNat → after = none

/-- The offset of the clock does not bring a young object over the limit, and does not set
the clock so far back that it keeps an old one below it. -/
structure OffsetHarmless (offset stamp uptime : UInt64) : Prop where
  young : uptime.toNat ≤ stamp.toNat + 600000000 →
    offset.toNat + uptime.toNat / 1000 ≤ stamp.toNat / 1000 + 600000 ∨
      2 ^ 64 ≤ offset.toNat + uptime.toNat / 1000
  old : stamp.toNat + 600001000 < uptime.toNat →
    offset.toNat + uptime.toNat / 1000 < 2 ^ 64 ∨
      2 ^ 64 + stamp.toNat / 1000 + 600000 < offset.toNat + uptime.toNat / 1000

theorem timeMs_toNat (tracker : Tracker) (uptime : UInt64) :
    (tracker.timeMs uptime).toNat =
      (tracker.timestampOffsetMs.toNat + uptime.toNat / 1000) % 2 ^ 64 := by
  rw [timeMs, UInt64.toNat_add, UInt64.toNat_div]
  rfl

/-- What a clean-up does to an object that is not connected. -/
theorem agesByElapsed_iff {now : UInt64} {object : BleConnection}
    (there : before.record subject = some object) (idle : object.connected = false)
    (done : before.cleanupStaleItems now = some after) :
    AgesByElapsed object.lastSeenTime now (before.record subject) (after.record subject) ↔
      OffsetHarmless before.timestampOffsetMs object.lastSeenTime now := by
  have offset := before.timestampOffsetMs.toNat_lt
  have uptime := now.toNat_lt
  have stamped := object.lastSeenTime.toNat_lt
  have clock := timeMs_toNat before now
  have kept : after.record subject = some object ↔
      (before.timeMs now).toNat ≤ object.lastSeenTime.toNat / 1000 + 600000 := by
    rw [record_cleanupStaleItems done, ← stale_eq_false_iff, connectionStale, idle]
    simp [there, BleConnection.timestampMs]
  have removed : after.record subject = none ↔ ¬ after.record subject = some object := by
    cases left : after.record subject with
    | none => simp
    | some other =>
        cases ((record_cleanupStaleItems done).mp left).1.symm.trans there
        simp
  have wrapped := Nat.mod_lt
    (before.timestampOffsetMs.toNat + now.toNat / 1000) (show 2 ^ 64 > 0 by decide)
  constructor
  · intro ages
    refine ⟨fun young => ?_, fun old => ?_⟩
    · have below := kept.mp ((ages.kept young).trans there)
      omega
    · have above := mt kept.mpr (removed.mp (ages.removed old))
      omega
  · intro harmless
    refine ⟨fun young => ?_, fun old => ?_⟩
    · have below := harmless.young young
      exact (kept.mpr (by omega)).trans there.symm
    · have above := harmless.old old
      exact removed.mpr (mt kept.mp (by omega))

/-- After every run in which a connection or a neighbour was last stamped at one uptime, a
clean-up ages it by the time that has passed exactly when the offset of the clock is harmless
for the two uptimes. -/
theorem ages_iff {own : Address} {operations others : List Operation}
    {middle last cleaned : Tracker} {now : UInt64} {object : BleConnection}
    (run : Run (OperationStep platform) (new own) operations before)
    (step : OperationStep platform before operation middle)
    (stamps : operation.Stamps before subject uptime)
    (since : Run (Guarded (LeavesStamp subject) (OperationStep platform)) middle others last)
    (there : last.record subject = some object)
    (idle : ∀ ref, subject = .connection ref → object.connected = false)
    (cleanup : OperationStep platform last (.cleanupStaleItems now) cleaned) :
    AgesByElapsed uptime now (last.record subject) (cleaned.record subject) ↔
      OffsetHarmless last.timestampOffsetMs uptime now := by
  have created := run.invariant (fun created step => Created.step created step)
    (created_new own)
  have scanned := run.invariant (fun scanned step => NeighboursScanned.step scanned step)
    (neighboursScanned_new own)
  have stamped := since.invariant (fun stamped step => Stamped.step stamped step.1 step.2)
    (stamped_of_stamps created step stamps)
  have stillScanned := since.invariant
    (fun scanned step => NeighboursScanned.step scanned step.2) (scanned.step step)
  have disconnected : object.connected = false := by
    cases subject with
    | connection ref => exact idle ref rfl
    | neighbour address =>
        exact congrArg BleConnection.connected (stillScanned address object there)
  have ages := agesByElapsed_iff there disconnected cleanup.2
  rwa [stamped.stamp object there] at ages

/-- A neighbour that is scanned one second after the start. -/
def scannedNeighbour : Operation :=
  .addAvailablePeer 1000000 [1, 2, 3, 4, 5, 6] 1 .found 0

/-- A second later it is kept. -/
theorem ages_iff_second :
    ∃ scanned cleaned, OperationStep bytesSummed (new 100) scannedNeighbour scanned ∧
      OperationStep bytesSummed scanned (.cleanupStaleItems 2000000) cleaned ∧
      AgesByElapsed 1000000 2000000 (scanned.record (.neighbour [1, 2, 3, 4, 5, 6]))
        (cleaned.record (.neighbour [1, 2, 3, 4, 5, 6])) := by
  have outcome : ((scannedNeighbour.next bytesSummed (new 100)).bind fun scanned =>
      ((Operation.cleanupStaleItems 2000000).next bytesSummed scanned).map fun _ =>
        ((scanned.record (.neighbour [1, 2, 3, 4, 5, 6])).isSome,
          scanned.timestampOffsetMs)) = some (true, 0) := by decide
  obtain ⟨scanned, first, rest⟩ := Option.bind_eq_some_iff.mp outcome
  obtain ⟨cleaned, second, shows⟩ := Option.map_eq_some_iff.mp rest
  obtain ⟨present, offset⟩ := Prod.mk.inj shows
  obtain ⟨object, there⟩ := Option.isSome_iff_exists.mp present
  have scan := step_of_next first
  have cleanup := step_of_next second
  have ages := ages_iff (.nil (new 100)) scan ⟨rfl, rfl⟩ (.nil scanned) there (by simp) cleanup
  rw [offset] at ages
  exact ⟨scanned, cleaned, scan, cleanup, ages.mpr ⟨by decide, by decide⟩⟩

/-- Once an announce has set the clock, a neighbour is removed as soon as it is scanned. -/
theorem offset_ages :
    ¬ ∀ (own : Address) (operations others : List Operation)
      (before middle last cleaned : Tracker) (operation : Operation) (subject : Subject)
      (uptime now : UInt64) (object : BleConnection),
      Run (OperationStep bytesSummed) (new own) operations before →
      OperationStep bytesSummed before operation middle →
      operation.Stamps before subject uptime →
      Run (Guarded (LeavesStamp subject) (OperationStep bytesSummed)) middle others last →
      last.record subject = some object →
      (∀ ref, subject = .connection ref → object.connected = false) →
      OperationStep bytesSummed last (.cleanupStaleItems now) cleaned →
      AgesByElapsed uptime now (last.record subject) (cleaned.record subject) := by
  intro always
  have outcome : (((Operation.possiblyUpdateTimeOffset 1000000 1755685519000).next bytesSummed
      (new 100)).bind fun before => (scannedNeighbour.next bytesSummed before).bind
        fun scanned => ((Operation.cleanupStaleItems 1000000).next bytesSummed scanned).map
          fun cleaned => ((scanned.record (.neighbour [1, 2, 3, 4, 5, 6])).isSome,
            (cleaned.record (.neighbour [1, 2, 3, 4, 5, 6])).isSome)) =
      some (true, false) := by decide
  obtain ⟨before, first, rest⟩ := Option.bind_eq_some_iff.mp outcome
  obtain ⟨scanned, second, rest⟩ := Option.bind_eq_some_iff.mp rest
  obtain ⟨cleaned, third, shows⟩ := Option.map_eq_some_iff.mp rest
  obtain ⟨present, gone⟩ := Prod.mk.inj shows
  obtain ⟨object, there⟩ := Option.isSome_iff_exists.mp present
  have ages := always 100 _ [] before scanned scanned cleaned scannedNeighbour _ 1000000 1000000
    object (.cons (step_of_next first) (.nil before)) (step_of_next second) ⟨rfl, rfl⟩
    (.nil scanned) there (by simp) (step_of_next third)
  rw [ages.kept (by decide), there] at gone
  cases gone

end BleRepeater.Tracker
