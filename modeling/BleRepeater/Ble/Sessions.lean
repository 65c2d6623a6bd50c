import BleRepeater.Ble.Announcing
import BleRepeater.Ble.Neighbours

/-!
# Reused handles

A handle that is reported connected again belongs to another peer.  The tracker keeps what
it learned under a handle in the connection object, in the raw queues and in the sent list,
and a disconnection clears none of these.  This module says exactly when nothing of an old
session is left for a new one.
-/

namespace BleRepeater.Tracker

open Transition

/-! ## Reporting a connection -/

/-- The operation reports a connection of an address on a handle. -/
def Operation.Opens (handle : UInt16) (addr : Bytes) : Operation → Prop
  | .reportConnection _ opened address _ => opened = handle ∧ address = addr
  | .reportConnectionWithRole _ opened address _ _ => opened = handle ∧ address = addr
  | _ => False

/-- What both overloads of `reportConnection` do. -/
structure Opened (before after : Tracker) (handle : UInt16) (addr : Bytes) : Prop where
  object : ∃ connection,
    after.connectionAt (before.connectionsIndex handle).1 = some connection ∧
      connection.connectionHandle = handle ∧
      connection.packetCharacteristicValueHandle =
        (before.reportedObject handle addr).packetCharacteristicValueHandle ∧
      connection.btMtu = (before.reportedObject handle addr).btMtu
  rest : after.unlinked = { before.unlinked with
    availableNeighbours := before.availableNeighbours.erase addr }

variable {platform : Platform} {before after : Tracker} {operation : Operation}
  {handle : UInt16} {addr : Bytes}

/-- Nothing has been learned of the peer behind a connection object. -/
def Unlearned (connection : BleConnection) : Prop :=
  connection.packetCharacteristicValueHandle = 0 ∧ connection.btMtu = 0

/-- A neighbour was only scanned. -/
def NeighboursUnlearned (tracker : Tracker) : Prop :=
  ∀ address neighbour, tracker.availableNeighbours.find? address = some neighbour →
    Unlearned neighbour

theorem NeighboursScanned.unlearned (scanned : before.NeighboursScanned) :
    before.NeighboursUnlearned := by
  intro address neighbour found
  have only := scanned address neighbour found
  exact ⟨congrArg BleConnection.packetCharacteristicValueHandle only,
    congrArg BleConnection.btMtu only⟩

/-! ## What is left of an old session -/

/-- The search of the broadcast loop for a packet visits an entry and finds a handle. -/
def Stops (tracker : Tracker) (entry : Address × ConnectionRef) (packet : Address)
    (handle : UInt16) : Prop :=
  entry ∈ tracker.packetsConnectionsSentList.find packet ∧
    tracker.handleAt entry.2 = some handle

/-- A packet that is stopped is not sent to a connection of the handle. -/
theorem Stops.not_sendable {tracker : Tracker} {entry : Address × ConnectionRef}
    {packet : Address} {connection : ConnectionRef} (stops : tracker.Stops entry packet handle)
    (handled : tracker.handleAt connection = some handle) :
    tracker.sendable packet connection ≠ some true := by
  intro decided
  obtain ⟨other, there, visited⟩ := Option.bind_eq_some_iff.mp decided
  cases handled.symm.trans there
  exact visitHandles_true visited entry stops.1 stops.2

/-- A handle is reported disconnected, and is then reported connected with another
address. -/
structure Reconnection (platform : Platform) (handle : UInt16) (addr : Bytes)
    (before after : Tracker) : Prop where
  reached : ∃ address earlier old gone between,
    Run (Guarded (fun _ operation => operation.KeepsHandles) (OperationStep platform))
      (new address) earlier old ∧
    OperationStep platform old (.reportDisconnection handle) gone ∧
    Run (Guarded (fun _ operation => operation.KeepsHandles ∧
      ∀ other, ¬ operation.Opens handle other) (OperationStep platform))
      gone between before ∧
    (old.connectionAt (old.connectionsIndex handle).1).map BleConnection.btAddress ≠ some addr
  opened : ∃ operation : Operation, operation.Opens handle addr ∧
    OperationStep platform before operation after

/-- The object behind a pointer carries its handle as long as it is there, and when it is
gone nothing else comes to lie behind the pointer. -/
structure Carries (ref : ConnectionRef) (tracker : Tracker) : Prop where
  known : tracker.HandlesKnown
  created : ref.generation < tracker.nextGeneration
  handled : (tracker.connectionAt ref).isSome → tracker.handleAt ref = some ref.key

theorem Carries.step {ref : ConnectionRef} (carries : Carries ref before)
    (step : OperationStep platform before operation after) (keeps : operation.KeepsHandles) :
    Carries ref after := by
  by_cases cleanup : ∃ uptime, operation = .cleanupStaleItems uptime
  · obtain ⟨uptime, rfl⟩ := cleanup
    refine ⟨carries.known.keeps step keeps, ?_, ?_⟩
    · rw [nextGeneration_cleanupStaleItems step.2]
      exact carries.created
    · intro there
      obtain ⟨connection, found⟩ := Option.isSome_iff_exists.mp there
      have old := ((connectionAt_cleanupStaleItems step.2).mp found).1
      have handled := carries.handled (by simp [old])
      rwa [handleAt, old, ← found] at handled
  · have lasts : operation.Lasts := ⟨keeps, fun uptime same => cleanup ⟨uptime, same⟩⟩
    have connects := connects_of_step step lasts.noCleanup
    refine ⟨carries.known.keeps step keeps,
      Nat.lt_of_lt_of_le carries.created connects.generation, ?_⟩
    intro there
    obtain ⟨connection, found⟩ := Option.isSome_iff_exists.mp there
    cases old : before.connectionAt ref with
    | none =>
        have fresh := (connects.fresh ref connection found old).1
        exact absurd carries.created (Nat.not_lt.mpr fresh)
    | some object => exact handleAt_of_step step lasts (carries.handled (by simp [old]))

/-- What a reconnection starts from. -/
theorem Reconnection.start (reconnection : Reconnection platform handle addr before after) :
    before.HandlesKnown ∧ before.NeighboursUnlearned := by
  obtain ⟨address, earlier, old, gone, between, first, closed, second, _⟩ :=
    reconnection.reached
  have preserved : ∀ {start : Tracker} {operation finish},
      start.HandlesKnown ∧ start.NeighboursScanned → operation.KeepsHandles →
      OperationStep platform start operation finish →
      finish.HandlesKnown ∧ finish.NeighboursScanned :=
    fun both keeps step => ⟨both.1.keeps step keeps, both.2.step step⟩
  have initial : (new address).HandlesKnown ∧ (new address).NeighboursScanned :=
    ⟨handlesKnown_new address, neighboursScanned_new address⟩
  have oldBoth := first.invariant (fun both step => preserved both step.1 step.2) initial
  have closes : (Operation.reportDisconnection handle).KeepsHandles := trivial
  have goneBoth := preserved oldBoth closes closed
  obtain ⟨known, scanned⟩ :=
    second.invariant (fun both step => preserved both step.1.1 step.2) goneBoth
  exact ⟨known, scanned.unlearned⟩

theorem Opened.carries (opened : Opened before after handle addr)
    (known : after.HandlesKnown) : Carries (before.connectionsIndex handle).1 after := by
  obtain ⟨connection, there, handled, _⟩ := opened.object
  refine ⟨known, known.created _ (by simp [there]), fun _ => ?_⟩
  rw [handleAt, there, Option.map_some, handled, key_connectionsIndex]

end BleRepeater.Tracker
