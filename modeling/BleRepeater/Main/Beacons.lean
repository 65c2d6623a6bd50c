import BleRepeater.Main.Program

/-!
# Beacons

The program starts to advertise when BTstack is up, and the array that it fills then has room
for that once.  A repeater that hears another one advertise takes it for a repeater.
-/

namespace BleRepeater

open Transition Tracker Repeater

/-- The event of BTstack at which the program starts to advertise. -/
def ProgramEvent.startsUp : ProgramEvent → Bool
  | .hciPacketHandler packetType _ (.btstackEventState working) =>
      packetType == hciEventPacket && working
  | _ => false

/-- The advertising data is touched at no other event. -/
theorem advData_of_step {surroundings : Surroundings} {before after : Program}
    {event : ProgramEvent} (step : ProgramStep surroundings before event after) :
    if event.startsUp then before.advData.populateAdvertisingData = some after.advData
    else after.advData = before.advData := by
  have done := step.2
  have applied : ∀ {platform : Platform} {happens : Event},
      ProgramEvent.applyEvent platform before happens = some after →
      after.advData = before.advData := by
    intro platform happens done
    obtain ⟨repeater, _, same⟩ := Option.bind_eq_some_iff.mp done
    cases same
    rfl
  cases event with
  | attWriteCallback | handleGattClientValueUpdateEvent =>
      obtain ⟨repeater, _, same⟩ := Option.bind_eq_some_iff.mp done
      cases same
      rfl
  | handleGattClientEvent event =>
      cases event with
      | queryComplete conHandle query err =>
          obtain ⟨main, _, same⟩ := Option.bind_eq_some_iff.mp done
          cases same
          rfl
      | _ =>
          cases done
          rfl
  | hciPacketHandler packetType uptime event =>
      simp only [ProgramEvent.apply, Program.hciPacketHandler] at done
      split at done
      · rename_i other
        cases done
        cases event <;> simp [ProgramEvent.startsUp, other]
      · rename_i packet
        rw [not_not] at packet
        cases event with
        | btstackEventState working =>
            cases working with
            | true =>
                obtain ⟨advData, populated, same⟩ := Option.bind_eq_some_iff.mp done
                cases same
                rw [packet]
                exact populated
            | false =>
                cases done
                rw [packet]
                rfl
        | advertisingReport address addressType rssi data length =>
            dsimp only at done
            split at done <;>
              · cases done
                rfl
        | _ =>
            cases done
            rfl
  | attPacketHandler packetType uptime event =>
      cases done
      simp only [ProgramEvent.startsUp, Bool.false_eq_true, if_false, Program.attPacketHandler]
      split
      · rfl
      · cases event <;> rfl
  | mainLoopGate | stopScanHandler | startScanningForLocalNodes =>
      cases done
      rfl
  | _ => exact applied done

/-- When BTstack comes up, the program goes on exactly if the array has room. -/
theorem startsUp_isSome {surroundings : Surroundings} {program : Program}
    {event : ProgramEvent} (starts : event.startsUp = true) :
    (event.apply surroundings program).isSome ↔
      program.advData.populateAdvertisingData.isSome := by
  cases event with
  | hciPacketHandler packetType uptime event =>
      cases event with
      | btstackEventState working =>
          simp only [ProgramEvent.startsUp, Bool.and_eq_true, beq_iff_eq] at starts
          obtain ⟨rfl, rfl⟩ := starts
          simp only [ProgramEvent.apply, Program.hciPacketHandler]
          cases program.advData.populateAdvertisingData <;> simp
      | _ => cases starts
  | _ => cases starts

/-- The program advertises nothing before BTstack is up, and flags, UUID and name from then
on. -/
def Program.Advertises (events : List ProgramEvent) (program : Program) : Prop :=
  program.advData = if events.any ProgramEvent.startsUp then .full else {}

theorem advertises_of_step {surroundings : Surroundings} {earlier : List ProgramEvent}
    {before after : Program} {event : ProgramEvent} (advertises : before.Advertises earlier)
    (step : ProgramStep surroundings before event after) :
    after.Advertises (earlier ++ [event]) := by
  have moves := advData_of_step step
  simp only [Program.Advertises, List.any_append, List.any_cons, List.any_nil, Bool.or_false]
    at advertises ⊢
  by_cases starts : event.startsUp = true
  · rw [if_pos starts, advertises] at moves
    rw [starts, Bool.or_true, if_pos rfl]
    split at moves
    · rw [AdvData.populate_full] at moves
      cases moves
    · rw [AdvData.populate_new] at moves
      exact (Option.some.inj moves).symm
  · rw [if_neg starts] at moves
    rw [Bool.not_eq_true] at starts
    rw [starts, Bool.or_false, moves, advertises]

theorem advertises_of_run {surroundings : Surroundings} {address : Address}
    {events : List ProgramEvent} {finish : Program}
    (run : Run (ProgramStep surroundings) (Program.new address) events finish) :
    finish.Advertises events :=
  @Run.invariant_of_labels _ _ _ Program.Advertises _ _ _ run
    (fun _ advertises step => advertises_of_step advertises step) rfl

/-- The program fills `adv_data` when BTstack comes up, and stays within the array then exactly
if BTstack has not been up before. -/
theorem advData_of_run {surroundings : Surroundings} {address : Address}
    {events : List ProgramEvent} {finish : Program}
    (run : Run (ProgramStep surroundings) (Program.new address) events finish) :
    finish.advData = (if events.any ProgramEvent.startsUp then .full else {}) ∧
      ∀ event : ProgramEvent, event.startsUp = true →
        ((event.apply surroundings finish).isSome ↔
          ∀ earlier ∈ events, earlier.startsUp = false) := by
  have advertises := advertises_of_run run
  refine ⟨advertises, ?_⟩
  intro event starts
  rw [startsUp_isSome starts, advertises]
  cases up : events.any ProgramEvent.startsUp with
  | true =>
      obtain ⟨earlier, member, started⟩ := List.any_eq_true.mp up
      simp only [if_true, AdvData.populate_full, Option.isSome_none, Bool.false_eq_true,
        false_iff]
      intro never
      rw [never earlier member] at started
      cases started
  | false =>
      have never := List.any_eq_false.mp up
      simp only [Bool.false_eq_true, if_false, AdvData.populate_new, Option.isSome_some,
        true_iff]
      exact fun earlier member => Bool.not_eq_true _ ▸ never earlier member

/-- BTstack came up, so that it would leave the array if it came up again. -/
theorem advData_of_session : ∃ finish,
    Run (ProgramStep bench) (Program.new 100) discoversPeer finish ∧
    finish.advData = .full ∧
    ¬ (ProgramEvent.apply bench finish
      (.hciPacketHandler hciEventPacket 60 (.btstackEventState true))).isSome = true := by
  have outcome : (follow (ProgramEvent.next bench) discoversPeer (Program.new 100)).isSome =
      true := by decide
  obtain ⟨finish, followed⟩ := Option.isSome_iff_exists.mp outcome
  have run := Run.of_follow programStep_of_next followed
  obtain ⟨full, again⟩ := advData_of_run run
  refine ⟨finish, run, full, fun stays => ?_⟩
  have never := (again (.hciPacketHandler hciEventPacket 60 (.btstackEventState true))
    rfl).mp stays
  exact absurd (never _ List.mem_cons_self) (by decide)

/-- Any program that hears what another one advertises takes it for a repeater, and for one
to connect to if its address is not random, whatever its own clock says. -/
theorem hears_advertised {speaker listener : Surroundings} {own other : Address}
    {events heard : List ProgramEvent} {speaking before after : Program}
    (speaks : Run (ProgramStep speaker) (Program.new own) events speaking)
    (up : events.any ProgramEvent.startsUp = true)
    (listens : Run (ProgramStep listener) (Program.new other) heard before)
    (yields : MainProgram.YieldsInOrder listener.iterate) {memory : MainProgram.Memory}
    (present : ∀ index byte, speaking.advData.bytes[index]? = some byte → memory index = byte)
    {uptime : UInt64} {address : Bytes} {addressType : UInt8} {rssi : Int8}
    (step : ProgramStep listener before (.hciPacketHandler hciEventPacket uptime
      (.advertisingReport address addressType rssi memory speaking.advData.len)) after) :
    ∃ neighbour, after.tracker.availableNeighbours.find? address = some neighbour ∧
      neighbour.btAddress = address ∧ neighbour.isRepeater = true ∧
      (addressType ≠ bdAddrTypeLeRandom →
        neighbour ∈ after.tracker.getConnectableNeighbours) := by
  have advertised := advertises_of_run speaks
  rw [Program.Advertises, if_pos up] at advertised
  rw [advertised] at present
  have scanned := ((wellKept_new listener.platform other).run (listens.snoc step)).scanned
  have done := step.2
  rw [advertised] at done
  simp only [ProgramEvent.apply, Program.hciPacketHandler, ne_eq, not_true_eq_false, if_false,
    checkForUuid_full yields present] at done
  cases done
  have found : (before.tracker.addAvailablePeer uptime address addressType .andNameFound
      rssi).availableNeighbours.find? address = some
        { (before.tracker.availableNeighbours.find? address).getD {} with
          btAddress := address
          btAddressType := addressType
          servicesFound := .andNameFound
          rssi
          lastSeenTime := uptime } := by
    rw [addAvailablePeer, OrderedMap.find?_insert, if_pos rfl]
  refine ⟨_, found, rfl, rfl, ?_⟩
  intro fixed
  have idle := congrArg BleConnection.connected (scanned address _ found)
  have listed := OrderedMap.find?_eq_some_iff.mp found
  refine List.mem_filter.mpr ⟨List.mem_map.mpr ⟨_, listed, rfl⟩, ?_⟩
  simp only [Bool.and_eq_true, Bool.or_eq_true, Bool.not_eq_true']
  refine ⟨⟨Or.inr rfl, idle⟩, ?_⟩
  exact beq_eq_false_iff_ne.mpr fixed

/-- The first repeater of a session, and the one that it hears. -/
theorem hears_session : ∃ speaking before after neighbour,
    Run (ProgramStep bench) (Program.new 300) (discoversPeer.take 1) speaking ∧
    Run (ProgramStep bench) (Program.new 100) [] before ∧
    ProgramStep bench before (.hciPacketHandler hciEventPacket 10
      (.advertisingReport [1, 2, 3, 4, 5, 6] 0 (-60)
        (fun index => speaking.advData.bytes.getD index 0) speaking.advData.len)) after ∧
    neighbour ∈ after.tracker.getConnectableNeighbours ∧
    neighbour.btAddress = [1, 2, 3, 4, 5, 6] := by
  have comes : (follow (ProgramEvent.next bench) (discoversPeer.take 1)
      (Program.new 300)).isSome = true := by decide
  obtain ⟨speaking, followed⟩ := Option.isSome_iff_exists.mp comes
  have speaks := Run.of_follow programStep_of_next followed
  have goes : (ProgramEvent.apply bench (Program.new 100) (.hciPacketHandler hciEventPacket 10
      (.advertisingReport [1, 2, 3, 4, 5, 6] 0 (-60)
        (fun index => speaking.advData.bytes.getD index 0) speaking.advData.len))).isSome := by
    simp only [ProgramEvent.apply, Program.hciPacketHandler, ne_eq, not_true_eq_false, if_false]
    split <;> rfl
  obtain ⟨after, done⟩ := Option.isSome_iff_exists.mp goes
  have present : ∀ index byte, speaking.advData.bytes[index]? = some byte →
      speaking.advData.bytes.getD index 0 = byte := by
    intro index byte found
    simp [List.getD_eq_getElem?_getD, found]
  obtain ⟨neighbour, _, named, _, connectable⟩ := hears_advertised speaks (by decide)
    (.nil (Program.new 100)) MainProgram.adIterator_yieldsInOrder present ⟨trivial, done⟩
  exact ⟨speaking, Program.new 100, after, neighbour, speaks, .nil _, ⟨trivial, done⟩,
    connectable (by decide), named⟩

end BleRepeater
