import BleRepeater.Ble.Clock
import BleRepeater.Main.RelayAnnounce

/-!
# The clock that repeaters exchange

An announce carries the clock of its sender in milliseconds, and the receiver takes a
thousandth of it for the time in milliseconds.  So a repeater that adopts the time of
another comes to a thousandth of that clock, which is the same only when it is zero.
-/

namespace BleRepeater

open Transition Tracker ProtocolProcessor Repeater

/-! ## Sending the time -/

namespace Tracker

/-- What the next call of `sendPackets` hands over of the own announce. -/
def announcesWritten (tracker : Tracker) : List Bytes :=
  match tracker.sendPackets with
  | some (_, targeted, broadcast) =>
      (targeted ++ broadcast).filterMap fun consideration =>
        if consideration.handed && consideration.packet == tracker.announce.address then
          consideration.written
        else none
  | none => []

/-- `announceToConnections` enqueues the own announce, and `sendPackets` hands it over as
these bytes. -/
def Announces (platform : Platform) (uptime : UInt64) (tracker : Tracker) (bytes : Bytes) :
    Prop :=
  ∃ stamped, announceToConnections platform tracker uptime = some stamped ∧
    stamped.targetedPacketsToSendList ≠ tracker.targetedPacketsToSendList ∧
    bytes ∈ stamped.announcesWritten

theorem written_of_mem {tracker : Tracker} {bytes : Bytes}
    (member : bytes ∈ tracker.announcesWritten) :
    (Packet.announce tracker.announce.object).writePacket [] = some bytes := by
  unfold announcesWritten at member
  split at member
  · rename_i sent
    obtain ⟨consideration, considered, written⟩ := List.mem_filterMap.mp member
    split at written
    · rename_i hands
      simp only [Bool.and_eq_true, beq_iff_eq] at hands
      have found := packetAt_announce tracker
      rw [← hands.2] at found
      rw [← written_considered sent considered found]
      exact written
    · cases written
  · cases member

/-- What is handed over is the announce with the clock of its sender. -/
theorem written_of_announces {platform : Platform} {uptime : UInt64} {tracker : Tracker}
    {bytes : Bytes} (kept : tracker.AnnounceKept platform)
    (announces : Announces platform uptime tracker bytes) :
    (Packet.announce (ownAnnounce platform (tracker.timeMs uptime))).writePacket [] =
      some bytes := by
  obtain ⟨stamped, done, enqueues, member⟩ := announces
  have written := written_of_mem member
  rcases announceToConnections_stamps kept done with own | ⟨_, same⟩
  · rw [own] at written
    exact written
  · exact absurd same enqueues

theorem complete_ownAnnounce (platform : Platform) (timestamp : UInt64) :
    (ownAnnounce platform timestamp).Complete where
  type := rfl
  travels := by
    change (3 : UInt8) > 0
    decide
  recipient := fun _ => rfl
  name := by
    simp [ownAnnounce, ownName, packetServiceName, BinaryWriter.writeUint8Hex16]
  payload := rfl

end Tracker

/-! ## Hearing the time -/

namespace ProtocolProcessor

theorem timeMs_heard (tracker : Tracker) (uptime : UInt64) (conHandle : UInt16)
    (announce : Announce) :
    (heard tracker uptime conHandle announce).timeMs uptime =
      if Adopts (tracker.timeMs uptime) announce.packetTimestampMs then
        announce.packetTimestampMs
      else tracker.timeMs uptime := by
  have clock : (updateOrStorePeerNameFromAnnouncement tracker announce conHandle).timeMs
      uptime = tracker.timeMs uptime := by
    have checked := congrArg Prod.snd
      (station_checkSenderInPeers tracker announce.packetSenderId)
    change (tracker.checkSenderInPeers announce.packetSenderId).timestampOffsetMs =
      tracker.timestampOffsetMs at checked
    unfold updateOrStorePeerNameFromAnnouncement
    dsimp only
    split <;> exact congrArg (· + uptime / 1000) checked
  rw [heard, timeMs_possiblyUpdateTimeOffset, clock]

theorem timeMs_of_station {before after : Tracker} (same : after.station = before.station)
    (uptime : UInt64) : after.timeMs uptime = before.timeMs uptime :=
  congrArg (· + uptime / 1000) (congrArg Prod.snd same)

/-- Whatever becomes of an announce, the clock is set by its timestamp. -/
theorem timeMs_processAnnounce {platform : Platform} {before after : Tracker}
    {uptime : UInt64} {address : Address} {connection : ConnectionRef} {conHandle : UInt16}
    {announce : Announce}
    (done : processAnnounce platform before uptime address connection conHandle announce =
      some after) :
    after.timeMs uptime =
      if Adopts (before.timeMs uptime) announce.packetTimestampMs then
        announce.packetTimestampMs
      else before.timeMs uptime := by
  rw [← timeMs_heard before uptime conHandle announce]
  apply timeMs_of_station
  cases known : before.packets.find?
      (packetHash platform announce.toPacketPassAlong).toNat with
  | some entry =>
      cases (processAnnounce_known known).symm.trans done
      rfl
  | none =>
      have done := (processAnnounce_new known).symm.trans done
      rw [station_enqueueBroadcastPacketFrom done, station_checkSenderInPeers,
        station_storePacketAndReturnIfNew]

end ProtocolProcessor

namespace Repeater

variable {platform : Platform} {before after : Repeater}

/-- In a run from the start, the announce is as constructed, or set up. -/
theorem announceKept_of_run {address : Address} {events : List Event} {finish : Repeater}
    (run : Run (EventStep platform) (new address) events finish) :
    finish.tracker.AnnounceKept platform := by
  have preserved : ∀ {start event finish},
      start.tracker.Separate ∧ start.tracker.AnnounceKept platform →
      EventStep platform start event finish →
      finish.tracker.Separate ∧ finish.tracker.AnnounceKept platform := by
    intro start event finish ⟨separate, kept⟩ step
    refine ⟨separate_of_event separate step, ?_⟩
    exact invariant_of_event (AnnounceKept platform) separate step
      (fun kept _ step => AnnounceKept.step kept step) kept
  exact (run.invariant preserved ⟨separate_new address, announceKept_new address⟩).2

/-- The receiver of an announce is told a thousandth of the clock of its sender. -/
theorem timeMs_of_hearing {sender : Platform} {time uptime : UInt64}
    {packet : Address} {connection : ConnectionRef} {conHandle offset : UInt16}
    {buffer : Buffer}
    (carried : (ownAnnounce sender time).Carried offset buffer)
    (step : EventStep platform before
      (.processWrite uptime packet connection conHandle offset buffer) after) :
    after.tracker.timeMs uptime =
      if Adopts (before.tracker.timeMs uptime) (time / 1000) then time / 1000
      else before.tracker.timeMs uptime := by
  have found := Announce.received_carried (complete_ownAnnounce sender time) carried
  obtain ⟨tracker, processed, same⟩ := Option.bind_eq_some_iff.mp step.2
  cases same
  simp only [processWrite, found] at processed
  have told : (ownAnnounce sender time).packetTimestampMs = time / 1000 := rfl
  have clock := timeMs_processAnnounce processed
  rw [told] at clock
  exact clock

end Repeater

/-! ## Agreeing on the time -/

/-- Two clocks between which the first is the one to take over: it is ahead, or the two are
more than `MESSAGE_TIMEOUT` apart. -/
def Leads (leading following : UInt64) : Prop :=
  leading > following ∨
    ((leading.toNat : Int) - following.toNat).natAbs > messageTimeout.toNat

/-- After a repeater has heard the announce of another whose clock shows `time`, its clock
shows that too, and its own announce leaves the clock of the other as it is. -/
def AgreesOn (there here : Platform) (uptime returnUptime : UInt64) (heard : Repeater)
    (time : UInt64) : Prop :=
  heard.tracker.timeMs uptime = time ∧
    ∀ (bytes front rest : Bytes) (other after : Repeater) (packet : Address)
      (connection : ConnectionRef) (conHandle offset : UInt16) (buffer : Buffer),
      Announces here uptime heard.tracker bytes →
      front.length = offset.toNat → buffer.bytes = front ++ bytes ++ rest →
      other.tracker.timeMs returnUptime = time →
      EventStep there other
        (.processWrite returnUptime packet connection conHandle offset buffer) after →
      after.tracker.timeMs returnUptime = time

section Exchange

variable {there here : Platform} {time : UInt64}

/-- A thousandth of a leading clock is that clock only when it is zero. -/
theorem adopted_eq_iff {leading following : UInt64} (leads : Leads leading following) :
    (if Adopts following (leading / 1000) then leading / 1000 else following) = leading ↔
      leading = 0 ∧ following.toNat + messageTimeout.toNat < 2 ^ 64 := by
  have zeroed : leading / 1000 = leading → leading = 0 := by
    intro same
    apply UInt64.toNat.inj
    have divided := congrArg UInt64.toNat same
    simp only [UInt64.toNat_div] at divided
    change leading.toNat / 1000 = leading.toNat at divided
    simp only [UInt64.toNat_zero]
    omega
  have different : following ≠ leading := by
    rintro rfl
    rcases leads with ahead | far
    · exact lt_irrefl _ ahead
    · simp at far
  constructor
  · intro same
    split at same
    · rename_i adopts
      have zero := zeroed same
      rw [same, zero] at adopts
      exact ⟨zero, ((adopts_zero_iff following).mp adopts).2⟩
    · exact absurd same different
  · rintro ⟨rfl, near⟩
    have far : messageTimeout.toNat < following.toNat := by
      rcases leads with ahead | far
      · exact absurd ahead (by simp)
      · simp only [UInt64.toNat_zero] at far
        omega
    have adopts : Adopts following (0 / 1000) := (adopts_zero_iff following).mpr ⟨far, near⟩
    rw [if_pos adopts]
    rfl

/-- Two repeaters agree on the clock that one takes over from the other exactly when that
clock is zero. -/
theorem agreesOn_iff {thereAddress hereAddress : Address} {thereEvents hereEvents : List Event}
    {sender before heard : Repeater} {thereUptime uptime : UInt64} {bytes front rest : Bytes}
    {packet : Address} {connection : ConnectionRef} {conHandle offset : UInt16}
    {buffer : Buffer}
    (sends : Run (EventStep there) (Repeater.new thereAddress) thereEvents sender)
    (waits : Run (EventStep here) (Repeater.new hereAddress) hereEvents before)
    (leads : Leads (sender.tracker.timeMs thereUptime) (before.tracker.timeMs uptime))
    (announces : Announces there thereUptime sender.tracker bytes)
    (place : front.length = offset.toNat) (split : buffer.bytes = front ++ bytes ++ rest)
    (hears : EventStep here before
      (.processWrite uptime packet connection conHandle offset buffer) heard) :
    AgreesOn there here uptime thereUptime heard (sender.tracker.timeMs thereUptime) ↔
      sender.tracker.timeMs thereUptime = 0 ∧
        (before.tracker.timeMs uptime).toNat + messageTimeout.toNat < 2 ^ 64 := by
  have written := written_of_announces (announceKept_of_run sends) announces
  have clock := timeMs_of_hearing ⟨bytes, front, rest, written, place, split⟩ hears
  rw [← adopted_eq_iff leads, ← clock]
  constructor
  · exact And.left
  · intro same
    refine ⟨same, ?_⟩
    intro answer front rest other after packet connection conHandle offset buffer replies
      place split shows listens
    have answered := written_of_announces (announceKept_of_run (waits.snoc hears)) replies
    have returned := timeMs_of_hearing ⟨answer, front, rest, answered, place, split⟩ listens
    have zero := ((adopted_eq_iff leads).mp (clock.symm.trans same)).1
    rw [same, shows, zero] at returned
    rw [returned, zero]
    split <;> rfl

end Exchange

/-- A connection over 0x40 to a repeater that is told the time, all at one uptime. -/
def linkedAndTold (uptime : UInt64) (buffer : Buffer) : List Event :=
  [.tracker (.reportConnection uptime 0x40 [1, 2, 3, 4, 5, 6] 0),
    .tracker (.updateConnection ⟨0x40, 0⟩ fun connection =>
      { connection with packetCharacteristicValueHandle := 9 }),
    .processWrite uptime 200 ⟨0x40, 0⟩ 0x40 0 buffer]

/-- The announce of an anonymous sender with the timestamp zero. -/
def toldZero : Buffer :=
  ⟨[1, 65, 3] ++ List.replicate 17 0 ++ [0], by decide⟩

/-- The own announce of a repeater whose clock shows zero. -/
def announcedZero : Buffer :=
  ⟨[1, 65, 3, 0, 0, 0, 0, 0, 0, 0, 0, 0, 0, 0, 6, 5, 4, 3, 2, 1, 13,
    82, 101, 112, 101, 97, 116, 101, 114, 58, 48, 53, 48, 54], by decide⟩

/-- A repeater that was told the time, and the announce that it sends then. -/
theorem announces_of_outcome (platform : Platform) (events : List Event) (uptime time : UInt64)
    (bytes : Bytes)
    (outcome : ((follow (Event.next platform) events (Repeater.new 100)).bind fun sender =>
      (announceToConnections platform sender.tracker uptime).map fun stamped =>
        (sender.tracker.timeMs uptime,
          sender.tracker.targetedPacketsToSendList.entries.length,
          stamped.targetedPacketsToSendList.entries.length, stamped.announcesWritten)) =
      some (time, 0, 1, [bytes])) :
    ∃ sender, follow (Event.next platform) events (Repeater.new 100) = some sender ∧
      sender.tracker.timeMs uptime = time ∧
      Announces platform uptime sender.tracker bytes := by
  obtain ⟨sender, told, outcome⟩ := Option.bind_eq_some_iff.mp outcome
  obtain ⟨stamped, done, outcome⟩ := Option.map_eq_some_iff.mp outcome
  obtain ⟨clock, outcome⟩ := Prod.mk.inj outcome
  obtain ⟨none, outcome⟩ := Prod.mk.inj outcome
  obtain ⟨one, written⟩ := Prod.mk.inj outcome
  refine ⟨sender, told, clock, stamped, done, ?_, by simp [written]⟩
  intro same
  rw [same, none] at one
  cases one

/-- A second repeater, with an address of its own. -/
def secondPlatform : Platform :=
  { bytesSummed with localAddress := [1, 2, 3, 4, 5, 7] }

/-- The own announce of the second repeater when its clock shows zero. -/
def answeredZero : Buffer :=
  ⟨[1, 65, 3, 0, 0, 0, 0, 0, 0, 0, 0, 0, 0, 0, 7, 5, 4, 3, 2, 1, 13,
    82, 101, 112, 101, 97, 116, 101, 114, 58, 48, 53, 48, 55], by decide⟩

/-- Two linked repeaters tell each other the time zero: the second one takes it over and
announces it, and the clock of the first one stays. -/
theorem agreesOn_iff_zero :
    ∃ sender heard answered, Run (EventStep bytesSummed) (Repeater.new 100)
        (linkedAndTold 301000000 toldZero) sender ∧
      Announces bytesSummed 301000000 sender.tracker announcedZero.bytes ∧
      Run (EventStep secondPlatform) (Repeater.new 100)
        (linkedAndTold 301000000 announcedZero) heard ∧
      AgreesOn bytesSummed secondPlatform 301000000 301000000 heard
        (sender.tracker.timeMs 301000000) ∧
      Announces secondPlatform 301000000 heard.tracker answeredZero.bytes ∧
      EventStep bytesSummed sender
        (.processWrite 301000000 300 ⟨0x40, 0⟩ 0x40 0 answeredZero) answered ∧
      answered.tracker.timeMs 301000000 = sender.tracker.timeMs 301000000 := by
  obtain ⟨sender, told, clock, announces⟩ := announces_of_outcome bytesSummed
    (linkedAndTold 301000000 toldZero) 301000000 0 announcedZero.bytes (by decide)
  obtain ⟨heard, followed, _, replies⟩ := announces_of_outcome secondPlatform
    (linkedAndTold 301000000 announcedZero) 301000000 0 answeredZero.bytes (by decide)
  have hearing : Run (EventStep secondPlatform) (Repeater.new 100)
      ((linkedAndTold 301000000 announcedZero).take 2 ++
        [.processWrite 301000000 200 ⟨0x40, 0⟩ 0x40 0 announcedZero]) heard :=
    Run.of_follow event_of_next followed
  obtain ⟨before, opened, shows⟩ := Option.map_eq_some_iff.mp
    (show (follow (Event.next secondPlatform) ((linkedAndTold 301000000 announcedZero).take 2)
      (Repeater.new 100)).map (fun before => before.tracker.timeMs 301000000) = some 301000 by
      decide)
  have waits := Run.of_follow event_of_next opened
  obtain ⟨middle, reaches, last⟩ := hearing.exists_of_append
  cases reaches.eq_of_functional eventStep_functional waits
  cases last with
  | cons hears rest =>
      cases rest
      have sends := Run.of_follow event_of_next told
      have leads : Leads (sender.tracker.timeMs 301000000) (before.tracker.timeMs 301000000) := by
        rw [clock, shows]
        right
        decide
      have whole : announcedZero.bytes = [] ++ announcedZero.bytes ++ [] := by simp
      have agrees := (agreesOn_iff sends waits leads announces rfl whole hears).mpr
        ⟨clock, by rw [shows]; decide⟩
      -- the way back
      have answers : ((follow (Event.next bytesSummed) (linkedAndTold 301000000 toldZero)
          (Repeater.new 100)).bind fun sender => Event.next bytesSummed sender
            (.processWrite 301000000 300 ⟨0x40, 0⟩ 0x40 0 answeredZero)).isSome := by decide
      rw [told, Option.bind_some] at answers
      obtain ⟨answered, answers⟩ := Option.isSome_iff_exists.mp answers
      have listens := event_of_next answers
      have back : answeredZero.bytes = [] ++ answeredZero.bytes ++ [] := by simp
      exact ⟨sender, heard, answered, sends, announces, hearing, agrees, replies, listens,
        agrees.2 _ _ _ _ _ _ _ _ _ _ replies rfl back rfl listens⟩

/-- The announce of an anonymous sender with the timestamp 2000000000000. -/
def toldTime : Buffer :=
  ⟨[1, 65, 3, 0, 0, 1, 209, 169, 74, 32, 0, 0, 0, 0, 0, 0, 0, 0, 0, 0, 0], by decide⟩

/-- The own announce of a repeater whose clock shows 2000000000. -/
def announcedTime : Buffer :=
  ⟨[1, 65, 3, 0, 0, 0, 0, 119, 53, 148, 0, 0, 0, 0, 6, 5, 4, 3, 2, 1, 13,
    82, 101, 112, 101, 97, 116, 101, 114, 58, 48, 53, 48, 54], by decide⟩

/-- A repeater whose clock shows 2000000000 announces itself to one whose clock shows zero,
and that one comes to 2000000. -/
theorem announce_missets_clock :
    ∃ sender heard, Run (EventStep bytesSummed) (Repeater.new 100)
        (linkedAndTold 0 toldTime) sender ∧
      Leads (sender.tracker.timeMs 0) ((Repeater.new 100).tracker.timeMs 0) ∧
      Announces bytesSummed 0 sender.tracker announcedTime.bytes ∧
      EventStep bytesSummed (Repeater.new 100)
        (.processWrite 0 200 ⟨0x41, 0⟩ 0x41 0 announcedTime) heard ∧
      sender.tracker.timeMs 0 = 2000000000 ∧ heard.tracker.timeMs 0 = 2000000 ∧
      ¬ AgreesOn bytesSummed bytesSummed 0 0 heard (sender.tracker.timeMs 0) := by
  obtain ⟨sender, told, clock, announces⟩ := announces_of_outcome bytesSummed
    (linkedAndTold 0 toldTime) 0 2000000000 announcedTime.bytes (by decide)
  obtain ⟨heard, done, misset⟩ := Option.map_eq_some_iff.mp
    (show ((Event.processWrite 0 200 ⟨0x41, 0⟩ 0x41 0 announcedTime).apply bytesSummed
      (Repeater.new 100)).map (fun heard => heard.tracker.timeMs 0) = some 2000000 by decide)
  have leads : Leads (sender.tracker.timeMs 0) ((Repeater.new 100).tracker.timeMs 0) := by
    rw [clock]
    left
    decide
  refine ⟨sender, heard, Run.of_follow event_of_next told, leads, announces, ⟨rfl, done⟩, clock,
    misset, ?_⟩
  intro agrees
  have same := agrees.1
  rw [clock, misset] at same
  exact absurd same (by decide)

end BleRepeater
