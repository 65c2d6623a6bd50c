import BleRepeater.Ble.Announcing

/-!
# The clock

The clock is an offset added to the uptime, and both wrap around.  Told of a time, a
tracker either adopts it, and then its clock shows exactly that, or keeps its own.  The own
announce carries the clock at the time when it was last enqueued.
-/

namespace BleRepeater.Tracker

open Transition

/-! ## Adopting a time -/

/-- The `diff_abs` of `possiblyUpdateTimeOffset`: the shorter way between two clocks. -/
def clockDistance (ours theirs : UInt64) : Nat :=
  ((theirs.toNat : Int) - ours.toNat).bmod (2 ^ 64) |>.natAbs

/-- A clock that is far off, or ahead of ours. -/
def Adopts (ours theirs : UInt64) : Prop :=
  clockDistance ours theirs > messageTimeout.toNat ∨ theirs > ours

instance decidableAdopts (ours theirs : UInt64) : Decidable (Adopts ours theirs) := by
  unfold Adopts
  infer_instance

theorem toInt_toInt64 (value : UInt64) :
    value.toInt64.toInt = (value.toNat : Int).bmod (2 ^ 64) := by
  change value.toBitVec.toInt = _
  rw [BitVec.toInt_eq_toNat_bmod]
  rfl

theorem toInt_sub_toInt64 (ours theirs : UInt64) :
    (theirs.toInt64 - ours.toInt64).toInt = ((theirs.toNat : Int) - ours.toNat).bmod (2 ^ 64) := by
  rw [Int64.toInt_sub, toInt_toInt64, toInt_toInt64, Int.bmod_sub_bmod, Int.sub_bmod_bmod]

/-- After hearing of a time, the clock shows it or what it showed. -/
theorem timeMs_possiblyUpdateTimeOffset (tracker : Tracker) (uptime timestampMs : UInt64) :
    (tracker.possiblyUpdateTimeOffset uptime timestampMs).timeMs uptime =
      if Adopts (tracker.timeMs uptime) timestampMs then timestampMs
      else tracker.timeMs uptime := by
  have back : (timestampMs.toInt64 - (tracker.timeMs uptime).toInt64).toUInt64 =
      timestampMs - tracker.timeMs uptime := by
    simp
  simp only [possiblyUpdateTimeOffset, toInt_sub_toInt64]
  change (if Adopts (tracker.timeMs uptime) timestampMs then _ else _ : Tracker).timeMs
    uptime = _
  split
  · simp only [timeMs] at back ⊢
    rw [back]
    grind
  · rfl

/-- Zero is adopted unless the clock is about to reach zero by itself, or has just passed
it. -/
theorem adopts_zero_iff (ours : UInt64) :
    Adopts ours 0 ↔ messageTimeout.toNat < ours.toNat ∧
      ours.toNat + messageTimeout.toNat < 2 ^ 64 := by
  have small := ours.toNat_lt
  have timeout : messageTimeout.toNat = 300000 := rfl
  have ahead : ¬ (0 : UInt64) > ours := by simp
  simp only [Adopts, ahead, or_false, clockDistance, timeout, UInt64.toNat_zero]
  rw [Int.bmod_def]
  split <;> omega

/-! ## The own announce -/

/-- The own announce as it is set up, with the time at which it was enqueued. -/
def ownAnnounce (platform : Platform) (timestamp : UInt64) : Announce :=
  { packetType := typeAnnounce
    packetTtl := 3
    packetTimestamp := timestamp
    packetFlags := 0
    packetSenderId := senderOfAddress platform.localAddress
    name := ownName platform.localAddress }

/-- The announce is as constructed, or set up. -/
def AnnounceKept (platform : Platform) (tracker : Tracker) : Prop :=
  tracker.announce.object = Announce.new ∨
    ∃ timestamp, tracker.announce.object = ownAnnounce platform timestamp

/-- What the announce and the clock are made of. -/
def station (tracker : Tracker) : Stored Announce × UInt64 :=
  (tracker.announce, tracker.timestampOffsetMs)

theorem station_connectionsIndex (tracker : Tracker) (handle : UInt16) :
    (tracker.connectionsIndex handle).2.station = tracker.station := by
  unfold connectionsIndex
  split <;> rfl

theorem station_connectionForConnHandle (tracker : Tracker) (handle : UInt16) :
    (tracker.connectionForConnHandle handle).2.station = tracker.station := by
  unfold connectionForConnHandle
  split
  · exact station_connectionsIndex tracker handle
  · exact station_connectionsIndex tracker handle

theorem station_enqueueTargetedPacket {tracker after : Tracker} {packet : Address}
    {connection : BleConnection}
    (done : tracker.enqueueTargetedPacket packet connection = some after) :
    after.station = tracker.station := by
  obtain ⟨_, _, ⟨_, rfl⟩ | ⟨_, rfl⟩⟩ := enqueueTargetedPacket_cases done
  · exact station_connectionForConnHandle tracker connection.connectionHandle
  · rfl

theorem station_reportConnection (tracker : Tracker) (uptime : UInt64) (handle : UInt16)
    (addr : Bytes) (addressType : UInt8) :
    (tracker.reportConnection uptime handle addr addressType).station = tracker.station := by
  unfold reportConnection
  dsimp only
  split
  · exact (station_connectionsIndex _ handle).trans (station_connectionsIndex tracker handle)
  · exact station_connectionsIndex tracker handle

theorem station_rawPacketCallback (queue : RawQueue) (tracker : Tracker)
    (conHandle : UInt16) (ret : UInt8) :
    (rawPacketCallback queue tracker conHandle ret).tracker.station = tracker.station := by
  refine rawPacketCallback_invariant (motive := fun current =>
    current.station = tracker.station) ret ?_ ?_ rfl
  · intro current same
    exact (station_connectionsIndex current conHandle).trans same
  · intro current packets same
    cases queue <;> exact same

theorem station_storeMessageAndReturnIfNew (tracker : Tracker) (address : Address)
    (message : Message) :
    (tracker.storeMessageAndReturnIfNew address message).2.station = tracker.station := by
  rw [storeMessageAndReturnIfNew_frame]
  rfl

theorem station_storePacketAndReturnIfNew (platform : Platform) (tracker : Tracker)
    (address : Address) (passAlong : PacketPassAlong) :
    (storePacketAndReturnIfNew platform tracker address passAlong).2.station =
      tracker.station := by
  rw [storePacketAndReturnIfNew_frame]
  rfl

theorem station_checkSenderInPeers (tracker : Tracker) (sender : UInt64) :
    (tracker.checkSenderInPeers sender).station = tracker.station := by
  unfold checkSenderInPeers
  split <;> rfl

theorem station_enqueueBroadcastPacket {tracker after : Tracker} {packet : Address}
    (done : tracker.enqueueBroadcastPacket packet = some after) :
    after.station = tracker.station := by
  rw [enqueueBroadcastPacket_frame done]
  rfl

theorem station_enqueueBroadcastPacketFrom {tracker after : Tracker} {packet : Address}
    {fromConnection : ConnectionRef} {fromPeer : UInt64}
    (done : tracker.enqueueBroadcastPacketFrom packet fromConnection fromPeer = some after) :
    after.station = tracker.station :=
  (station_enqueueBroadcastPacket done).trans rfl

variable {platform : Platform} {before after : Tracker} {operation : Operation}

/-- Only announcing changes the announce. -/
theorem announce_of_step (step : OperationStep platform before operation after)
    (other : ∀ uptime, operation ≠ .announceToConnections uptime) :
    after.announce = before.announce := by
  obtain ⟨_, done⟩ := step
  cases operation with
  | announceToConnections uptime => exact absurd rfl (other uptime)
  | sendPackets =>
      obtain ⟨⟨last, targeted, broadcast⟩, sent, same⟩ := Option.map_eq_some_iff.mp done
      cases same
      have settled := (sendPackets_sendsOnly sent).settled
      exact (congrArg Tracker.announce settled :)
  | cleanupStaleItems uptime =>
      exact (cleans_cleanupStaleItems done).announce
  | storeMessageAndReturnIfNew address message =>
      cases done
      exact congrArg Prod.fst (station_storeMessageAndReturnIfNew before address message)
  | storePacketAndReturnIfNew address passAlong =>
      cases done
      exact congrArg Prod.fst
        (station_storePacketAndReturnIfNew platform before address passAlong)
  | checkSenderInPeers sender =>
      cases done
      exact congrArg Prod.fst (station_checkSenderInPeers before sender)
  | enqueueTargetedPacket packet toConnection =>
      exact congrArg Prod.fst (station_enqueueTargetedPacket done)
  | enqueueBroadcastPacket packet =>
      exact congrArg Prod.fst (station_enqueueBroadcastPacket done)
  | enqueueBroadcastPacketFrom packet fromConnection fromPeer =>
      exact congrArg Prod.fst (station_enqueueBroadcastPacketFrom done)
  | connectionForConnHandle handle =>
      cases done
      exact congrArg Prod.fst (station_connectionForConnHandle before handle)
  | reportConnection uptime handle addr addressType =>
      cases done
      exact congrArg Prod.fst (station_reportConnection before uptime handle addr addressType)
  | reportConnectionWithRole uptime handle addr addressType role =>
      cases done
      have reported := station_reportConnection before uptime handle addr addressType
      have indexed := station_connectionsIndex
        (before.reportConnection uptime handle addr addressType) handle
      exact congrArg Prod.fst (indexed.trans reported)
  | reportDisconnection handle =>
      cases done
      exact congrArg Prod.fst (station_connectionsIndex before handle)
  | possiblyUpdateTimeOffset uptime timestampMs =>
      cases done
      unfold possiblyUpdateTimeOffset
      dsimp only
      split <;> rfl
  | notifyRawPacket conHandle ret =>
      cases done
      exact congrArg Prod.fst (station_rawPacketCallback .notify before conHandle ret)
  | writeRawPacket conHandle ret =>
      cases done
      exact congrArg Prod.fst (station_rawPacketCallback .write before conHandle ret)
  | addAvailablePeer | setConnectionHandleForPeer | updateConnection | updatePeer =>
      cases done
      rfl

/-- A call that enqueues the announce stamps it with the clock, and any other leaves it and
the targeted list alone. -/
theorem announceEach_stamps {uptime : UInt64} {announcedTo : List ConnectionRef}
    {connections : List BleConnection} {tracker after : Tracker}
    (done : announceEach uptime announcedTo connections tracker = some after) :
    after.announce.object = { tracker.announce.object with
        packetTimestamp := tracker.timeMs uptime } ∨
      after.announce = tracker.announce ∧
        after.targetedPacketsToSendList = tracker.targetedPacketsToSendList := by
  induction connections generalizing tracker with
  | nil =>
      cases done
      exact Or.inr ⟨rfl, rfl⟩
  | cons connection connections ih =>
      rcases announceEach_cons done with ⟨_, done⟩ | ⟨next, _, _, queued, done⟩
      · exact ih done
      · obtain ⟨announce, offset⟩ := Prod.mk.inj (station_enqueueTargetedPacket queued)
        have clock : next.timeMs uptime = tracker.timeMs uptime := by
          rw [timeMs, offset]
          rfl
        left
        rcases ih done with stamped | ⟨same, _⟩
        · rw [stamped, announce, clock]
          rfl
        · rw [same, announce]
          rfl

/-- What an announcing call makes of the announce. -/
theorem announceToConnections_stamps {uptime : UInt64} {tracker after : Tracker}
    (kept : tracker.AnnounceKept platform)
    (done : announceToConnections platform tracker uptime = some after) :
    after.announce.object = ownAnnounce platform (tracker.timeMs uptime) ∨
      after.AnnounceKept platform ∧
        after.targetedPacketsToSendList = tracker.targetedPacketsToSendList := by
  have ready : ∃ timestamp, (setupAnnounceIfNeeded platform tracker).announce.object =
      ownAnnounce platform timestamp := by
    rcases kept with fresh | ⟨timestamp, set⟩
    · refine ⟨0, ?_⟩
      rw [setupAnnounceIfNeeded, fresh, if_neg (by decide), updateAnnounce, fresh]
      rfl
    · refine ⟨timestamp, ?_⟩
      have done : tracker.announce.object.packetTtl = 3 := by
        rw [set]
        rfl
      rw [setupAnnounceIfNeeded, if_pos done, set]
  obtain ⟨timestamp, ready⟩ := ready
  have clock : (setupAnnounceIfNeeded platform tracker).timeMs uptime =
      tracker.timeMs uptime := by
    unfold setupAnnounceIfNeeded
    split <;> rfl
  have list : (setupAnnounceIfNeeded platform tracker).targetedPacketsToSendList =
      tracker.targetedPacketsToSendList :=
    congrArg Shelf.targeted (shelf_setupAnnounceIfNeeded platform tracker)
  rcases announceEach_stamps done with stamped | ⟨same, targeted⟩
  · left
    rw [stamped, ready, clock]
    rfl
  · right
    refine ⟨Or.inr ⟨timestamp, ?_⟩, targeted.trans list⟩
    rw [same, ready]

theorem announceKept_new (address : Address) : (new address).AnnounceKept platform :=
  Or.inl rfl

theorem AnnounceKept.step (kept : before.AnnounceKept platform)
    (step : OperationStep platform before operation after) : after.AnnounceKept platform := by
  by_cases announces : ∃ uptime, operation = .announceToConnections uptime
  · obtain ⟨uptime, rfl⟩ := announces
    rcases announceToConnections_stamps kept step.2 with stamped | ⟨still, _⟩
    · exact Or.inr ⟨_, stamped⟩
    · exact still
  · have same := announce_of_step step fun uptime equal => announces ⟨uptime, equal⟩
    rwa [AnnounceKept, same]

/-! ## Hearing several times -/

/-- Told of times one after the other, at one uptime. -/
def hearAll (tracker : Tracker) (uptime : UInt64) (timestamps : List UInt64) : Tracker :=
  timestamps.foldl (fun tracker timestampMs =>
    tracker.possiblyUpdateTimeOffset uptime timestampMs) tracker

/-- Times that all lie within one `MESSAGE_TIMEOUT`. -/
def Near (times : List UInt64) : Prop :=
  ∀ left ∈ times, ∀ right ∈ times, left.toNat ≤ right.toNat + messageTimeout.toNat

/-- A clock that is not far off is adopted only if it is ahead. -/
theorem adopts_iff_of_near {ours theirs : UInt64}
    (ahead : ours.toNat ≤ theirs.toNat + messageTimeout.toNat)
    (behind : theirs.toNat ≤ ours.toNat + messageTimeout.toNat) :
    Adopts ours theirs ↔ ours < theirs := by
  have oursLt := ours.toNat_lt
  have theirsLt := theirs.toNat_lt
  have timeout : messageTimeout.toNat = 300000 := rfl
  have close : clockDistance ours theirs ≤ messageTimeout.toNat := by
    simp only [clockDistance, timeout] at ahead behind ⊢
    rw [Int.bmod_def]
    split <;> omega
  have notFar : ¬ clockDistance ours theirs > messageTimeout.toNat := Nat.not_lt.mpr close
  simp [Adopts, notFar]

/-- Near times leave the clock at the greatest of them and itself. -/
theorem isGreatest_hearAll {tracker : Tracker} {uptime : UInt64} {timestamps : List UInt64}
    (near : Near (tracker.timeMs uptime :: timestamps)) :
    IsGreatest {time | time ∈ tracker.timeMs uptime :: timestamps}
      ((tracker.hearAll uptime timestamps).timeMs uptime) := by
  induction timestamps generalizing tracker with
  | nil =>
      refine ⟨List.mem_cons_self, ?_⟩
      intro time member
      exact (List.mem_singleton.mp member).le
  | cons timestampMs timestamps ih =>
      have heard := timeMs_possiblyUpdateTimeOffset tracker uptime timestampMs
      have ahead := near (tracker.timeMs uptime) (by simp) timestampMs (by simp)
      have behind := near timestampMs (by simp) (tracker.timeMs uptime) (by simp)
      simp only [adopts_iff_of_near ahead behind] at heard
      have either : (tracker.possiblyUpdateTimeOffset uptime timestampMs).timeMs uptime =
            tracker.timeMs uptime ∧ timestampMs ≤ tracker.timeMs uptime ∨
          (tracker.possiblyUpdateTimeOffset uptime timestampMs).timeMs uptime =
            timestampMs ∧ tracker.timeMs uptime ≤ timestampMs := by
        rw [heard]
        split
        · rename_i later
          exact Or.inr ⟨rfl, later.le⟩
        · rename_i earlier
          exact Or.inl ⟨rfl, not_lt.mp earlier⟩
      have listed : ∀ time ∈ (tracker.possiblyUpdateTimeOffset uptime timestampMs).timeMs
          uptime :: timestamps, time ∈ tracker.timeMs uptime :: timestampMs :: timestamps := by
        intro time member
        rcases List.mem_cons.mp member with rfl | later
        · rcases either with ⟨same, _⟩ | ⟨same, _⟩ <;> simp [same]
        · simp [later]
      obtain ⟨member, greatest⟩ := ih fun left leftMember right rightMember =>
        near left (listed left leftMember) right (listed right rightMember)
      refine ⟨listed _ member, ?_⟩
      have clock := greatest (List.mem_cons_self)
      intro time member
      rcases List.mem_cons.mp member with rfl | member
      · rcases either with ⟨same, _⟩ | ⟨same, le⟩
        · exact same.symm.trans_le clock
        · exact le.trans (same.symm.trans_le clock)
      · rcases List.mem_cons.mp member with rfl | later
        · rcases either with ⟨same, le⟩ | ⟨same, _⟩
          · exact le.trans (same.symm.trans_le clock)
          · exact same.symm.trans_le clock
        · exact greatest (List.mem_cons_of_mem _ later)

/-- Told at one uptime of times that lie with its clock within one `MESSAGE_TIMEOUT`, a
tracker ends with the greatest of them and its clock, whatever their order and however often
each is told, and on the way its clock never goes back. -/
theorem clock_orderIndependent {tracker : Tracker} {uptime : UInt64}
    {timestamps : List UInt64} (near : Near (tracker.timeMs uptime :: timestamps)) :
    IsGreatest {time | time ∈ tracker.timeMs uptime :: timestamps}
        ((tracker.hearAll uptime timestamps).timeMs uptime) ∧
      (∀ others : List UInt64, (∀ time, time ∈ others ↔ time ∈ timestamps) →
        (tracker.hearAll uptime others).timeMs uptime =
          (tracker.hearAll uptime timestamps).timeMs uptime) ∧
      ∀ earlier middle later, timestamps = earlier ++ middle ++ later →
        (tracker.hearAll uptime earlier).timeMs uptime ≤
          (tracker.hearAll uptime (earlier ++ middle)).timeMs uptime := by
  have fewer : ∀ others : List UInt64, (∀ time ∈ others, time ∈ timestamps) →
      IsGreatest {time | time ∈ tracker.timeMs uptime :: others}
        ((tracker.hearAll uptime others).timeMs uptime) := by
    intro others listed
    have included : ∀ time ∈ tracker.timeMs uptime :: others,
        time ∈ tracker.timeMs uptime :: timestamps := by
      intro time member
      rcases List.mem_cons.mp member with rfl | other
      · simp
      · exact List.mem_cons_of_mem _ (listed time other)
    exact isGreatest_hearAll fun left leftMember right rightMember =>
      near left (included left leftMember) right (included right rightMember)
  refine ⟨isGreatest_hearAll near, ?_, ?_⟩
  · intro others same
    have greatest := fewer others fun time => (same time).mp
    have sets : {time | time ∈ tracker.timeMs uptime :: others} =
        {time | time ∈ tracker.timeMs uptime :: timestamps} := by
      ext time
      simp [same]
    rw [sets] at greatest
    exact greatest.unique (isGreatest_hearAll near)
  · intro earlier middle later split
    subst split
    have before := fewer earlier fun time member => by simp [member]
    have after := fewer (earlier ++ middle) fun time member =>
      List.mem_append_left later member
    apply after.2
    rcases List.mem_cons.mp before.1 with clock | heard
    · exact List.mem_cons.mpr (Or.inl clock)
    · exact List.mem_cons_of_mem _ (List.mem_append_left middle heard)

/-- A clock at 5 that is told of 7, 6 and 7 again. -/
theorem clock_orderIndependent_three :
    IsGreatest {time | time ∈ (new 100).timeMs 5000 :: [7, 6, 7]}
      (((new 100).hearAll 5000 [7, 6, 7]).timeMs 5000) ∧
    ((new 100).hearAll 5000 [6, 7]).timeMs 5000 =
      ((new 100).hearAll 5000 [7, 6, 7]).timeMs 5000 := by
  have near : Near ((new 100).timeMs 5000 :: [7, 6, 7]) := by
    intro left leftMember right rightMember
    have bounds : ∀ time ∈ (new 100).timeMs 5000 :: [7, 6, 7], 5 ≤ time.toNat ∧
        time.toNat ≤ 7 := by
      intro time member
      simp only [List.mem_cons, List.not_mem_nil, or_false] at member
      rcases member with rfl | rfl | rfl | rfl <;> decide
    have high := (bounds left leftMember).2
    have timeout : messageTimeout.toNat = 300000 := rfl
    omega
  obtain ⟨greatest, others, _⟩ := clock_orderIndependent near
  refine ⟨greatest, others [6, 7] ?_⟩
  intro time
  simp only [List.mem_cons, List.not_mem_nil, or_false]
  tauto

end BleRepeater.Tracker
