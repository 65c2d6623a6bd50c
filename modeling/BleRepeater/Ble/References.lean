import BleRepeater.Ble.Effects

/-!
# Packet references

Four lists refer to packets by pointer.  Cleaning up erases messages and packets by their
age in milliseconds, but entries of two of the lists by an age that takes the same
timestamp for one in milliseconds already.  The references to a packet stay live in every run
whose clean-ups find no entry of it that outlives it.
-/

namespace BleRepeater.Tracker

open Transition

/-- No list holds a dangling pointer to a packet. -/
def ReferencesLive (tracker : Tracker) : Prop :=
  ∀ packet, tracker.Refers packet → tracker.Live packet

/-- An entry that a clean-up keeps while it erases the packet: the packet is too old by
its timestamp in milliseconds, but not by the timestamp itself, and the connection is
connected or has been seen recently. -/
def Outlives (tracker : Tracker) (now : UInt64) (packet : Address) (ref : ConnectionRef) :
    Prop :=
  packet ≠ tracker.announce.address ∧
    ∃ object connection, tracker.packetAt packet = some object ∧
      tracker.connectionAt ref = some connection ∧
      stale object.base.packetTimestampMs now = true ∧
      stale object.base.packetTimestamp now = false ∧
      connectionStale now connection = false

/-- A clean-up finds no entry that outlives its packet. -/
def CleanupSafe (tracker : Tracker) : Operation → Prop
  | .cleanupStaleItems uptime => ∀ packet ref,
      (packet, ref) ∈ tracker.packetsConnectionsSentList.entries ∨
        (packet, ref) ∈ tracker.targetedPacketsToSendList.entries →
      ¬ tracker.Outlives (tracker.timeMs uptime) packet ref
  | _ => True

/-- The pointers to one packet do not dangle. -/
def ReferenceLive (tracker : Tracker) (packet : Address) : Prop :=
  tracker.Refers packet → tracker.Live packet

/-- A clean-up finds no entry of one packet that outlives it. -/
def CleanupSafeFor (packet : Address) (tracker : Tracker) : Operation → Prop
  | .cleanupStaleItems uptime => ∀ ref,
      (packet, ref) ∈ tracker.packetsConnectionsSentList.entries ∨
        (packet, ref) ∈ tracker.targetedPacketsToSendList.entries →
      ¬ tracker.Outlives (tracker.timeMs uptime) packet ref
  | _ => True

theorem cleanupSafe_iff {tracker : Tracker} {operation : Operation} :
    tracker.CleanupSafe operation ↔ ∀ packet, tracker.CleanupSafeFor packet operation := by
  cases operation with
  | cleanupStaleItems uptime => exact Iff.rfl
  | _ => exact iff_of_true trivial fun _ => trivial

theorem Relists.referenceLive {before after : Tracker} {broadcasts targets : Address → Prop}
    {packet : Address} (relists : Relists before after broadcasts targets)
    (live : before.ReferenceLive packet)
    (enqueued : broadcasts packet ∨ targets packet → before.Live packet) :
    after.ReferenceLive packet := by
  intro referred
  rw [relists.live_iff]
  exact (relists.refers packet referred).elim live enqueued

theorem Stores.referenceLive {before after : Tracker} {fresh : Address} {new : Place}
    {object : Packet} {packet : Address} (stores : Stores before after fresh new object)
    (live : before.ReferenceLive packet) : after.ReferenceLive packet := by
  intro referred
  obtain ⟨place, other, holds⟩ := live_iff.mp (live (stores.refers packet referred))
  exact live_iff.mpr ⟨place, other, stores.kept holds⟩

namespace Cleans

variable {before after : Tracker} {now : UInt64}

/-- A packet that is not too old by its timestamp in milliseconds stays. -/
theorem live (cleans : Cleans before after now) {packet : Address} {object : Packet}
    (found : before.packetAt packet = some object)
    (recent : stale object.base.packetTimestampMs now = false) : after.Live packet := by
  obtain ⟨place, holds⟩ := holds_of_packetAt found
  exact live_iff.mpr ⟨place, object, cleans.kept holds (Or.inr recent)⟩

/-- The packet of an entry that is kept and does not outlive it stays. -/
theorem live_of_entry (cleans : Cleans before after now) {packet : Address}
    {ref : ConnectionRef}
    (kept : before.packetConnectionStale now packet ref = some false)
    (safe : ¬ before.Outlives now packet ref) : after.Live packet := by
  obtain ⟨object, connection, found, followed, recent, seen⟩ :=
    packetConnectionStale_eq_false.mp kept
  by_cases own : packet = before.announce.address
  · rw [own, ← cleans.announce]
    exact live_announce after
  · cases age : stale object.base.packetTimestampMs now with
    | false => exact cleans.live found age
    | true => exact absurd ⟨own, object, connection, found, followed, age, recent, seen⟩ safe

/-- A packet that is too old by its timestamp in milliseconds is gone. -/
theorem not_live (cleans : Cleans before after now) (separate : before.Separate)
    {packet : Address} {object : Packet} (other : packet ≠ before.announce.address)
    (found : before.packetAt packet = some object)
    (old : stale object.base.packetTimestampMs now = true) : ¬ after.Live packet := by
  intro there
  obtain ⟨place, remaining, holds⟩ := live_iff.mp there
  obtain ⟨was, recent⟩ := cleans.holds holds
  have same := separate.packetAt_iff.mpr ⟨place, was⟩
  cases found.symm.trans same
  have stored : place ≠ .announce := by
    rintro rfl
    cases was with
    | announce own => exact other own.symm
  exact absurd (old.symm.trans (recent stored)) (by simp)

end Cleans

/-- A clean-up leaves the references to a packet live exactly when no entry outlives it. -/
theorem cleanup_referenceLive_iff {before after : Tracker} {uptime : UInt64}
    {packet : Address} (separate : before.Separate)
    (done : before.cleanupStaleItems uptime = some after) :
    after.ReferenceLive packet ↔ before.CleanupSafeFor packet (.cleanupStaleItems uptime) := by
  have cleans := cleans_cleanupStaleItems done
  constructor
  · intro live ref listed outlives
    obtain ⟨other, object, connection, found, followed, old, recent, seen⟩ := outlives
    apply cleans.not_live separate other found old
    have kept := packetConnectionStale_eq_false.mpr
      ⟨object, connection, found, followed, recent, seen⟩
    apply live
    rcases listed with sent | targeted
    · exact Or.inl ⟨ref, (cleans.sent _).mpr ⟨sent, kept⟩⟩
    · exact Or.inr (Or.inr (Or.inr ⟨ref, (cleans.targeted _).mpr ⟨targeted, kept⟩⟩))
  · intro safe referred
    rcases referred with ⟨ref, sent⟩ | ⟨peer, peers⟩ | broadcast | ⟨ref, targeted⟩
    · obtain ⟨listed, kept⟩ := (cleans.sent _).mp sent
      exact cleans.live_of_entry kept (safe ref (Or.inl listed))
    · obtain ⟨object, found, recent⟩ :=
        packetStale_eq_false.mp ((cleans.sentToPeers _).mp peers).2
      exact cleans.live found recent
    · obtain ⟨object, found, recent⟩ :=
        packetStale_eq_false.mp ((cleans.broadcast _).mp broadcast).2
      exact cleans.live found recent
    · obtain ⟨listed, kept⟩ := (cleans.targeted _).mp targeted
      exact cleans.live_of_entry kept (safe ref (Or.inr listed))

/-! ## Runs -/

theorem cleanupSafeFor_of_other {packet : Address} {tracker : Tracker} {operation : Operation}
    (other : ∀ uptime, operation ≠ .cleanupStaleItems uptime) :
    tracker.CleanupSafeFor packet operation := by
  cases operation with
  | cleanupStaleItems uptime => exact absurd rfl (other uptime)
  | _ => trivial

section Steps

variable {platform : Platform} {before after : Tracker} {operation : Operation}

/-- One operation keeps the references to a packet live exactly when it is no clean-up that
finds an entry of it that outlives it. -/
theorem ReferenceLive.step_iff {packet : Address} (live : before.ReferenceLive packet)
    (separate : before.Separate) (step : OperationStep platform before operation after) :
    before.CleanupSafeFor packet operation ↔ after.ReferenceLive packet := by
  cases effect_of_step step with
  | relists other relists =>
      have kept := relists.referenceLive live (live_of_enqueued step)
      exact ⟨fun _ => kept, fun _ => cleanupSafeFor_of_other other⟩
  | stores other _ _ stores =>
      exact ⟨fun _ => stores.referenceLive live, fun _ => cleanupSafeFor_of_other other⟩
  | cleans uptime _ => exact (cleanup_referenceLive_iff separate step.2).symm

/-- One operation keeps references live exactly when it is no clean-up that finds an entry
that outlives its packet. -/
theorem ReferencesLive.step_iff (live : before.ReferencesLive) (separate : before.Separate)
    (step : OperationStep platform before operation after) :
    before.CleanupSafe operation ↔ after.ReferencesLive := by
  rw [cleanupSafe_iff]
  exact forall_congr' fun packet => ReferenceLive.step_iff (live packet) separate step

end Steps

theorem referencesLive_new (address : Address) : (new address).ReferencesLive := by
  intro packet referred
  simp [Refers, new] at referred

/-- The runs whose clean-ups find no entry that outlives its packet are the runs in which
no list ever holds a dangling pointer to a packet. -/
theorem cleanupSafe_run_iff (platform : Platform) (address : Address)
    (operations : List Operation) (tracker : Tracker) :
    Run (Guarded CleanupSafe (OperationStep platform)) (new address) operations tracker ↔
      Run (fun before operation after => OperationStep platform before operation after ∧
        after.ReferencesLive) (new address) operations tracker := by
  have kept : ∀ {before operation after}, before.ReferencesLive ∧ before.Separate →
      OperationStep platform before operation after → after.ReferencesLive →
      after.ReferencesLive ∧ after.Separate :=
    fun sound step live => ⟨live, sound.2.step step⟩
  apply Iff.symm
  exact Run.guarded_iff_of_invariant kept
    (fun sound step => (sound.1.step_iff sound.2 step).symm)
    ⟨referencesLive_new address, separate_new address⟩

/-- A message sent at 1000 ms, and received over a connection that stays up, is cleaned up
at 700000 ms. -/
def keptConnection : List Operation :=
  [.reportConnection 0 0x40 [1, 2, 3, 4, 5, 6] 0,
    .storeMessageAndReturnIfNew 200
      { packetType := typeMessage, packetTtl := 3, packetTimestamp := 1000000 },
    .checkSenderInPeers 0,
    .enqueueBroadcastPacketFrom 200 ⟨0x40, 0⟩ 0,
    .cleanupStaleItems 700000000]

/-- The message is erased, but not the entry that says where it came from. -/
theorem cleanupStaleItems_dangles :
    ∃ tracker, Run (OperationStep bytesSummed) (new 100) keptConnection tracker ∧
      (200, ⟨0x40, 0⟩) ∈ tracker.packetsConnectionsSentList.entries ∧
      tracker.packetAt 200 = none ∧ ¬ tracker.ReferencesLive := by
  have outcome : (follow (Operation.next bytesSummed · ·) keptConnection (new 100)).map
      (fun tracker =>
        (tracker.packetsConnectionsSentList.entries, tracker.packetAt 200)) =
      some ([(200, ⟨0x40, 0⟩)], none) := by decide
  obtain ⟨tracker, done, same⟩ := Option.map_eq_some_iff.mp outcome
  obtain ⟨sent, erased⟩ := Prod.mk.inj same
  have listed : (200, ⟨0x40, 0⟩) ∈ tracker.packetsConnectionsSentList.entries := by
    simp [sent]
  refine ⟨tracker, Run.of_follow step_of_next done, listed, erased, ?_⟩
  intro live
  have there := live 200 (Or.inl ⟨_, listed⟩)
  rw [Live, erased] at there
  cases there

end BleRepeater.Tracker
