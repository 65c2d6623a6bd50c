import BleRepeater.Main.AnnounceOnce
import BleRepeater.Ble.References

/-!
# Open links

`announceToConnections` checks that a link is open when it enqueues, and the broadcast loop
of `sendPackets` when it sends.  The targeted loop does not check, so it also sends for a
link that was closed in between.
-/

namespace BleRepeater.Tracker

/-- A connection that is connected and whose value handle is known. -/
def OpenAt (tracker : Tracker) (ref : ConnectionRef) : Prop :=
  ∃ connection, tracker.connectionAt ref = some connection ∧ connection.connected = true ∧
    connection.packetCharacteristicValueHandle > 0

/-- Every targeted packet waits for an open link. -/
def TargetsOpen (tracker : Tracker) : Prop :=
  ∀ entry ∈ tracker.targetedPacketsToSendList.entries, tracker.OpenAt entry.2

/-! ## What one call sends for -/

theorem openAt_of_settled {before after : Tracker} (same : after.settled = before.settled)
    (ref : ConnectionRef) : after.OpenAt ref ↔ before.OpenAt ref := by
  have settled : ∀ tracker : Tracker, tracker.settled.OpenAt ref ↔ tracker.OpenAt ref := by
    intro tracker
    have quiet : tracker.settled.connectionAt ref = (tracker.connectionAt ref).map
        fun connection => { connection with hasDataToSend := false } :=
      connectionAt_quiet tracker ref
    simp only [OpenAt, quiet]
    cases tracker.connectionAt ref <;> simp
  rw [← settled after, same, settled before]

theorem openAt_of_available {tracker : Tracker} {ref : ConnectionRef}
    (member : ref ∈ tracker.availableConnections) : tracker.OpenAt ref := by
  obtain ⟨entry, inside, rfl⟩ := List.mem_map.mp member
  obtain ⟨listed, open'⟩ := List.mem_filter.mp inside
  simp only [available, Bool.and_eq_true, decide_eq_true_eq] at open'
  exact ⟨entry.2.connection,
    connectionAt_eq_some_iff.mpr (OrderedMap.find?_eq_some_iff.mpr listed), open'⟩

theorem openAt_of_broadcastPairs {tracker : Tracker} {pair : Address × ConnectionRef}
    (listed : pair ∈ tracker.broadcastPairs) : tracker.OpenAt pair.2 := by
  exact openAt_of_available (mem_broadcastPairs.mp listed).2

section Call

variable {tracker after : Tracker} {targeted broadcast : List Consideration}

/-- The links that a call sends for are open exactly when the targeted ones are. -/
theorem Announcing.handed_open_iff (announcing : tracker.Announcing)
    (sent : tracker.sendPackets = some (after, targeted, broadcast)) :
    (∀ consideration ∈ targeted ++ broadcast, consideration.handed = true →
      consideration.before.OpenAt consideration.connection) ↔ tracker.TargetsOpen := by
  obtain ⟨early, late⟩ := decided_of_sendPackets sent
  have effect := sendPackets_sendsOnly sent
  constructor
  · intro opens entry waits
    obtain ⟨consideration, member, handed, same, _⟩ := announcing.targeted_handed sent waits
    have opened := opens consideration (List.mem_append_left _ member) handed
    rwa [openAt_of_settled (early consideration member).settled, same] at opened
  · intro opens consideration member _
    rcases List.mem_append.mp member with first | second
    · rw [openAt_of_settled (early consideration first).settled]
      exact opens _ (effect.pair_of_targeted first)
    · rw [openAt_of_settled (late consideration second).settled]
      exact openAt_of_broadcastPairs (effect.pair_of_broadcast second)

/-- So are the links that it records. -/
theorem Announcing.recorded_open_iff (announcing : tracker.Announcing)
    (sent : tracker.sendPackets = some (after, targeted, broadcast)) :
    (∀ entry ∈ after.packetsConnectionsSentList.entries,
      entry ∈ tracker.packetsConnectionsSentList.entries ∨ tracker.OpenAt entry.2) ↔
        tracker.TargetsOpen := by
  obtain ⟨early, late⟩ := decided_of_sendPackets sent
  have effect := sendPackets_sendsOnly sent
  constructor
  · intro opens entry waits
    obtain ⟨announces, handled, unrecorded⟩ := announcing.waiting entry waits
    obtain ⟨consideration, member, handed, link, packet⟩ :=
      announcing.targeted_handed sent waits
    have records : entry ∈ after.packetsConnectionsSentList.entries :=
      (effect.sent entry).mpr (Or.inr ⟨consideration, List.mem_append_left _ member, handed,
        by rw [link, packet]⟩)
    refine (opens entry records).resolve_left fun old => unrecorded ⟨entry.2, ?_, handled⟩
    rw [← announces]
    exact old
  · intro opens entry recorded
    refine ((effect.sent entry).mp recorded).imp id ?_
    rintro ⟨consideration, member, handed, rfl⟩
    have opened := (announcing.handed_open_iff sent).mpr opens consideration member handed
    rcases List.mem_append.mp member with first | second
    · exact (openAt_of_settled (early consideration first).settled _).mp opened
    · exact (openAt_of_settled (late consideration second).settled _).mp opened

end Call

end BleRepeater.Tracker

namespace BleRepeater.Repeater

open Transition Tracker ProtocolProcessor

/-! ## What an event sends for -/

/-- Every packet that `sendPackets` hands over is for a link that is open at that moment. -/
def HandsToOpen (repeater : Repeater) : Event → Prop
  | .tracker .sendPackets => ∀ after targeted broadcast,
      repeater.tracker.sendPackets = some (after, targeted, broadcast) →
      ∀ consideration ∈ targeted ++ broadcast, consideration.handed = true →
        consideration.before.OpenAt consideration.connection
  | _ => True

/-- Every pair that the sent list gains is of a link that is open. -/
def RecordsOpen (before after : Repeater) : Prop :=
  ∀ entry ∈ after.tracker.packetsConnectionsSentList.entries,
    entry ∈ before.tracker.packetsConnectionsSentList.entries ∨
      before.tracker.OpenAt entry.2

/-- At a call of `sendPackets` the links of the targeted packets are open. -/
def SendsTargeted (repeater : Repeater) : Event → Prop
  | .tracker .sendPackets => repeater.tracker.TargetsOpen
  | _ => True

/-- A packet that is new comes in over an open link. -/
def ReceivesOpen (platform : Platform) (repeater : Repeater) : Event → Prop
  | .processWrite _ _ connection _ offset buffer =>
      (received offset buffer).New platform repeater.tracker →
        repeater.tracker.OpenAt connection
  | _ => True

/-- What the runs below keep: the objects lie apart, the lists name objects that are there,
and the own announce waits as it should. -/
structure Orderly (repeater : Repeater) : Prop where
  separate : repeater.tracker.Separate
  live : repeater.tracker.ReferencesLive
  announcing : repeater.tracker.Announcing

variable {platform : Platform} {before after : Repeater} {event : Event}

theorem orderly_new (address : Address) : (new address).Orderly :=
  ⟨separate_new address, referencesLive_new address, announcing_new address⟩

theorem noCleanup_of_performs (lasts : event.Lasts) {tracker : Tracker}
    {operation : Operation} (performs : event.Performs platform before tracker operation) :
    ∀ uptime, operation ≠ .cleanupStaleItems uptime := by
  cases event with
  | gpioCallback gpio fell => exact performs.elim
  | handlePinActivity uptime address => exact performs.noCleanup
  | processWrite uptime address connection conHandle offset buffer =>
      exact performs.noCleanup
  | tracker other =>
      cases performs
      exact lasts.noCleanup

/-- Clean-ups apart, an event leaves the references to a packet live. -/
theorem referenceLive_of_event (separate : before.tracker.Separate) (lasts : event.Lasts)
    (step : EventStep platform before event after) {packet : Address}
    (live : before.tracker.ReferenceLive packet) : after.tracker.ReferenceLive packet := by
  have kept : after.tracker.ReferenceLive packet ∧ after.tracker.Separate :=
    invariant_of_event (fun tracker => tracker.ReferenceLive packet ∧ tracker.Separate)
      separate step (fun held performs step =>
        have safe := cleanupSafeFor_of_other (noCleanup_of_performs lasts performs)
        ⟨(held.1.step_iff held.2 step).mp safe, held.2.step step⟩) ⟨live, separate⟩
  exact kept.1

theorem Orderly.step (orderly : before.Orderly) (lasts : event.Lasts)
    (step : EventStep platform before event after) : after.Orderly := by
  have separate := orderly.separate
  exact ⟨separate_of_event separate step,
    fun packet => referenceLive_of_event separate lasts step (orderly.live packet),
    announcing_of_event separate orderly.announcing lasts.keepsHandles step⟩

/-- A call of `sendPackets` as an event. -/
theorem sendPackets_of_event (step : EventStep platform before (.tracker .sendPackets) after) :
    ∃ targeted broadcast,
      before.tracker.sendPackets = some (after.tracker, targeted, broadcast) := by
  obtain ⟨⟨last, targeted, broadcast⟩, sent, result⟩ :=
    Option.map_eq_some_iff.mp (operation_of_event step).2
  cases result
  exact ⟨targeted, broadcast, sent⟩

theorem handsToOpen_iff (orderly : before.Orderly)
    (step : EventStep platform before event after) :
    before.HandsToOpen event ↔ before.SendsTargeted event := by
  by_cases sends : event = .tracker .sendPackets
  · subst sends
    obtain ⟨targeted, broadcast, sent⟩ := sendPackets_of_event step
    change _ ↔ before.tracker.TargetsOpen
    rw [← orderly.announcing.handed_open_iff sent]
    constructor
    · intro opens
      exact opens after.tracker targeted broadcast sent
    · intro opens last early late same
      cases sent.symm.trans same
      exact opens
  · have idle : before.HandsToOpen event ∧ before.SendsTargeted event := by
      cases event with
      | tracker operation =>
          cases operation with
          | sendPackets => exact absurd rfl sends
          | _ => exact ⟨trivial, trivial⟩
      | _ => exact ⟨trivial, trivial⟩
    exact iff_of_true idle.1 idle.2

theorem board_enqueueBroadcastPacket {tracker after : Tracker} {packet : Address}
    (done : tracker.enqueueBroadcastPacket packet = some after) :
    after.board = tracker.board := by
  rw [enqueueBroadcastPacket_frame done]
  rfl

/-- Handling the pins records nothing. -/
theorem sent_handlePinActivity {uptime : UInt64} {address : Address}
    (done : before.handlePinActivity platform uptime address = some after) :
    after.tracker.packetsConnectionsSentList =
      before.tracker.packetsConnectionsSentList := by
  rcases handlePinActivity_cases done with idle | ⟨_, queued⟩
  · rw [idle]
  · have board := (board_enqueueBroadcastPacket queued).trans
      (board_storeMessageAndReturnIfNew before.tracker address _)
    exact congrArg Board.sent board

theorem recordsOpen_iff (orderly : before.Orderly) (lasts : event.Lasts)
    (step : EventStep platform before event after) :
    RecordsOpen before after ↔
      before.SendsTargeted event ∧ ReceivesOpen platform before event := by
  cases event with
  | gpioCallback gpio fell =>
      cases step.2
      exact iff_of_true (fun entry => Or.inl) ⟨trivial, trivial⟩
  | handlePinActivity uptime address =>
      refine iff_of_true (fun entry recorded => Or.inl ?_) ⟨trivial, trivial⟩
      exact sent_handlePinActivity step.2 ▸ recorded
  | processWrite uptime address connection conHandle offset buffer =>
      obtain ⟨free, done⟩ := @processWrite_of_step platform before after
        ⟨uptime, address, connection, conHandle, offset, buffer⟩ step
      by_cases new : (received offset buffer).New platform before.tracker
      · have sent : after.tracker.packetsConnectionsSentList =
            before.tracker.packetsConnectionsSentList.emplace address connection :=
          congrArg Board.sent (board_processWrite_new new done)
        simp only [RecordsOpen, sent, MultiMap.mem_emplace]
        constructor
        · intro records
          refine ⟨trivial, fun _ => ?_⟩
          refine (records (address, connection) (Or.inl rfl)).resolve_left fun old => ?_
          -- the sent list names packets that are there, and the new one was not
          exact not_live free (orderly.live address (Or.inl ⟨connection, old⟩))
        · rintro ⟨_, open'⟩ entry (rfl | old)
          · exact Or.inr (open' new)
          · exact Or.inl old
      · have sent : after.tracker.packetsConnectionsSentList =
            before.tracker.packetsConnectionsSentList :=
          congrArg Board.sent (board_processWrite_known new done)
        refine iff_of_true (fun entry recorded => Or.inl (sent ▸ recorded)) ⟨trivial, ?_⟩
        exact fun heard => absurd heard new
  | tracker operation =>
      by_cases sends : operation = .sendPackets
      · subst sends
        obtain ⟨targeted, broadcast, sent⟩ := sendPackets_of_event step
        exact (orderly.announcing.recorded_open_iff sent).trans (and_iff_left trivial).symm
      · refine iff_of_true (fun entry recorded => Or.inl ?_) ?_
        · exact (sent_of_step (operation_of_event step) lasts orderly.announcing.known sends
            recorded).resolve_right (not_broadcasts_of_direct step.1 entry.1)
        · cases operation with
          | sendPackets => exact absurd rfl sends
          | _ => exact ⟨trivial, trivial⟩

/-! ## Runs -/

/-- One event that cleans nothing up, and whose setter leaves handles alone. -/
def LastingStep (platform : Platform) : Repeater → Event → Repeater → Prop :=
  Guarded (fun _ event => event.Lasts) (EventStep platform)

/-- The runs in which all that `sendPackets` hands over is for links that are open at that
moment are those in which, at every call, the links of the targeted packets are open.  The
runs in which only open links are recorded are those of them in which new packets also come
in over open links only, as receiving records the link as well. -/
theorem sends_onlyOpen_iff (platform : Platform) (address : Address) (events : List Event)
    (finish : Repeater) :
    (Run (fun before event after => LastingStep platform before event after ∧
        before.HandsToOpen event) (new address) events finish ↔
      Run (Guarded SendsTargeted (LastingStep platform)) (new address) events finish) ∧
    (Run (fun before event after => LastingStep platform before event after ∧
        RecordsOpen before after) (new address) events finish ↔
      Run (Guarded (fun repeater event => repeater.SendsTargeted event ∧
        ReceivesOpen platform repeater event) (LastingStep platform)) (new address) events
          finish) := by
  constructor
  · exact Run.guarded_iff_of_invariant
      (fun orderly step _ => Orderly.step orderly step.1 step.2)
      (fun orderly step => handsToOpen_iff orderly step.2) (orderly_new address)
  · exact Run.guarded_iff_of_invariant
      (fun orderly step _ => Orderly.step orderly step.1 step.2)
      (fun orderly step => recordsOpen_iff orderly step.1 step.2) (orderly_new address)

/-- A link opens and is announced to, and closes. -/
def announcedAndClosed : List Event :=
  [.tracker (.reportConnection 0 0x40 [1, 2, 3, 4, 5, 6] 0),
    .tracker (.updateConnection ⟨0x40, 0⟩ fun connection =>
      { connection with packetCharacteristicValueHandle := 9 }),
    .processWrite 0 200 ⟨0x40, 0⟩ 0x40 0
      ⟨[1, 65, 3, 1, 0, 0, 0, 0, 0, 0, 0, 0, 0, 0, 0, 0, 0, 0, 0, 8, 0], by decide⟩,
    .tracker (.announceToConnections 0),
    .tracker (.reportDisconnection 0x40)]

/-- When the main loop sends after that, the announce is handed over for the closed link, and
recorded as sent. -/
theorem sends_closed :
    ∃ finish, Run (LastingStep bytesSummed) (new 100)
        (announcedAndClosed ++ [.tracker .sendPackets]) finish ∧
      ¬ Run (fun before event after => LastingStep bytesSummed before event after ∧
          before.HandsToOpen event) (new 100)
          (announcedAndClosed ++ [.tracker .sendPackets]) finish ∧
      ¬ Run (fun before event after => LastingStep bytesSummed before event after ∧
          RecordsOpen before after) (new 100)
          (announcedAndClosed ++ [.tracker .sendPackets]) finish := by
  have outcome : ((follow (fun repeater event => event.next bytesSummed repeater)
      announcedAndClosed (new 100)).bind fun closed =>
        (Event.next bytesSummed closed (.tracker .sendPackets)).map fun _ =>
          (closed.tracker.targetedPacketsToSendList.entries,
            (closed.tracker.connectionAt ⟨0x40, 0⟩).map BleConnection.connected)) =
      some ([(100, ⟨0x40, 0⟩)], some false) := by decide
  obtain ⟨closed, followed, rest⟩ := Option.bind_eq_some_iff.mp outcome
  obtain ⟨finish, sends, shows⟩ := Option.map_eq_some_iff.mp rest
  obtain ⟨waits, state⟩ := Prod.mk.inj shows
  have lasts : ∀ event ∈ announcedAndClosed, event.Lasts := by
    intro event member
    simp only [announcedAndClosed, List.mem_cons, List.not_mem_nil, or_false] at member
    rcases member with rfl | rfl | rfl | rfl | rfl
    · exact ⟨trivial, by simp⟩
    · exact ⟨fun connection => ⟨rfl, rfl⟩, by simp⟩
    · trivial
    · exact ⟨trivial, by simp⟩
    · exact ⟨trivial, by simp⟩
  have run : Run (LastingStep bytesSummed) (new 100) announcedAndClosed closed :=
    (Run.of_follow event_of_next followed).guard lasts
  have last : LastingStep bytesSummed closed (.tracker .sendPackets) finish :=
    ⟨⟨trivial, by simp⟩, event_of_next sends⟩
  have orderly : closed.Orderly :=
    run.invariant (fun orderly step => Orderly.step orderly step.1 step.2) (orderly_new 100)
  have targets : ¬ closed.SendsTargeted (.tracker .sendPackets) := by
    intro opens
    obtain ⟨connection, found, connected, _⟩ := opens (100, ⟨0x40, 0⟩) (by simp [waits])
    rw [found, Option.map_some, connected] at state
    cases state
  have functional : ∀ {before event left right}, LastingStep bytesSummed before event left →
      LastingStep bytesSummed before event right → left = right :=
    fun left right => eventStep_functional left.2 right.2
  refine ⟨finish, run.snoc last, ?_, ?_⟩
  · intro hands
    obtain ⟨middle, first, rest⟩ := hands.exists_of_append
    cases run.eq_of_functional functional (first.mono And.left)
    cases rest with
    | cons head _ => exact targets ((handsToOpen_iff orderly head.1.2).mp head.2)
  · intro records
    obtain ⟨middle, first, rest⟩ := records.exists_of_append
    cases run.eq_of_functional functional (first.mono And.left)
    cases rest with
    | cons head _ =>
        exact targets ((recordsOpen_iff orderly head.1.1 head.1.2).mp head.2).1

end BleRepeater.Repeater
