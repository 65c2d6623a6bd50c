import BleRepeater.Main.Repeater

/-!
# Flooding

A repeater floods what it receives, each packet once.  The first packet with an id is
stored and enqueued, and a later one with that id changes nothing; of a later announce with
the same meta data nothing but the name of the peer and the clock is taken.
-/

namespace BleRepeater

open BinaryReader Transition Tracker ProtocolProcessor Repeater

/-- A call of `processWrite`. -/
structure Write where
  uptime : UInt64
  address : Address
  connection : ConnectionRef
  conHandle : UInt16
  offset : UInt16
  buffer : Buffer

namespace Write

/-- A call as an event. -/
def event (write : Write) : Event :=
  .processWrite write.uptime write.address write.connection write.conHandle write.offset
    write.buffer

/-- What the call finds in its buffer. -/
def received (write : Write) : Received :=
  ProtocolProcessor.received write.offset write.buffer

/-- The call brings a message under an id. -/
def Carries (id : Bytes) (write : Write) : Prop :=
  ∃ message, write.received = .message message ∧ message.messageId = id

end Write

/-- One call of `processWrite`. -/
def WriteStep (platform : Platform) (before : Repeater) (write : Write) (after : Repeater) :
    Prop :=
  EventStep platform before write.event after

section Calls

variable {platform : Platform} {before after start finish : Repeater} {write : Write}
  {writes : List Write}

theorem processWrite_of_step (step : WriteStep platform before write after) :
    before.tracker.packetAt write.address = none ∧
      processWrite platform before.tracker write.uptime write.address write.connection
        write.conHandle write.offset write.buffer = some after.tracker := by
  obtain ⟨free, done⟩ := step
  obtain ⟨tracker, processed, same⟩ := Option.bind_eq_some_iff.mp done
  cases same
  exact ⟨free, processed⟩

theorem separate_of_writes (separate : start.tracker.Separate)
    (run : Run (WriteStep platform) start writes finish) : finish.tracker.Separate :=
  run.invariant (fun separate step => separate_of_event separate step) separate

/-! ## Messages -/

/-- A call leaves the messages as they are, or adds the one that it brings. -/
theorem messages_of_write (step : WriteStep platform before write after) :
    after.tracker.messages = before.tracker.messages ∨
      ∃ message, write.received = .message message ∧
        before.tracker.messages.find? message.messageId = none ∧
        after.tracker.messages = before.tracker.messages.insert message.messageId
          ⟨write.address, message⟩ := by
  obtain ⟨_, done⟩ := processWrite_of_step step
  cases found : ProtocolProcessor.received write.offset write.buffer with
  | ignored =>
      simp only [processWrite, found] at done
      exact Or.inl (congrArg Tracker.messages (Option.some.inj done)).symm
  | announce announce =>
      simp only [processWrite, found] at done
      exact Or.inl (messages_processAnnounce done)
  | message message =>
      simp only [processWrite, found] at done
      cases known : before.tracker.messages.find? message.messageId with
      | some entry =>
          rw [processMessage_known known] at done
          exact Or.inl (congrArg Tracker.messages (Option.some.inj done)).symm
      | none => exact Or.inr ⟨message, found, known, messages_processMessage_new known done⟩

/-- A stored message stays. -/
theorem message_stays {id : Bytes} {entry : Stored Message}
    (stored : before.tracker.messages.find? id = some entry)
    (step : WriteStep platform before write after) :
    after.tracker.messages.find? id = some entry := by
  rcases messages_of_write step with same | ⟨message, _, new, inserted⟩
  · rw [same, stored]
  · have other : id ≠ message.messageId := by
      rintro rfl
      cases new.symm.trans stored
    rw [inserted, OrderedMap.find?_insert_of_ne other, stored]

/-- No message comes under an id that a call does not carry. -/
theorem message_absent {id : Bytes} (absent : before.tracker.messages.find? id = none)
    (step : WriteStep platform before write after) (other : ¬ write.Carries id) :
    after.tracker.messages.find? id = none := by
  rcases messages_of_write step with same | ⟨message, found, _, inserted⟩
  · rw [same, absent]
  · have different : id ≠ message.messageId := by
      rintro rfl
      exact other ⟨message, found, rfl⟩
    rw [inserted, OrderedMap.find?_insert_of_ne different, absent]

/-- A call that carries a stored id changes nothing at all. -/
theorem unchanged_of_known {id : Bytes} {entry : Stored Message}
    (stored : before.tracker.messages.find? id = some entry) (carries : write.Carries id)
    (step : WriteStep platform before write after) : after.tracker = before.tracker := by
  obtain ⟨_, done⟩ := processWrite_of_step step
  obtain ⟨message, found, rfl⟩ := carries
  change ProtocolProcessor.received write.offset write.buffer = .message message at found
  simp only [processWrite, found] at done
  rw [processMessage_known stored] at done
  exact (Option.some.inj done).symm

/-- After a call that carries an id, a message is stored under it. -/
theorem stored_of_write {id : Bytes} (carries : write.Carries id)
    (step : WriteStep platform before write after) :
    ∃ entry, after.tracker.messages.find? id = some entry := by
  cases known : before.tracker.messages.find? id with
  | some entry => exact ⟨entry, message_stays known step⟩
  | none =>
      obtain ⟨_, done⟩ := processWrite_of_step step
      obtain ⟨message, found, rfl⟩ := carries
      change ProtocolProcessor.received write.offset write.buffer = .message message at found
      simp only [processWrite, found] at done
      exact ⟨⟨write.address, message⟩, by
        rw [messages_processMessage_new known done, OrderedMap.find?_insert_self]⟩

theorem stored_of_writes {id : Bytes} {entry : Stored Message}
    (stored : start.tracker.messages.find? id = some entry)
    (run : Run (WriteStep platform) start writes finish) :
    finish.tracker.messages.find? id = some entry :=
  run.invariant (fun stored step => message_stays stored step) stored

theorem absent_of_writes {id : Bytes} (absent : start.tracker.messages.find? id = none)
    (run : Run (WriteStep platform) start writes finish)
    (others : ∀ write ∈ writes, ¬ write.Carries id) :
    finish.tracker.messages.find? id = none := by
  induction run with
  | nil => exact absent
  | cons step _ ih =>
      have here := message_absent absent step (others _ (by simp))
      exact ih here fun write member => others write (by simp [member])

/-! ## The list of packets for everyone -/

/-- An object stays where it is. -/
theorem live_of_write {packet : Address} (separate : before.tracker.Separate)
    (live : before.tracker.Live packet) (step : WriteStep platform before write after) :
    after.tracker.Live packet := by
  obtain ⟨free, done⟩ := processWrite_of_step step
  obtain ⟨operations, run⟩ := processWrite_run separate free done
  have preserved : ∀ {start operation finish}, Live start packet →
      Guarded (Handles write.address
        (ProtocolProcessor.received write.offset write.buffer).kept)
        (OperationStep platform) start operation finish → Live finish packet := by
    intro start operation finish live step
    cases effect_of_step step.2 with
    | relists _ relists => exact relists.live_iff.mpr live
    | stores _ _ _ stores =>
        obtain ⟨place, object, holds⟩ := live_iff.mp live
        exact live_iff.mpr ⟨place, object, stores.kept holds⟩
    | cleans uptime => exact absurd rfl (step.1.noCleanup uptime)
  exact run.invariant preserved live

/-- A call appends what it stores, if it has TTL left. -/
theorem broadcast_of_write (separate : before.tracker.Separate)
    (step : WriteStep platform before write after) :
    after.tracker.broadcastPacketsToSendList = before.tracker.broadcastPacketsToSendList ∨
      after.tracker.Live write.address ∧ after.tracker.broadcastPacketsToSendList =
        before.tracker.broadcastPacketsToSendList ++ [write.address] := by
  obtain ⟨free, done⟩ := processWrite_of_step step
  by_cases new : (ProtocolProcessor.received write.offset write.buffer).New platform
      before.tracker
  · obtain ⟨kept, _, accepted⟩ := accepted_of_processWrite separate free new done
    have queued := accepted.queued
    split at queued
    · exact Or.inr ⟨by simp [Live, accepted.found], queued⟩
    · exact Or.inl (by simpa using queued)
  · left
    cases found : ProtocolProcessor.received write.offset write.buffer with
    | ignored =>
        simp only [processWrite, found] at done
        rw [← Option.some.inj done]
    | message message =>
        simp only [processWrite, found] at done
        rw [found] at new
        obtain ⟨entry, known⟩ := Option.ne_none_iff_exists'.mp new
        rw [processMessage_known known] at done
        rw [← Option.some.inj done]
    | announce announce =>
        simp only [processWrite, found] at done
        rw [found] at new
        obtain ⟨entry, known⟩ := Option.ne_none_iff_exists'.mp new
        rw [processAnnounce_known known] at done
        rw [← Option.some.inj done]
        exact congrArg Shelf.broadcast (shelf_heard ..)

theorem live_of_writes {packet : Address} (separate : start.tracker.Separate)
    (live : start.tracker.Live packet) (run : Run (WriteStep platform) start writes finish) :
    finish.tracker.Live packet := by
  induction run with
  | nil => exact live
  | cons step _ ih =>
      exact ih (separate_of_event separate step) (live_of_write separate live step)

/-- What calls append is there, and was not there before. -/
theorem appended_of_writes (separate : start.tracker.Separate)
    (run : Run (WriteStep platform) start writes finish) :
    ∃ appended, finish.tracker.broadcastPacketsToSendList =
        start.tracker.broadcastPacketsToSendList ++ appended ∧
      ∀ packet ∈ appended, finish.tracker.Live packet ∧ ¬ start.tracker.Live packet := by
  induction run with
  | nil => exact ⟨[], by simp, by simp⟩
  | @cons start next finish write writes step rest ih =>
      have apart := separate_of_event separate step
      obtain ⟨appended, list, fresh⟩ := ih apart
      have older : ∀ packet ∈ appended,
          finish.tracker.Live packet ∧ ¬ start.tracker.Live packet := by
        intro packet member
        obtain ⟨there, new⟩ := fresh packet member
        exact ⟨there, fun live => new (live_of_write separate live step)⟩
      rcases broadcast_of_write separate step with same | ⟨live, grown⟩
      · exact ⟨appended, by rw [list, same], older⟩
      · refine ⟨write.address :: appended, by rw [list, grown]; simp, ?_⟩
        intro packet member
        rcases List.mem_cons.mp member with rfl | member
        · exact ⟨live_of_writes apart live rest, not_live (processWrite_of_step step).1⟩
        · exact older packet member

/-! ## Announces -/

/-- A received announce has no payload beside its name. -/
theorem payload_received {offset : UInt16} {buffer : Buffer} {announce : Announce}
    (found : ProtocolProcessor.received offset buffer = .announce announce) :
    announce.payload = [] := by
  have passAlong : ∀ type version, Yields (PacketPassAlong.read type version false)
      fun packet => packet.payload = [] := by
    intro type version
    unfold PacketPassAlong.read
    exact Yields.bind fun packet => Yields.pure rfl
  have read : ∀ type version, Yields (Announce.read type version)
      fun announce => announce.payload = [] := by
    intro type version
    unfold Announce.read
    refine Yields.bind_of (passAlong type version) fun packet none => ?_
    exact Yields.bind fun _ => Yields.bind fun _ => Yields.pure none
  have whole : Yields receive fun found =>
      ∀ announce, found = .announce announce → announce.payload = [] := by
    unfold receive
    refine Yields.bind fun version => ?_
    split
    · exact Yields.pure (by simp)
    refine Yields.bind fun type => ?_
    split
    · refine Yields.bind_of (read type version) fun announce none => ?_
      refine Yields.pure ?_
      intro other same
      cases same
      exact none
    · split
      · exact Yields.bind fun message => Yields.pure (by simp)
      · exact Yields.pure (by simp)
  exact whole _ announce found

/-- Announces that agree in all but their TTL and their name. -/
structure Agrees (first again : Announce) : Prop where
  type : first.packetType = again.packetType
  flags : first.packetFlags = again.packetFlags
  timestamp : first.packetTimestamp = again.packetTimestamp
  sender : first.packetSenderId = again.packetSenderId
  recipient : first.packetRecipientId = again.packetRecipientId

/-- The hash of a packet leaves out its TTL and its name. -/
theorem packetHash_eq {first again : Announce} (agrees : Agrees first again)
    (payload : first.payload = again.payload) :
    packetHash platform first.toPacketPassAlong =
      packetHash platform again.toPacketPassAlong := by
  simp only [packetHash, agrees.type, agrees.flags, agrees.timestamp, agrees.sender,
    agrees.recipient, payload]

/-- The lists that flooding is about are as they were. -/
structure Unmoved (before after : Tracker) : Prop where
  broadcast : after.broadcastPacketsToSendList = before.broadcastPacketsToSendList
  sent : after.packetsConnectionsSentList = before.packetsConnectionsSentList
  sentToPeers : after.packetsPeersSentList = before.packetsPeersSentList

/-- A known announce moves nothing. -/
theorem unmoved_of_known {announce : Announce} {entry : Stored PacketPassAlong}
    (found : write.received = .announce announce)
    (known : before.tracker.packets.find?
      (packetHash platform announce.toPacketPassAlong).toNat = some entry)
    (step : WriteStep platform before write after) :
    after.tracker.packets = before.tracker.packets ∧
      Unmoved before.tracker after.tracker := by
  obtain ⟨_, done⟩ := processWrite_of_step step
  change ProtocolProcessor.received write.offset write.buffer = .announce announce at found
  simp only [processWrite, found] at done
  rw [processAnnounce_known known] at done
  have same := shelf_heard before.tracker write.uptime write.conHandle announce
  rw [Option.some.inj done] at same
  exact ⟨congrArg Shelf.packets same, congrArg Shelf.broadcast same,
    congrArg Shelf.sent same, congrArg Shelf.sentToPeers same⟩

/-- A hash under which a packet is stored stays so. -/
theorem packet_stays {hash : Nat} (separate : before.tracker.Separate)
    (stored : (before.tracker.packets.find? hash).isSome)
    (step : WriteStep platform before write after) :
    (after.tracker.packets.find? hash).isSome := by
  obtain ⟨free, done⟩ := processWrite_of_step step
  obtain ⟨operations, run⟩ := processWrite_run separate free done
  have preserved : ∀ {start operation finish},
      (∃ address object, Holds start address (.packet hash) object) →
      Guarded (Handles write.address
        (ProtocolProcessor.received write.offset write.buffer).kept)
        (OperationStep platform) start operation finish →
      ∃ address object, Holds finish address (.packet hash) object := by
    intro start operation finish there step
    obtain ⟨address, object, holds⟩ := there
    cases effect_of_step step.2 with
    | relists _ relists =>
        obtain ⟨other, kept, _⟩ := relists.kept holds
        exact ⟨address, other, kept⟩
    | stores _ _ _ stores => exact ⟨address, object, stores.kept holds⟩
    | cleans uptime => exact absurd rfl (step.1.noCleanup uptime)
  obtain ⟨entry, found⟩ := Option.isSome_iff_exists.mp stored
  have first := Holds.packet (OrderedMap.find?_eq_some_iff.mp found) rfl
  obtain ⟨address, object, last⟩ := run.invariant preserved ⟨_, _, first⟩
  cases last with
  | packet member here =>
      exact Option.isSome_iff_exists.mpr ⟨_, OrderedMap.find?_eq_some_iff.mpr member⟩

/-- After an announce, a packet is stored under its hash. -/
theorem packet_of_write {announce : Announce} (found : write.received = .announce announce)
    (separate : before.tracker.Separate) (step : WriteStep platform before write after) :
    (after.tracker.packets.find?
      (packetHash platform announce.toPacketPassAlong).toNat).isSome := by
  obtain ⟨free, done⟩ := processWrite_of_step step
  change ProtocolProcessor.received write.offset write.buffer = .announce announce at found
  cases known : before.tracker.packets.find?
      (packetHash platform announce.toPacketPassAlong).toNat with
  | some entry => exact packet_stays separate (by simp [known]) step
  | none =>
      simp only [processWrite, found] at done
      rw [processAnnounce_new known] at done
      have checked : ∀ tracker : Tracker,
          (tracker.checkSenderInPeers announce.packetSenderId).packets = tracker.packets :=
        fun tracker => congrArg Shelf.packets (shelf_checkSenderInPeers tracker _)
      rw [(relists_enqueueBroadcastPacketFrom done).packets, checked]
      rw [← packets_heard before.tracker write.uptime write.conHandle announce] at known
      simp [storePacketAndReturnIfNew, known]

theorem packet_of_writes {hash : Nat} (separate : start.tracker.Separate)
    (stored : (start.tracker.packets.find? hash).isSome)
    (run : Run (WriteStep platform) start writes finish) :
    (finish.tracker.packets.find? hash).isSome := by
  induction run with
  | nil => exact stored
  | cons step _ ih => exact ih (separate_of_event separate step) (packet_stays separate stored step)

/-! ## Runs of calls -/

/-- The first packet with an id is stored and, if it has TTL left, appended once to the
packets for everyone. -/
def StoresFirst (start : Repeater) (writes : List Write) (finish : Repeater) : Prop :=
  ∀ earlier first later message, writes = earlier ++ first :: later →
    first.received = .message message →
    start.tracker.messages.find? message.messageId = none →
    (∀ write ∈ earlier, ¬ write.Carries message.messageId) →
    finish.tracker.messages.find? message.messageId = some ⟨first.address, message⟩ ∧
      ∃ appended, finish.tracker.broadcastPacketsToSendList =
          start.tracker.broadcastPacketsToSendList ++ appended ∧
        appended.count first.address = if message.packetTtl > 0 then 1 else 0

/-- A later packet with the id of an earlier one leaves everything as it is. -/
def IgnoresRepeated (platform : Platform) (start : Repeater) (writes : List Write) : Prop :=
  ∀ earlier first between again later id before after,
    writes = earlier ++ first :: (between ++ again :: later) →
    Run (WriteStep platform) start (earlier ++ first :: between) before →
    WriteStep platform before again after →
    first.Carries id → again.Carries id →
    after.tracker.messages = before.tracker.messages ∧
      after.tracker.peers = before.tracker.peers ∧ Unmoved before.tracker after.tracker

/-- A later announce that agrees with an earlier one leaves the packets and the lists as
they are. -/
def IgnoresAgreeing (platform : Platform) (start : Repeater) (writes : List Write) : Prop :=
  ∀ earlier first between again later announce another before after,
    writes = earlier ++ first :: (between ++ again :: later) →
    Run (WriteStep platform) start (earlier ++ first :: between) before →
    WriteStep platform before again after →
    first.received = .announce announce → again.received = .announce another →
    Agrees announce another →
    after.tracker.packets = before.tracker.packets ∧ Unmoved before.tracker after.tracker

theorem storesFirst_of_writes (separate : start.tracker.Separate)
    (run : Run (WriteStep platform) start writes finish) : StoresFirst start writes finish := by
  intro earlier first later message split found absent others
  subst split
  obtain ⟨before, reaching, rest⟩ := run.exists_of_append
  cases rest with
  | @cons _ after _ _ _ step rest =>
      have apart := separate_of_writes separate reaching
      have new := absent_of_writes absent reaching others
      obtain ⟨free, done⟩ := processWrite_of_step step
      change ProtocolProcessor.received first.offset first.buffer = .message message at found
      obtain ⟨kept, keeps, accepted⟩ := accepted_of_processWrite apart free
        (by rw [found]; exact new) done
      rw [found] at keeps
      cases keeps
      simp only [processWrite, found] at done
      have stored : after.tracker.messages.find? message.messageId =
          some ⟨first.address, message⟩ := by
        rw [messages_processMessage_new new done, OrderedMap.find?_insert_self]
      have live : after.tracker.Live first.address := by simp [Live, accepted.found]
      obtain ⟨left, before_list, left_fresh⟩ := appended_of_writes separate reaching
      obtain ⟨right, after_list, right_fresh⟩ :=
        appended_of_writes (separate_of_event apart step) rest
      have not_left : first.address ∉ left := fun member =>
        not_live free (left_fresh _ member).1
      have not_right : first.address ∉ right := fun member =>
        (right_fresh _ member).2 live
      refine ⟨stored_of_writes stored rest,
        left ++ (if message.packetTtl > 0 then [first.address] else []) ++ right, ?_, ?_⟩
      · rw [after_list, accepted.queued, before_list]
        simp only [List.append_assoc]
        rfl
      · rw [List.count_append, List.count_append, List.count_eq_zero_of_not_mem not_left,
          List.count_eq_zero_of_not_mem not_right]
        split <;> simp

theorem ignoresRepeated_of_writes : IgnoresRepeated platform start writes := by
  intro earlier first between again later id before after _ run step carries repeats
  obtain ⟨previous, _, rest⟩ := run.exists_of_append
  cases rest with
  | @cons _ next _ _ _ stores rest =>
      obtain ⟨entry, stored⟩ := stored_of_write carries stores
      have unchanged := unchanged_of_known (stored_of_writes stored rest) repeats step
      rw [unchanged]
      exact ⟨rfl, rfl, rfl, rfl, rfl⟩

theorem ignoresAgreeing_of_writes (separate : start.tracker.Separate) :
    IgnoresAgreeing platform start writes := by
  intro earlier first between again later announce another before after _ run step found
    foundAgain agrees
  obtain ⟨previous, reaching, rest⟩ := run.exists_of_append
  cases rest with
  | @cons _ next _ _ _ stores rest =>
      have apart := separate_of_writes separate reaching
      have kept := packet_of_writes (separate_of_event apart stores)
        (packet_of_write found apart stores) rest
      have payload := (payload_received found).trans (payload_received foundAgain).symm
      rw [packetHash_eq agrees payload] at kept
      obtain ⟨entry, known⟩ := Option.isSome_iff_exists.mp kept
      exact unmoved_of_known foundAgain known step

end Calls

/-- Each packet is accepted for flooding once. -/
theorem accepted_once (platform : Platform) {address : Address} {events : List Event}
    {start finish : Repeater} {writes : List Write}
    (reached : Run (EventStep platform) (Repeater.new address) events start)
    (run : Run (WriteStep platform) start writes finish) :
    StoresFirst start writes finish ∧ IgnoresRepeated platform start writes ∧
      IgnoresAgreeing platform start writes := by
  have separate := separate_of_run reached
  exact ⟨storesFirst_of_writes separate run, ignoresRepeated_of_writes,
    ignoresAgreeing_of_writes separate⟩

/-- A message of id `[1]` with TTL 7, and the same message with TTL 3. -/
def twice : List Write :=
  [⟨0, 200, ⟨0x40, 0⟩, 0x40, 0, ⟨[1, 0x42, 7] ++ List.replicate 17 0 ++
      List.replicate 9 0 ++ [1, 1, 0, 0, 0], by decide⟩⟩,
    ⟨0, 300, ⟨0x41, 1⟩, 0x41, 0, ⟨[1, 0x42, 3] ++ List.replicate 17 0 ++
      List.replicate 9 0 ++ [1, 1, 0, 0, 0], by decide⟩⟩]

theorem accepted_once_twice :
    ∃ finish, Run (WriteStep bytesSummed) (Repeater.new 100) twice finish ∧
      StoresFirst (Repeater.new 100) twice finish ∧
      IgnoresRepeated bytesSummed (Repeater.new 100) twice ∧
      IgnoresAgreeing bytesSummed (Repeater.new 100) twice ∧
      finish.tracker.broadcastPacketsToSendList = [200] := by
  have outcome : (follow (fun repeater write => Event.next bytesSummed repeater
      (Write.event write)) twice (Repeater.new 100)).map
        (fun repeater => repeater.tracker.broadcastPacketsToSendList) = some [200] := by decide
  obtain ⟨finish, done, list⟩ := Option.map_eq_some_iff.mp outcome
  have run : Run (WriteStep bytesSummed) (Repeater.new 100) twice finish :=
    Run.of_follow event_of_next done
  obtain ⟨first, repeated, agreeing⟩ := accepted_once bytesSummed (.nil _) run
  exact ⟨finish, run, first, repeated, agreeing, list⟩

end BleRepeater
