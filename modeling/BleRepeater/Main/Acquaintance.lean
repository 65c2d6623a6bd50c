import BleRepeater.Ble.Keys
import BleRepeater.Main.RelayAnnounce

/-!
# Acquaintance

What a repeater knows of other repeaters it knows from their announces.  A peer goes by the
name that it announced last, with the greatest TTL that its announces came with, and a
connection leads to the peer whose announce came over it last with a TTL that none of its
earlier announces exceeded.
-/

namespace BleRepeater

open BinaryReader Transition Tracker ProtocolProcessor Repeater

/-- A peer once one more announce of it is heard. -/
def Peer.hear (peer : Peer) (announce : Announce) : Peer :=
  { peer with
    name := announce.name
    maxTtl := max peer.maxTtl announce.packetTtl }

namespace Repeater

variable {platform : Platform} {before after : Repeater} {event : Event}

/-! ## Pointers to peers -/

/-- An operation whose pointers to peers lead to peers. -/
def KnowingStep (platform : Platform) : Tracker → Operation → Tracker → Prop :=
  Guarded (fun tracker operation => operation.KnowsPeers tracker) (OperationStep platform)

/-- Hearing an announce hands no pointer to a peer over that leads nowhere. -/
theorem heard_knows (platform : Platform) (tracker : Tracker) (uptime : UInt64)
    (conHandle : UInt16) (announce : Announce) :
    ∃ operations, Run (KnowingStep platform) tracker operations
      (heard tracker uptime conHandle announce) := by
  have checks : ∀ tracker : Tracker, KnowingStep platform tracker
      (.checkSenderInPeers announce.packetSenderId)
      (tracker.checkSenderInPeers announce.packetSenderId) :=
    fun _ => ⟨trivial, trivial, rfl⟩
  have names : ∀ tracker : Tracker, KnowingStep platform tracker
      (.updatePeer announce.packetSenderId fun peer => { peer with name := announce.name })
      (tracker.updatePeer announce.packetSenderId fun peer =>
        { peer with name := announce.name }) :=
    fun _ => ⟨fun _ => rfl, trivial, rfl⟩
  have ranks : ∀ tracker : Tracker, KnowingStep platform tracker
      (.updatePeer announce.packetSenderId fun peer =>
        { peer with maxTtl := announce.packetTtl })
      (tracker.updatePeer announce.packetSenderId fun peer =>
        { peer with maxTtl := announce.packetTtl }) :=
    fun _ => ⟨fun _ => rfl, trivial, rfl⟩
  have sets : ∀ tracker : Tracker, (tracker.peers.find? announce.packetSenderId).isSome →
      KnowingStep platform tracker
        (.setConnectionHandleForPeer conHandle announce.packetSenderId)
        (tracker.setConnectionHandleForPeer conHandle announce.packetSenderId) :=
    fun _ there => ⟨there, trivial, rfl⟩
  have clock : ∀ tracker : Tracker, KnowingStep platform tracker
      (.possiblyUpdateTimeOffset uptime announce.packetTimestampMs)
      (tracker.possiblyUpdateTimeOffset uptime announce.packetTimestampMs) :=
    fun _ => ⟨trivial, trivial, rfl⟩
  unfold heard updateOrStorePeerNameFromAnnouncement
  dsimp only
  split
  · refine ⟨_, .cons (checks _) (.cons (names _) (.cons (ranks _)
      (.cons (sets _ ?_) (.cons (clock _) (.nil _)))))⟩
    have there := find?_checkSenderInPeers tracker announce.packetSenderId
    simp [updatePeer, OrderedMap.find?_modify, there]
  · exact ⟨_, .cons (checks _) (.cons (names _) (.cons (clock _) (.nil _)))⟩

/-- Nor does keeping a new packet and enqueueing it. -/
theorem enqueueStored_knows {start middle finish : Tracker} {operation : Operation}
    {address : Address} {connection : ConnectionRef} {sender : UInt64}
    (knows : operation.KnowsPeers start)
    (step : OperationStep platform start operation middle)
    (done : (middle.checkSenderInPeers sender).enqueueBroadcastPacketFrom address connection
      sender = some finish) :
    ∃ operations, Run (KnowingStep platform) start operations finish := by
  refine ⟨[operation, .checkSenderInPeers sender,
    .enqueueBroadcastPacketFrom address connection sender],
    .cons ⟨knows, step⟩ (.cons ⟨trivial, trivial, rfl⟩ (.cons ⟨?_, ?_, done⟩ (.nil _)))⟩
  · exact find?_checkSenderInPeers middle sender
  · obtain ⟨object, found, _⟩ := enqueueBroadcastPacket_cases done
    exact Option.isSome_iff_exists.mpr ⟨object, found⟩

theorem processWrite_knows {tracker last : Tracker} {uptime : UInt64} {address : Address}
    {connection : ConnectionRef} {conHandle offset : UInt16} {buffer : Buffer}
    (free : tracker.packetAt address = none)
    (done : processWrite platform tracker uptime address connection conHandle offset buffer =
      some last) :
    ∃ operations, Run (KnowingStep platform) tracker operations last := by
  unfold processWrite at done
  split at done
  · rename_i announce _
    obtain ⟨first, hears⟩ := heard_knows platform tracker uptime conHandle announce
    cases known : tracker.packets.find?
        (packetHash platform announce.toPacketPassAlong).toNat with
    | some entry =>
        cases (processAnnounce_known known).symm.trans done
        exact ⟨first, hears⟩
    | none =>
        rw [processAnnounce_new known] at done
        have step : OperationStep platform (heard tracker uptime conHandle announce)
            (.storePacketAndReturnIfNew address announce.toPacketPassAlong) _ :=
          ⟨free_heard free, rfl⟩
        obtain ⟨second, rest⟩ := enqueueStored_knows (by trivial) step done
        exact ⟨first ++ second, hears.append rest⟩
  · rename_i message _
    cases known : tracker.messages.find? message.messageId with
    | some entry =>
        cases (processMessage_known known).symm.trans done
        exact ⟨[], .nil _⟩
    | none =>
        rw [processMessage_new known] at done
        have step : OperationStep platform tracker
            (.storeMessageAndReturnIfNew address message) _ := ⟨free, rfl⟩
        exact enqueueStored_knows (by trivial) step done
  · cases done
    exact ⟨[], .nil _⟩

theorem keyed_of_event (keyed : Keyed platform before.tracker)
    (step : EventStep platform before event after) : Keyed platform after.tracker := by
  have along : ∀ {start operations finish}, Keyed platform start →
      Run (KnowingStep platform) start operations finish → Keyed platform finish :=
    fun keyed run => run.invariant (fun held step => held.step step.2 step.1) keyed
  cases event with
  | gpioCallback gpio fell =>
      cases step.2
      exact keyed
  | tracker operation =>
      have main : direct operation = true := step.1
      refine keyed.step (operation_of_event step) ?_
      cases operation <;> trivial
  | handlePinActivity uptime address =>
      rcases handlePinActivity_cases step.2 with idle | ⟨_, queued⟩
      · rwa [idle]
      · have stores : OperationStep platform before.tracker (.storeMessageAndReturnIfNew
            address (pinMessageOf platform before uptime)) _ := ⟨step.1, rfl⟩
        obtain ⟨object, found, _⟩ := enqueueBroadcastPacket_cases queued
        have enqueues : OperationStep platform _ (.enqueueBroadcastPacket address)
            after.tracker := ⟨Option.isSome_iff_exists.mpr ⟨object, found⟩, queued⟩
        exact (keyed.step stores trivial).step enqueues trivial
  | processWrite uptime address connection conHandle offset buffer =>
      obtain ⟨tracker, processed, same⟩ := Option.bind_eq_some_iff.mp step.2
      cases same
      obtain ⟨operations, run⟩ := processWrite_knows step.1 processed
      exact along keyed run

/-- In every run of a repeater, what the maps hold lies under its own key, and the pointers
to peers lead to peers. -/
theorem keyed_of_run {address : Address} {events : List Event}
    (run : Run (EventStep platform) (new address) events after) :
    Keyed platform after.tracker :=
  run.invariant (fun keyed step => keyed_of_event keyed step) (keyed_new platform address)

/-- A repeater that has heard of A. -/
theorem keyed_of_run_named :
    ∃ finish, Run (EventStep bytesSummed) (new 100) [namedArrival] finish ∧
      finish.tracker.packetsPeersSentList.entries = [(200, 9)] ∧
      Keyed bytesSummed finish.tracker := by
  have outcome : (follow (Event.next bytesSummed · ·) [namedArrival] (new 100)).map
      (fun finish => finish.tracker.packetsPeersSentList.entries) = some [(200, 9)] := by
    decide
  obtain ⟨finish, reached, listed⟩ := Option.map_eq_some_iff.mp outcome
  have run : Run (EventStep bytesSummed) (new 100) [namedArrival] finish :=
    Run.of_follow event_of_next reached
  exact ⟨finish, run, listed, keyed_of_run run⟩

/-! ## What announces leave -/

/-- The announce that was received. -/
def announce? : Received → Option Announce
  | .announce announce => some announce
  | _ => none

/-- The announce that an event brings, and the handle of the connection that it came over. -/
def Event.announce? : Event → Option (UInt16 × Announce)
  | .processWrite _ _ _ conHandle offset buffer =>
      (Repeater.announce? (received offset buffer)).map fun announce => (conHandle, announce)
  | _ => none

/-- The peer of an id, as constructed if there is none. -/
def peerOf (tracker : Tracker) (id : UInt64) : Peer :=
  (tracker.peers.find? id).getD { id }

theorem peers_checkSenderInPeers (tracker : Tracker) (sender id : UInt64) :
    (tracker.checkSenderInPeers sender).peers.find? id =
      if id = sender then some (peerOf tracker sender) else tracker.peers.find? id := by
  unfold checkSenderInPeers peerOf
  split
  · rename_i peer known
    split
    · rename_i same
      rw [same, known, Option.getD_some]
    · rfl
  · rename_i unknown
    rw [OrderedMap.find?_insert, unknown, Option.getD_none]

theorem possiblyUpdateTimeOffset_book (tracker : Tracker) (uptime timestampMs : UInt64) :
    (tracker.possiblyUpdateTimeOffset uptime timestampMs).book = tracker.book := by
  unfold possiblyUpdateTimeOffset
  dsimp only
  split <;> rfl

/-- The peers and the handles after an announce was heard. -/
theorem book_heard (tracker : Tracker) (uptime : UInt64) (conHandle : UInt16)
    (announce : Announce) :
    (∀ id, (heard tracker uptime conHandle announce).peers.find? id =
      if id = announce.packetSenderId then some ((peerOf tracker id).hear announce)
      else tracker.peers.find? id) ∧
    (heard tracker uptime conHandle announce).handlePeerMap =
      if (peerOf tracker announce.packetSenderId).maxTtl ≤ announce.packetTtl then
        tracker.handlePeerMap.insert conHandle announce.packetSenderId
      else tracker.handlePeerMap := by
  have clock := possiblyUpdateTimeOffset_book
    (updateOrStorePeerNameFromAnnouncement tracker announce conHandle) uptime
    announce.packetTimestampMs
  have checked := peers_checkSenderInPeers tracker announce.packetSenderId
  have sender := checked announce.packetSenderId
  rw [if_pos rfl] at sender
  have handles : (tracker.checkSenderInPeers announce.packetSenderId).handlePeerMap =
      tracker.handlePeerMap := by
    unfold checkSenderInPeers
    split <;> rfl
  have peers : (heard tracker uptime conHandle announce).peers = _ :=
    congrArg Book.peers clock
  have map : (heard tracker uptime conHandle announce).handlePeerMap = _ :=
    congrArg Book.handles clock
  rw [peers, map]
  simp only [book, updateOrStorePeerNameFromAnnouncement, sender, Option.getD_some, ge_iff_le]
  by_cases greater : (peerOf tracker announce.packetSenderId).maxTtl ≤ announce.packetTtl
  · rw [if_pos greater, if_pos greater]
    refine ⟨?_, by simp [setConnectionHandleForPeer, updatePeer, handles]⟩
    intro id
    simp only [setConnectionHandleForPeer, updatePeer, OrderedMap.find?_modify, checked]
    split
    · rename_i same
      simp [same, Peer.hear, max_eq_right greater]
    · rfl
  · rw [if_neg greater, if_neg greater]
    refine ⟨?_, by simp [updatePeer, handles]⟩
    intro id
    simp only [updatePeer, OrderedMap.find?_modify, checked]
    split
    · rename_i same
      simp [same, Peer.hear, max_eq_left (le_of_not_ge greater)]
    · rfl

/-- Enqueueing a new packet makes sure that its sender is there. -/
theorem book_enqueueStored {middle last : Tracker} {address : Address}
    {connection : ConnectionRef} {sender : UInt64}
    (done : (middle.checkSenderInPeers sender).enqueueBroadcastPacketFrom address connection
      sender = some last) :
    (∀ id, last.peers.find? id =
      if id = sender then some (peerOf middle sender) else middle.peers.find? id) ∧
      last.handlePeerMap = middle.handlePeerMap := by
  have handles : (middle.checkSenderInPeers sender).handlePeerMap =
      middle.handlePeerMap := by
    unfold checkSenderInPeers
    split <;> rfl
  refine ⟨?_, ?_⟩
  · intro id
    rw [peers_enqueueBroadcastPacketFrom done, peers_checkSenderInPeers]
  · rw [enqueueBroadcastPacketFrom] at done
    rw [enqueueBroadcastPacket_frame done]
    exact handles

theorem book_processAnnounce {tracker last : Tracker} {uptime : UInt64} {address : Address}
    {connection : ConnectionRef} {conHandle : UInt16} {announce : Announce}
    (done : processAnnounce platform tracker uptime address connection conHandle announce =
      some last) :
    (∀ id, last.peers.find? id = (heard tracker uptime conHandle announce).peers.find? id) ∧
      last.handlePeerMap = (heard tracker uptime conHandle announce).handlePeerMap := by
  cases known : tracker.packets.find?
      (packetHash platform announce.toPacketPassAlong).toNat with
  | some entry =>
      cases (processAnnounce_known known).symm.trans done
      exact ⟨fun _ => rfl, rfl⟩
  | none =>
      rw [processAnnounce_new known] at done
      obtain ⟨peers, handles⟩ := book_enqueueStored done
      have stored := book_storePacketAndReturnIfNew platform
        (heard tracker uptime conHandle announce) address announce.toPacketPassAlong
      refine ⟨?_, handles.trans (congrArg Book.handles stored)⟩
      intro id
      have there := (book_heard tracker uptime conHandle announce).1 announce.packetSenderId
      rw [if_pos rfl] at there
      rw [peers, peerOf, peers_storePacketAndReturnIfNew, there]
      split
      · rename_i same
        rw [same, there, Option.getD_some]
      · rfl

/-- A received message may make its sender known. -/
theorem book_processMessage {tracker last : Tracker} {address : Address}
    {connection : ConnectionRef} {message : Message}
    (done : processMessage tracker address connection message = some last) :
    (∀ id, last.peers.find? id = tracker.peers.find? id ∨
      tracker.peers.find? id = none ∧ last.peers.find? id = some { id }) ∧
      last.handlePeerMap = tracker.handlePeerMap := by
  cases known : tracker.messages.find? message.messageId with
  | some entry =>
      cases (processMessage_known known).symm.trans done
      exact ⟨fun _ => Or.inl rfl, rfl⟩
  | none =>
      rw [processMessage_new known] at done
      obtain ⟨peers, handles⟩ := book_enqueueStored done
      have stored := book_storeMessageAndReturnIfNew tracker address message
      have same : (tracker.storeMessageAndReturnIfNew address message).2.peers =
          tracker.peers := congrArg Book.peers stored
      refine ⟨?_, handles.trans (congrArg Book.handles stored)⟩
      intro id
      rw [peers, peerOf, same]
      split
      · rename_i sender
        rw [sender]
        cases tracker.peers.find? message.packetSenderId with
        | none => exact Or.inr ⟨rfl, rfl⟩
        | some peer => exact Or.inl rfl
      · exact Or.inl rfl

/-- An event that brings an announce changes the peer that it is of, and the handle it came
over may lead to that peer. -/
theorem book_of_announce (step : EventStep platform before event after) {conHandle : UInt16}
    {announce : Announce} (brings : event.announce? = some (conHandle, announce)) :
    (∀ id, after.tracker.peers.find? id =
      if id = announce.packetSenderId then
        some ((peerOf before.tracker id).hear announce)
      else before.tracker.peers.find? id) ∧
    after.tracker.handlePeerMap =
      if (peerOf before.tracker announce.packetSenderId).maxTtl ≤ announce.packetTtl then
        before.tracker.handlePeerMap.insert conHandle announce.packetSenderId
      else before.tracker.handlePeerMap := by
  cases event with
  | processWrite uptime address connection handle offset buffer =>
      obtain ⟨tracker, processed, same⟩ := Option.bind_eq_some_iff.mp step.2
      cases same
      obtain ⟨carried, found, same⟩ := Option.map_eq_some_iff.mp brings
      cases same
      unfold processWrite at processed
      cases decoded : received offset buffer with
      | announce other =>
          rw [decoded] at found processed
          cases found
          obtain ⟨peers, handles⟩ := book_processAnnounce processed
          obtain ⟨heardPeers, heardHandles⟩ :=
            book_heard before.tracker uptime conHandle announce
          exact ⟨fun id => (peers id).trans (heardPeers id), handles.trans heardHandles⟩
      | ignored | message =>
          rw [decoded] at found
          cases found
  | gpioCallback | handlePinActivity | tracker => cases brings

/-- Any other event leaves the known peers as they are, and forgets at most the peer behind a
handle that is disconnected. -/
theorem book_of_other (step : EventStep platform before event after)
    (brings : event.announce? = none) :
    (∀ id, after.tracker.peers.find? id = before.tracker.peers.find? id ∨
      before.tracker.peers.find? id = none ∧ after.tracker.peers.find? id = some { id }) ∧
    ∀ conHandle id, after.tracker.handlePeerMap.find? conHandle = some id ↔
      before.tracker.handlePeerMap.find? conHandle = some id ∧
        event ≠ .tracker (.reportDisconnection conHandle) := by
  have of_book : after.tracker.book = before.tracker.book →
      (∀ id, after.tracker.peers.find? id = before.tracker.peers.find? id ∨
        before.tracker.peers.find? id = none ∧ after.tracker.peers.find? id = some { id }) ∧
      after.tracker.handlePeerMap = before.tracker.handlePeerMap := by
    intro same
    have peers : after.tracker.peers = before.tracker.peers := congrArg Book.peers same
    exact ⟨fun _ => Or.inl (by rw [peers]), congrArg Book.handles same⟩
  cases event with
  | gpioCallback gpio fell =>
      cases step.2
      obtain ⟨peers, handles⟩ := of_book rfl
      exact ⟨peers, by simp [handles]⟩
  | handlePinActivity uptime address =>
      have same : after.tracker.book = before.tracker.book := by
        rcases handlePinActivity_cases step.2 with idle | ⟨_, queued⟩
        · rw [idle]
        · rw [enqueueBroadcastPacket_frame queued]
          exact book_storeMessageAndReturnIfNew before.tracker address _
      obtain ⟨peers, handles⟩ := of_book same
      exact ⟨peers, by simp [handles]⟩
  | processWrite uptime address connection handle offset buffer =>
      obtain ⟨tracker, processed, same⟩ := Option.bind_eq_some_iff.mp step.2
      cases same
      have none := Option.map_eq_none_iff.mp brings
      unfold processWrite at processed
      cases decoded : received offset buffer with
      | announce other =>
          rw [decoded] at none
          cases none
      | message message =>
          rw [decoded] at processed
          obtain ⟨peers, handles⟩ := book_processMessage processed
          exact ⟨peers, by simp [handles]⟩
      | ignored =>
          rw [decoded] at processed
          cases processed
          exact ⟨fun _ => Or.inl rfl, by simp⟩
  | tracker operation =>
      have main : direct operation = true := step.1
      have performed := operation_of_event step
      by_cases disconnects : ∃ handle, operation = .reportDisconnection handle
      · obtain ⟨handle, rfl⟩ := disconnects
        have closed := Option.some.inj performed.2
        have same : (before.tracker.connectionsIndex handle).2.book = before.tracker.book :=
          book_of_unlinked (unlinked_connectionsIndex before.tracker handle)
        have peers : after.tracker.peers = before.tracker.peers := by
          rw [← closed]
          exact congrArg Book.peers same
        have handles : after.tracker.handlePeerMap =
            before.tracker.handlePeerMap.erase handle := by
          rw [← closed]
          exact congrArg (fun book : Book => book.handles.erase handle) same
        refine ⟨fun _ => Or.inl (by rw [peers]), ?_⟩
        intro conHandle id
        rw [handles, OrderedMap.find?_erase]
        simp [eq_comm]
      · have same : after.tracker.book = before.tracker.book ∨
            ∃ uptime, operation = .cleanupStaleItems uptime := by
          by_cases changes : operation.ChangesBook
          · right
            cases operation with
            | cleanupStaleItems uptime => exact ⟨uptime, rfl⟩
            | reportDisconnection handle => exact absurd ⟨handle, rfl⟩ disconnects
            | _ => first | exact changes.elim | cases main
          · exact Or.inl (book_of_step performed changes)
        have other : ∀ conHandle,
            (.tracker operation : Event) ≠ .tracker (.reportDisconnection conHandle) := by
          intro conHandle equal
          cases equal
          exact disconnects ⟨conHandle, rfl⟩
        have kept : (∀ id, after.tracker.peers.find? id = before.tracker.peers.find? id ∨
            before.tracker.peers.find? id = none ∧
              after.tracker.peers.find? id = some { id }) ∧
            after.tracker.handlePeerMap = before.tracker.handlePeerMap := by
          rcases same with same | ⟨uptime, rfl⟩
          · exact of_book same
          · obtain ⟨_, _, _, _, cleaned⟩ := cleanupStaleItems_eq performed.2
            rw [cleaned]
            exact ⟨fun _ => Or.inl rfl, rfl⟩
        exact ⟨kept.1, by simp [kept.2, other]⟩

/-! ## Over whole runs -/

/-- The announces of a peer that events bring, oldest first. -/
def announcesOf (id : UInt64) (events : List Event) : List Announce :=
  ((events.filterMap Event.announce?).map Prod.snd).filter fun announce =>
    announce.packetSenderId == id

/-- A peer of which announces were heard. -/
def acquainted (id : UInt64) (announces : List Announce) : Peer where
  id := id
  name := (announces.getLast?.map Announce.name).getD []
  maxTtl := announces.foldl (fun ttl announce => max ttl announce.packetTtl) 0

theorem acquainted_snoc (id : UInt64) (announces : List Announce) (announce : Announce) :
    acquainted id (announces ++ [announce]) = (acquainted id announces).hear announce := by
  simp [acquainted, Peer.hear]

theorem announcesOf_snoc (id : UInt64) (events : List Event) (event : Event) :
    announcesOf id (events ++ [event]) = announcesOf id events ++
      ((event.announce?.toList.map Prod.snd).filter fun announce =>
        announce.packetSenderId == id) := by
  cases brings : event.announce? <;> simp [announcesOf, brings]

/-- A peer is as its announces leave it, and each sender of an announce is there. -/
structure Acquainted (events : List Event) (repeater : Repeater) : Prop where
  peer : ∀ id peer, repeater.tracker.peers.find? id = some peer →
    peer = acquainted id (announcesOf id events)
  there : ∀ id, announcesOf id events ≠ [] → (repeater.tracker.peers.find? id).isSome

theorem Acquainted.peerOf {events : List Event} (acquaint : Acquainted events before)
    (id : UInt64) : peerOf before.tracker id = acquainted id (announcesOf id events) := by
  unfold Repeater.peerOf
  cases known : before.tracker.peers.find? id with
  | some peer => exact acquaint.peer id peer known
  | none =>
      have unheard : announcesOf id events = [] := by
        by_contra heard
        have there := acquaint.there id heard
        simp [known] at there
      rw [unheard]
      rfl

theorem Acquainted.step {events : List Event} (acquaint : Acquainted events before)
    (step : EventStep platform before event after) :
    Acquainted (events ++ [event]) after := by
  cases brings : event.announce? with
  | none =>
      have peers := (book_of_other step brings).1
      have same : ∀ id, announcesOf id (events ++ [event]) = announcesOf id events := by
        intro id
        simp [announcesOf_snoc, brings]
      refine ⟨?_, ?_⟩
      · intro id peer found
        rw [same, ← acquaint.peerOf, Repeater.peerOf]
        rcases peers id with kept | ⟨unknown, new⟩
        · rw [← kept, found, Option.getD_some]
        · rw [unknown, Option.getD_none]
          exact Option.some.inj (found.symm.trans new)
      · intro id heard
        rw [same] at heard
        have there := acquaint.there id heard
        rcases peers id with kept | ⟨_, new⟩
        · rwa [kept]
        · simp [new]
  | some brought =>
      obtain ⟨conHandle, announce⟩ := brought
      have peers := (book_of_announce step brings).1
      have grown : ∀ id, announcesOf id (events ++ [event]) = announcesOf id events ++
          if id = announce.packetSenderId then [announce] else [] := by
        intro id
        rw [announcesOf_snoc, brings]
        by_cases same : id = announce.packetSenderId
        · simp [same]
        · simp [same, Ne.symm same]
      refine ⟨?_, ?_⟩
      · intro id peer found
        rw [peers] at found
        rw [grown]
        split at found
        · rename_i same
          rw [if_pos same, acquainted_snoc, ← acquaint.peerOf]
          exact (Option.some.inj found).symm
        · rename_i other
          rw [if_neg other, List.append_nil]
          exact acquaint.peer id peer found
      · intro id heard
        rw [peers]
        split
        · rfl
        · rename_i other
          rw [grown, if_neg other, List.append_nil] at heard
          exact acquaint.there id heard

/-- An announce of a peer comes over a connection, with a TTL that none of its earlier
announces exceeded. -/
def Leads (conHandle : UInt16) (id : UInt64) (repeater : Repeater) (event : Event) : Prop :=
  ∃ announce, event.announce? = some (conHandle, announce) ∧ announce.packetSenderId = id ∧
    (peerOf repeater.tracker id).maxTtl ≤ announce.packetTtl

/-- The connection is lost, or leads to another peer. -/
def LeadsAway (conHandle : UInt16) (id : UInt64) (repeater : Repeater) (event : Event) : Prop :=
  event = .tracker (.reportDisconnection conHandle) ∨
    ∃ other, other ≠ id ∧ Leads conHandle other repeater event

theorem handles_of_event (step : EventStep platform before event after) (conHandle : UInt16)
    (id : UInt64) :
    after.tracker.handlePeerMap.find? conHandle = some id ↔
      Leads conHandle id before event ∨
        before.tracker.handlePeerMap.find? conHandle = some id ∧
          ¬ LeadsAway conHandle id before event := by
  cases brings : event.announce? with
  | none =>
      have idle : ∀ other, ¬ Leads conHandle other before event := by
        rintro other ⟨announce, brought, _⟩
        cases brings.symm.trans brought
      rw [(book_of_other step brings).2]
      simp [LeadsAway, idle]
  | some brought =>
      obtain ⟨handle, announce⟩ := brought
      have stays : event ≠ .tracker (.reportDisconnection conHandle) := by
        rintro rfl
        cases brings
      have leads : ∀ other, Leads conHandle other before event ↔ handle = conHandle ∧
          announce.packetSenderId = other ∧
          (peerOf before.tracker other).maxTtl ≤ announce.packetTtl := by
        intro other
        simp [Leads, brings]
      rw [(book_of_announce step brings).2]
      simp only [LeadsAway, leads, stays, false_or]
      split
      · rename_i greatest
        rw [OrderedMap.find?_insert]
        split
        · rename_i here
          subst here
          constructor
          · intro same
            cases same
            exact Or.inl ⟨rfl, rfl, greatest⟩
          · rintro (⟨_, rfl, _⟩ | ⟨_, kept⟩)
            · rfl
            · by_contra other
              exact kept ⟨announce.packetSenderId, fun same => other (by rw [same]), rfl, rfl,
                greatest⟩
        · rename_i elsewhere
          simp [Ne.symm elsewhere]
      · rename_i exceeded
        constructor
        · intro old
          refine Or.inr ⟨old, ?_⟩
          rintro ⟨other, _, _, rfl, greatest⟩
          exact exceeded greatest
        · rintro (⟨_, rfl, greatest⟩ | ⟨old, _⟩)
          · exact absurd greatest exceeded
          · exact old

/-- After every run, a peer goes by the name of its last announce and has the greatest TTL of
its announces; and a handle leads to a peer exactly when an announce of it came over the
handle with a TTL that none of its earlier ones exceeded, and since then the handle has
neither been disconnected nor come to lead to another peer in this way. -/
theorem acquaintance_of_run {address : Address} {events : List Event}
    (run : Run (EventStep platform) (new address) events after) :
    (∀ id, peerOf after.tracker id = acquainted id (announcesOf id events)) ∧
      (∀ id, announcesOf id events ≠ [] → (after.tracker.peers.find? id).isSome) ∧
      ∀ conHandle id, after.tracker.handlePeerMap.find? conHandle = some id ↔
        BroughtSince (EventStep platform) (Leads conHandle id) (LeadsAway conHandle id)
          (new address) events after := by
  have fresh : Acquainted [] (new address) := by
    refine ⟨?_, fun _ heard => absurd rfl heard⟩
    intro id peer found
    cases found
  have acquaint : Acquainted events after :=
    run.invariant_of_labels (fun _ acquaint step => acquaint.step step) fresh
  refine ⟨acquaint.peerOf, acquaint.there, ?_⟩
  intro conHandle id
  exact run.has_iff_broughtSince (fun step => handles_of_event step conHandle id)
    (fun leads => by cases leads)

/-- An announce of A comes over 0x40, and then one with a smaller TTL over 0x41. -/
def heardTwice : List Event :=
  [namedArrival,
    .processWrite 0 300 ⟨0x41, 0⟩ 0x41 0
      ⟨[1, 65, 2, 0, 0, 0, 0, 0, 0, 7, 208, 0, 0, 0, 0, 0, 0, 0, 0, 9, 1, 66], by decide⟩]

/-- The peer goes by the name of B since, but it is still 0x40 that leads to it. -/
theorem acquaintance_of_run_twice :
    ∃ finish, Run (EventStep bytesSummed) (new 100) heardTwice finish ∧
      peerOf finish.tracker 9 = { id := 9, name := [66], maxTtl := 3 } ∧
      BroughtSince (EventStep bytesSummed) (Leads 0x40 9) (LeadsAway 0x40 9) (new 100)
        heardTwice finish ∧
      ¬ BroughtSince (EventStep bytesSummed) (Leads 0x41 9) (LeadsAway 0x41 9) (new 100)
        heardTwice finish := by
  have outcome : (follow (Event.next bytesSummed · ·) heardTwice (new 100)).map
      (fun finish => (finish.tracker.handlePeerMap.find? 0x40,
        finish.tracker.handlePeerMap.find? 0x41)) = some (some 9, none) := by
    decide
  obtain ⟨finish, reached, same⟩ := Option.map_eq_some_iff.mp outcome
  obtain ⟨first, second⟩ := Prod.mk.inj same
  have run : Run (EventStep bytesSummed) (new 100) heardTwice finish :=
    Run.of_follow event_of_next reached
  obtain ⟨peers, _, handles⟩ := acquaintance_of_run run
  refine ⟨finish, run, peers 9, (handles 0x40 9).mp first, ?_⟩
  rw [← handles, second]
  simp

end Repeater

end BleRepeater
