import BleRepeater.Main.Acquaintance
import BleRepeater.Main.PinActivity
import BleRepeater.Main.Serving
import BleRepeater.Network.Integrity

/-!
# Agreement

Flooding reaches everyone.  Where every link goes both ways and stays open, and every call
of `sendPackets` and every callback does what it is for, repeaters that are connected come to
know the same messages: once nothing is on its way any more and no call would hand anything
over, one knows a message exactly when the other does, whatever the order of events was.
-/

namespace BleRepeater

open BinaryReader Transition Tracker ProtocolProcessor Repeater Network

/-- Every link goes both ways, and a handle names one link at most. -/
structure Deployment.Paired {Node : Type} (deployment : Deployment Node) : Prop where
  back : ∀ {node handle other otherHandle},
    deployment.links node handle other otherHandle = true →
    deployment.links other otherHandle node handle = true
  unique : ∀ {node handle left leftHandle right rightHandle},
    deployment.links node handle left leftHandle = true →
    deployment.links node handle right rightHandle = true →
    left = right ∧ leftHandle = rightHandle

section Actions

variable {Node : Type} [DecidableEq Node] {deployment : Deployment Node}
  {setup actions : List (Action Node)} {before after opened finish : Network Node}
  {action : Action Node} {node other : Node} {handle otherHandle : UInt16} {id : Bytes}

namespace Network

/-- Bytes that a repeater reads as a message of an id. -/
def BearsMessage (bytes : Bytes) (id : Bytes) : Prop :=
  ∃ message, Bears bytes (.message message) ∧ message.messageId = id

/-- A message waits for a link, or is on its way to the repeater at the other end. -/
def OnItsWay (network : Network Node) (node : Node) (handle : UInt16) (other : Node)
    (id : Bytes) : Prop :=
  (∃ queue, ∃ data ∈ (network.repeater node).tracker.queued queue handle,
    BearsMessage data id) ∨
  ∃ flight ∈ network.inFlight, flight.receiver = other ∧ BearsMessage flight.buffer.bytes id

/-- Every link is open at both ends. -/
def LinksOpen (deployment : Deployment Node) (network : Network Node) : Prop :=
  ∀ {node handle other otherHandle}, deployment.links node handle other otherHandle = true →
    ∃ ref, ref.key = handle ∧ (network.repeater node).tracker.OpenAt ref

/-- An action that erases nothing, and whose setters leave handles alone. -/
def Lasting (network : Network Node) (action : Action Node) : Prop :=
  ∀ node event, network.event action = some (node, event) → event.Lasts

/-- The links work: they are open, packets come over connections that are there, what goes
over a link goes to the repeater at its other end, and BTstack does not call the connection
unknown. -/
structure Connected (deployment : Deployment Node) (network : Network Node)
    (action : Action Node) : Prop where
  linksOpen : LinksOpen deployment network
  arrives : ∀ {node uptime address connection conHandle offset buffer},
    network.event action =
      some (node, .processWrite uptime address connection conHandle offset buffer) →
    connection.key = conHandle ∧
      (network.repeater node).tracker.handleAt connection = some conHandle
  outside : ∀ {node event}, action = .act node event →
    ∀ {handle other otherHandle}, deployment.links node handle other otherHandle = true →
      (∀ uptime address connection offset buffer,
        event ≠ .processWrite uptime address connection handle offset buffer) ∧
      ∀ queue ret, event ≠ .tracker (callback handle ret queue)
  answers : ∀ {node queue conHandle ret receiver receiverHandle},
    action = .transmit node queue conHandle ret receiver receiverHandle →
    ret ≠ errorCodeUnknownConnectionIdentifier

/-- What is called does what it is for: a call of `sendPackets` has exact recipients, and a
callback keeps to the packets of its own handle. -/
structure Proper (network : Network Node) (action : Action Node) : Prop where
  sends : ∀ {node}, network.event action = some (node, .tracker .sendPackets) →
    ∀ tracker targeted broadcast,
      (network.repeater node).tracker.sendPackets = some (tracker, targeted, broadcast) →
      ExactRecipients (network.repeater node).tracker tracker broadcast
  calls : ∀ {node queue conHandle ret},
    network.event action = some (node, .tracker (callback conHandle ret queue)) →
    OwnPacketsOnly queue (network.repeater node).tracker conHandle ret
      (rawPacketCallback queue (network.repeater node).tracker conHandle ret)

/-- Nothing gets in the way of flooding. -/
structure Undisturbed (deployment : Deployment Node) (network : Network Node)
    (action : Action Node) : Prop where
  lasting : Lasting network action
  connected : Connected deployment network action
  proper : Proper network action

end Network

/-! ## What is handed over -/

theorem keyed_of_network (run : Run (NetworkStep deployment) (start deployment) actions before)
    (node : Node) : Keyed (deployment.platform node) (before.repeater node).tracker := by
  have preserved : ∀ {node start event finish},
      Keyed (deployment.platform node) (Repeater.tracker start) →
      EventStep (deployment.platform node) start event finish →
      Keyed (deployment.platform node) finish.tracker :=
    fun keyed step => keyed_of_event keyed step
  exact repeater_of_run run preserved
    (fun node => keyed_new _ (deployment.announceAddress node)) node

/-- A stored message is read as it is written. -/
theorem bears_of_stored (run : Run (NetworkStep deployment) (start deployment) actions before)
    {entry : Bytes × Stored Message}
    (stored : entry ∈ (before.repeater node).tracker.messages.entries) {bytes : Bytes}
    (written : (Packet.message entry.2.object).writePacket [] = some bytes) :
    BearsMessage bytes entry.1 := by
  have holds : (before.repeater node).tracker.Holds entry.2.address (.message entry.1)
      (.message entry.2.object) := .message stored rfl
  have originated := (authentic_of_run run).stored holds (by simp)
  have bears := bears_of_written (asRead_of_originated originated).1 written
  exact ⟨entry.2.object, bears, (keyed_of_network run node).messages entry stored⟩

/-- Bytes that are handed over as a message are a message that the repeater knows. -/
theorem knows_of_handed (run : Run (NetworkStep deployment) (start deployment) actions before)
    {last : Tracker} {targeted broadcast : List Consideration}
    (sent : (before.repeater node).tracker.sendPackets = some (last, targeted, broadcast))
    {consideration : Consideration} (member : consideration ∈ targeted ++ broadcast)
    {data : Bytes} (written : consideration.written = some data)
    (bears : BearsMessage data id) : Knows id (before.repeater node) := by
  obtain ⟨message, bears, rfl⟩ := bears
  have apart := ownApart_of_run run node
  rcases written_of_handed apart sent member written with
    ⟨_, written⟩ | ⟨place, object, holds, stored, written⟩
  · have announces := bears_of_written
      (show (Packet.announce _).AsRead from asRead_of_announceKept apart.kept) written
    cases bears_unique bears announces
  · have originated := (authentic_of_run run).stored holds stored
    obtain ⟨asRead, same⟩ := asRead_of_originated originated
    have reads := bears_of_written asRead written
    rw [same] at reads
    cases bears_unique bears reads
    cases holds with
    | @message key entry kept here =>
        have keyed := (keyed_of_network run node).messages (key, entry) kept
        refine OrderedMap.find?_isSome_iff.mpr ⟨entry, ?_⟩
        rwa [keyed]

/-! ## One action -/

/-- What flooding keeps.  A message that may travel waits to be sent, or is recorded for every
link; what is recorded for a link has reached its other end or is on its way there; and only
messages that are known are on their way. -/
structure Floods (deployment : Deployment Node) (network : Network Node) : Prop where
  orderly : ∀ node, (network.repeater node).Orderly
  keyed : ∀ {node entry ref}, entry ∈ (network.repeater node).tracker.messages.entries →
    (entry.2.address, ref) ∈
      (network.repeater node).tracker.packetsConnectionsSentList.entries →
    (network.repeater node).tracker.handleAt ref = some ref.key
  served : ∀ {node handle other otherHandle entry},
    deployment.links node handle other otherHandle = true →
    entry ∈ (network.repeater node).tracker.messages.entries →
    entry.2.object.packetTtl > 0 →
    entry.2.address ∈ (network.repeater node).tracker.broadcastPacketsToSendList ∨
      (network.repeater node).tracker.Recorded entry.2.address handle
  passed : ∀ {node handle other otherHandle entry},
    deployment.links node handle other otherHandle = true →
    entry ∈ (network.repeater node).tracker.messages.entries →
    (network.repeater node).tracker.Recorded entry.2.address handle →
    Knows entry.1 (network.repeater other) ∨ network.OnItsWay node handle other entry.1
  queued : ∀ {node queue handle data id},
    data ∈ (network.repeater node).tracker.queued queue handle → BearsMessage data id →
    Knows id (network.repeater node)
  inFlight : ∀ {flight sender handle id}, flight ∈ network.inFlight →
    deployment.links sender handle flight.receiver flight.conHandle = true →
    BearsMessage flight.buffer.bytes id → Knows id (network.repeater sender)

/-- Stored messages stay. -/
theorem Floods.knows_stays (floods : Floods deployment before)
    (undisturbed : Undisturbed deployment before action)
    (step : NetworkStep deployment before action after) (knows : Knows id (before.repeater node)) :
    Knows id (after.repeater node) := by
  obtain ⟨actor, event, here, happens, others⟩ := event_of_step step
  by_cases same : node = actor
  · subst same
    rcases messages_of_event (floods.orderly node).separate happens
      (undisturbed.lasting _ _ here) with kept | ⟨address, message, _, admitted⟩
    · rwa [Knows, kept]
    · rw [Knows, admitted.messages, OrderedMap.find?_insert]
      split
      · rfl
      · exact knows
  · rwa [Knows, others node same]

/-- A received message is known. -/
theorem knows_of_delivery {index : Nat} {uptime : UInt64} {address : Address}
    {connection : ConnectionRef} {flight : Flight Node}
    (step : NetworkStep deployment before (.deliver index uptime address connection) after)
    (found : before.inFlight[index]? = some flight)
    (bears : BearsMessage flight.buffer.bytes id) : Knows id (after.repeater flight.receiver) := by
  obtain ⟨actor, event, here, happens, _⟩ := event_of_step step
  rw [Network.event, found, Option.map_some, Option.some.injEq, Prod.mk.injEq] at here
  obtain ⟨rfl, rfl⟩ := here
  obtain ⟨message, ⟨bounded, kept⟩, rfl⟩ := bears
  have decoded : received 0 flight.buffer = .message message := by
    cases found : received 0 flight.buffer with
    | message other =>
        have same := (congrArg Received.kept found).symm.trans kept
        cases same
        rfl
    | announce other =>
        have same := (congrArg Received.kept found).symm.trans kept
        cases same
    | ignored =>
        have same := (congrArg Received.kept found).symm.trans kept
        cases same
  exact known_of_write happens rfl decoded

/-- Why a message is recorded for a connection after an action. -/
inductive Records (deployment : Deployment Node) (before after : Network Node)
    (action : Action Node) (node : Node) (entry : Bytes × Stored Message)
    (ref : ConnectionRef) : Prop where
  /-- It was before. -/
  | old : entry ∈ (before.repeater node).tracker.messages.entries →
      (entry.2.address, ref) ∈
        (before.repeater node).tracker.packetsConnectionsSentList.entries →
      Records deployment before after action node entry ref
  /-- The action hands it over. -/
  | handed {targeted broadcast : List Consideration} {consideration : Consideration} :
      entry ∈ (before.repeater node).tracker.messages.entries →
      (before.repeater node).tracker.sendPackets =
        some ((after.repeater node).tracker, targeted, broadcast) →
      consideration ∈ targeted ++ broadcast → consideration.handed = true →
      consideration.packet = entry.2.address → consideration.connection = ref →
      Records deployment before after action node entry ref
  /-- The action brings it over the connection. -/
  | arrived {event : Event} : before.event action = some (node, event) → event.From ref →
      event.Admits (deployment.platform node) (before.repeater node) entry.2.address
        entry.2.object →
      entry.1 = entry.2.object.messageId →
      Records deployment before after action node entry ref

theorem live_of_message {tracker : Tracker} {entry : Bytes × Stored Message}
    (stored : entry ∈ tracker.messages.entries) : tracker.Live entry.2.address :=
  live_iff.mpr ⟨_, _, .message stored rfl⟩

theorem Floods.records (floods : Floods deployment before)
    (undisturbed : Undisturbed deployment before action)
    (step : NetworkStep deployment before action after) {entry : Bytes × Stored Message}
    {ref : ConnectionRef} (stored : entry ∈ (after.repeater node).tracker.messages.entries)
    (listed : (entry.2.address, ref) ∈
      (after.repeater node).tracker.packetsConnectionsSentList.entries) :
    Records deployment before after action node entry ref := by
  obtain ⟨actor, event, here, happens, others⟩ := event_of_step step
  by_cases same : node = actor
  · subst same
    have lasts := undisturbed.lasting _ _ here
    have orderly := floods.orderly node
    have old : entry ∈ (before.repeater node).tracker.messages.entries →
        Records deployment before after action node entry ref := by
      intro kept
      by_cases sends : event = .tracker .sendPackets
      · subst sends
        obtain ⟨targeted, broadcast, sent⟩ := sendPackets_of_event happens
        rcases ((sendPackets_sendsOnly sent).sent _).mp listed with
          recorded | ⟨consideration, member, handed, equal⟩
        · exact .old kept recorded
        · obtain ⟨packet, connection⟩ := Prod.mk.inj equal
          exact .handed kept sent member handed packet.symm connection.symm
      · exact .old kept (sent_of_event orderly.separate orderly.announcing.known happens lasts
          sends (live_of_message kept) listed)
    rcases messages_of_event orderly.separate happens lasts with
      kept | ⟨address, message, _, admitted⟩
    · exact old (kept ▸ stored)
    · rw [admitted.messages] at stored
      rcases OrderedMap.mem_insert.mp stored with rfl | ⟨kept, _⟩
      · rcases admitted.sent ref listed with recorded | brought
        · have live := orderly.live address (Or.inl ⟨ref, recorded⟩)
          exact absurd live (not_live admitted.free)
        · exact .arrived here brought admitted.admits rfl
      · exact old kept
  · rw [others node same] at stored listed
    exact .old stored listed

/-- A connection that a message is recorded for is there, under its handle. -/
theorem Floods.keyed_step (floods : Floods deployment before)
    (undisturbed : Undisturbed deployment before action)
    (step : NetworkStep deployment before action after) {entry : Bytes × Stored Message}
    {ref : ConnectionRef} (stored : entry ∈ (after.repeater node).tracker.messages.entries)
    (listed : (entry.2.address, ref) ∈
      (after.repeater node).tracker.packetsConnectionsSentList.entries) :
    (after.repeater node).tracker.handleAt ref = some ref.key := by
  have known := (floods.orderly node).announcing.known
  obtain ⟨actor, event, here, happens, others⟩ := event_of_step step
  cases floods.records undisturbed step stored listed with
  | old kept recorded =>
      by_cases same : node = actor
      · subst same
        exact (sent_stays (floods.orderly node).separate known happens
          (undisturbed.lasting _ _ here) recorded (floods.keyed kept recorded)).2
      · rw [others node same]
        exact floods.keyed kept recorded
  | @handed targeted broadcast consideration kept sent member handed packet connection =>
      have effect := sendPackets_sendsOnly sent
      rw [handleAt_of_settled effect.settled]
      rcases List.mem_append.mp member with first | second
      · have waited := effect.pair_of_targeted first
        have handled := ((floods.orderly node).announcing.waiting _ waited).2.1
        rwa [connection] at handled
      · have waited := effect.pair_of_broadcast second
        have open' := openAt_of_broadcastPairs waited
        rw [connection] at open'
        exact handleAt_of_openAt known open'
  | @arrived event arrives brought admits key =>
      cases here.symm.trans arrives
      cases event with
      | processWrite uptime address connection conHandle offset buffer =>
          cases brought
          obtain ⟨key, handled⟩ := undisturbed.connected.arrives arrives
          have receives := @receives_of_write _ _ _
            ⟨uptime, address, ref, conHandle, offset, buffer⟩
            (floods.orderly node).separate happens
          rw [receives.handleAt, handled, key]
      | gpioCallback | handlePinActivity | tracker => exact brought.elim

/-- A message that may travel waits, or is recorded for every link. -/
theorem Floods.served_step (floods : Floods deployment before)
    (undisturbed : Undisturbed deployment before action)
    (step : NetworkStep deployment before action after) {entry : Bytes × Stored Message}
    (link : deployment.links node handle other otherHandle = true)
    (stored : entry ∈ (after.repeater node).tracker.messages.entries)
    (travels : entry.2.object.packetTtl > 0) :
    entry.2.address ∈ (after.repeater node).tracker.broadcastPacketsToSendList ∨
      (after.repeater node).tracker.Recorded entry.2.address handle := by
  obtain ⟨actor, event, here, happens, others⟩ := event_of_step step
  by_cases same : node = actor
  · subst same
    have lasts := undisturbed.lasting _ _ here
    have orderly := floods.orderly node
    have old : entry ∈ (before.repeater node).tracker.messages.entries →
        entry.2.address ∈ (after.repeater node).tracker.broadcastPacketsToSendList ∨
          (after.repeater node).tracker.Recorded entry.2.address handle := by
      intro kept
      rcases floods.served link kept travels with waits | ⟨ref, listed, handled⟩
      · by_cases sends : event = .tracker .sendPackets
        · subst sends
          right
          obtain ⟨targeted, broadcast, sent⟩ := sendPackets_of_event happens
          obtain ⟨ref, rfl, open'⟩ := undisturbed.connected.linksOpen link
          exact recorded_of_exactRecipients orderly.announcing.known sent
            (undisturbed.proper.sends here _ _ _ sent) waits open'
        · exact Or.inl (broadcast_of_event orderly.separate orderly.announcing.known happens
            lasts sends waits)
      · right
        have keyed := floods.keyed kept listed
        cases handled.symm.trans keyed
        exact recorded_stays orderly happens lasts listed keyed
    rcases messages_of_event orderly.separate happens lasts with
      kept | ⟨address, message, _, admitted⟩
    · exact old (kept ▸ stored)
    · rw [admitted.messages] at stored
      rcases OrderedMap.mem_insert.mp stored with rfl | ⟨kept, _⟩
      · exact Or.inl (admitted.waits travels)
      · exact old kept
  · rw [others node same] at stored ⊢
    exact floods.served link stored travels

/-! ## What is on its way -/

omit [DecidableEq Node] in
theorem flight_of_transmitted {queue : RawQueue} {conHandle receiverHandle : UInt16}
    {receiver : Node} {transmission : Transmission}
    (transmitted : (rawPacketCallback queue (before.repeater node).tracker conHandle
      errorCodeSuccess).transmitted = some transmission) :
    ∃ flight ∈ before.flights
        (.transmit node queue conHandle errorCodeSuccess receiver receiverHandle),
      flight.receiver = receiver ∧ flight.buffer.bytes = transmission.data := by
  simp only [flights]
  split
  · rename_i found same
    cases transmitted.symm.trans same
    rw [if_pos trivial]
    exact ⟨_, List.mem_append_right _ (List.mem_singleton.mpr rfl), rfl, rfl⟩
  · rename_i none
    cases transmitted.symm.trans none

/-- A callback for a link that takes the oldest packet off sends it over the link. -/
theorem flight_of_taken (paired : deployment.Paired)
    (undisturbed : Undisturbed deployment before action)
    (step : NetworkStep deployment before action after) {queue : RawQueue} {ret : UInt8}
    (link : deployment.links node handle other otherHandle = true)
    (here : before.event action = some (node, .tracker (callback handle ret queue)))
    (taken : Tracker.done ret = true) {data : Bytes}
    (oldest : ((before.repeater node).tracker.queued queue handle).head? = some data) :
    ∃ flight ∈ after.inFlight, flight.receiver = other ∧ flight.buffer.bytes = data := by
  obtain ⟨flies, sound⟩ := inFlight_of_step step
  have only := undisturbed.proper.calls here
  cases action with
  | act actor event =>
      cases here
      exact absurd rfl ((undisturbed.connected.outside rfl link).2 queue ret)
  | deliver index uptime address connection =>
      obtain ⟨_, _, same⟩ := Option.map_eq_some_iff.mp here
      cases queue <;> cases same
  | transmit sender called conHandle answer receiver receiverHandle =>
      have same : sender = node ∧ called = queue ∧ conHandle = handle ∧ answer = ret := by
        cases called <;> cases queue <;> cases here <;> exact ⟨rfl, rfl, rfl, rfl⟩
      obtain ⟨rfl, rfl, rfl, rfl⟩ := same
      obtain ⟨rfl, rfl⟩ := paired.unique link sound
      have success : answer = errorCodeSuccess := by
        have known := undisturbed.connected.answers rfl
        simpa [Tracker.done, known] using taken
      subst success
      have transmits := only.transmits
      rw [oldest, Option.map_some] at transmits
      obtain ⟨transmission, transmitted, same⟩ := Option.map_eq_some_iff.mp transmits
      rw [flies]
      obtain ⟨flight, member, toOther, bytes⟩ := flight_of_transmitted transmitted
      exact ⟨flight, member, toOther, bytes.trans (Prod.mk.inj same).2⟩

/-- What waits for a link waits on, or goes into the air. -/
theorem queued_stays (paired : deployment.Paired)
    (undisturbed : Undisturbed deployment before action)
    (step : NetworkStep deployment before action after) {queue : RawQueue} {data : Bytes}
    (link : deployment.links node handle other otherHandle = true)
    (waits : data ∈ (before.repeater node).tracker.queued queue handle)
    (bears : BearsMessage data id) : after.OnItsWay node handle other id := by
  obtain ⟨actor, event, here, happens, others⟩ := event_of_step step
  have stays : data ∈ (after.repeater node).tracker.queued queue handle →
      after.OnItsWay node handle other id := fun still =>
    Or.inl ⟨queue, data, still, bears⟩
  by_cases same : node = actor
  · subst same
    by_cases sends : event = .tracker .sendPackets
    · subst sends
      obtain ⟨targeted, broadcast, sent⟩ := sendPackets_of_event happens
      exact stays ((mem_queued_sendPackets sent).mpr (Or.inl waits))
    by_cases calls : ∃ called conHandle ret, event = .tracker (callback conHandle ret called)
    · obtain ⟨called, conHandle, ret, rfl⟩ := calls
      have only := undisturbed.proper.calls here
      have done : (rawPacketCallback called (before.repeater node).tracker conHandle
          ret).tracker = (after.repeater node).tracker := by
        cases called <;> exact Option.some.inj (operation_of_event happens).2
      by_cases own : (queue, handle) = (called, conHandle)
      · cases own
        have left := only.removes
        rw [done, remaining] at left
        by_cases taken : Tracker.done ret = true
        · rw [if_pos taken] at left
          cases line : (before.repeater node).tracker.queued queue handle with
          | nil =>
              rw [line] at waits
              cases waits
          | cons oldest rest =>
              rw [line] at waits left
              rcases List.mem_cons.mp waits with rfl | later
              · obtain ⟨flight, flies, toOther, rfl⟩ :=
                  flight_of_taken paired undisturbed step link here taken (by rw [line]; rfl)
                exact Or.inr ⟨flight, flies, toOther, bears⟩
              · exact stays (by rwa [left])
        · rw [if_neg (by simpa using taken)] at left
          exact stays (by rwa [left])
      · have left := only.leaves queue handle own
        rw [done] at left
        exact stays (by rwa [left])
    · have kept := rawPackets_of_event happens sends
        (fun conHandle ret equal => calls ⟨.notify, conHandle, ret, equal⟩)
        (fun conHandle ret equal => calls ⟨.write, conHandle, ret, equal⟩)
      exact stays (by rwa [Tracker.queued, kept])
  · exact stays (by rwa [others node same])

/-- What is in the air stays there, or arrives. -/
theorem flight_stays (step : NetworkStep deployment before action after) {flight : Flight Node}
    (flies : flight ∈ before.inFlight) (bears : BearsMessage flight.buffer.bytes id) :
    Knows id (after.repeater flight.receiver) ∨ flight ∈ after.inFlight := by
  have same := (inFlight_of_step step).1
  rw [same]
  cases action with
  | act actor event => exact Or.inr flies
  | transmit sender queue conHandle ret receiver receiverHandle =>
      right
      simp only [flights]
      split
      · split
        · exact List.mem_append_left _ flies
        · exact flies
      · exact flies
  | deliver index uptime address connection =>
      obtain ⟨position, inside, here⟩ := List.getElem_of_mem flies
      by_cases arrives : position = index
      · subst arrives
        have found : before.inFlight[position]? = some flight := by
          rw [List.getElem?_eq_getElem inside, here]
        exact Or.inl (knows_of_delivery step found bears)
      · exact Or.inr (List.mem_eraseIdx_iff_getElem.mpr ⟨position, inside, arrives, here⟩)

theorem Floods.onItsWay_step (floods : Floods deployment before) (paired : deployment.Paired)
    (undisturbed : Undisturbed deployment before action)
    (step : NetworkStep deployment before action after)
    (link : deployment.links node handle other otherHandle = true)
    (passed : Knows id (before.repeater other) ∨ before.OnItsWay node handle other id) :
    Knows id (after.repeater other) ∨ after.OnItsWay node handle other id := by
  rcases passed with knows | ⟨queue, data, waits, bears⟩ | ⟨flight, flies, rfl, bears⟩
  · exact Or.inl (floods.knows_stays undisturbed step knows)
  · exact Or.inr (queued_stays paired undisturbed step link waits bears)
  · rcases flight_stays step flies bears with knows | still
    · exact Or.inl knows
    · exact Or.inr (Or.inr ⟨flight, still, rfl, bears⟩)

/-- What is recorded for a link has reached its other end, or is on its way there. -/
theorem Floods.passed_step (floods : Floods deployment before) (paired : deployment.Paired)
    (run : Run (NetworkStep deployment) (start deployment) actions before)
    (undisturbed : Undisturbed deployment before action)
    (step : NetworkStep deployment before action after) {entry : Bytes × Stored Message}
    (link : deployment.links node handle other otherHandle = true)
    (stored : entry ∈ (after.repeater node).tracker.messages.entries)
    (recorded : (after.repeater node).tracker.Recorded entry.2.address handle) :
    Knows entry.1 (after.repeater other) ∨ after.OnItsWay node handle other entry.1 := by
  obtain ⟨ref, listed, handled⟩ := recorded
  have keyed := floods.keyed_step undisturbed step stored listed
  cases handled.symm.trans keyed
  cases floods.records undisturbed step stored listed with
  | old kept recorded =>
      have before := floods.passed link kept ⟨ref, recorded, floods.keyed kept recorded⟩
      exact floods.onItsWay_step paired undisturbed step link before
  | @handed targeted broadcast consideration kept sent member handed packet connection =>
      have effect := sendPackets_sendsOnly sent
      rw [handleAt_of_settled effect.settled, ← connection] at keyed
      obtain ⟨queue, data, waits, written⟩ := queued_of_handed sent member handed keyed
      have holds := Holds.message kept rfl
      have found := (separate_of_run run node).packetAt_iff.mpr ⟨_, holds⟩
      rw [← packet] at found
      rw [written_considered sent member found] at written
      rw [connection] at waits
      exact Or.inr (Or.inl ⟨queue, data, waits, bears_of_stored run kept written⟩)
  | @arrived event arrives brought admits key =>
      cases event with
      | processWrite uptime address connection conHandle offset buffer =>
          cases brought
          have here := (undisturbed.connected.arrives arrives).1
          cases action with
          | act actor event =>
              cases arrives
              exact absurd (by rw [here])
                ((undisturbed.connected.outside rfl link).1 uptime address ref offset buffer)
          | transmit sender queue called ret receiver receiverHandle =>
              cases queue <;> cases arrives
          | deliver index other address connection =>
              obtain ⟨flight, found, same⟩ := Option.map_eq_some_iff.mp arrives
              cases same
              have back := paired.back link
              rw [here] at back
              have bears : BearsMessage flight.buffer.bytes entry.1 :=
                ⟨_, ⟨flight.buffer.bounded, congrArg Received.kept admits.decoded⟩, key.symm⟩
              have knows := floods.inFlight (List.mem_of_getElem? found) back bears
              exact Or.inl (floods.knows_stays undisturbed step knows)
      | gpioCallback | handlePinActivity | tracker => exact brought.elim

/-- What waits in a raw queue is known. -/
theorem Floods.queued_step (floods : Floods deployment before)
    (run : Run (NetworkStep deployment) (start deployment) actions before)
    (undisturbed : Undisturbed deployment before action)
    (step : NetworkStep deployment before action after) {queue : RawQueue} {data : Bytes}
    (waits : data ∈ (after.repeater node).tracker.queued queue handle)
    (bears : BearsMessage data id) : Knows id (after.repeater node) := by
  obtain ⟨actor, event, here, happens, others⟩ := event_of_step step
  have old : data ∈ (before.repeater node).tracker.queued queue handle →
      Knows id (after.repeater node) :=
    fun waited => floods.knows_stays undisturbed step (floods.queued waited bears)
  by_cases same : node = actor
  · subst same
    by_cases sends : event = .tracker .sendPackets
    · subst sends
      obtain ⟨targeted, broadcast, sent⟩ := sendPackets_of_event happens
      rcases (mem_queued_sendPackets sent).mp waits with
        waited | ⟨consideration, considered, _, _, written⟩
      · exact old waited
      · exact floods.knows_stays undisturbed step
          (knows_of_handed run sent considered written bears)
    by_cases calls : ∃ called conHandle ret, event = .tracker (callback conHandle ret called)
    · obtain ⟨called, conHandle, ret, rfl⟩ := calls
      have done : (rawPacketCallback called (before.repeater node).tracker conHandle
          ret).tracker = (after.repeater node).tracker := by
        cases called <;> exact Option.some.inj (operation_of_event happens).2
      rw [← done] at waits
      exact old (queued_of_callback waits)
    · have kept := rawPackets_of_event happens sends
        (fun conHandle ret equal => calls ⟨.notify, conHandle, ret, equal⟩)
        (fun conHandle ret equal => calls ⟨.write, conHandle, ret, equal⟩)
      rw [Tracker.queued, kept] at waits
      exact old waits
  · rw [others node same] at waits
    exact old waits

/-- What goes over a link is known where it comes from. -/
theorem Floods.inFlight_step (floods : Floods deployment before) (paired : deployment.Paired)
    (undisturbed : Undisturbed deployment before action)
    (step : NetworkStep deployment before action after) {flight : Flight Node}
    (flies : flight ∈ after.inFlight)
    (link : deployment.links node handle flight.receiver flight.conHandle = true)
    (bears : BearsMessage flight.buffer.bytes id) : Knows id (after.repeater node) := by
  have old : flight ∈ before.inFlight → Knows id (after.repeater node) := fun flew =>
    floods.knows_stays undisturbed step (floods.inFlight flew link bears)
  obtain ⟨same, sound⟩ := inFlight_of_step step
  rw [same] at flies
  cases action with
  | act actor event => exact old flies
  | deliver index uptime address connection => exact old (List.mem_of_mem_eraseIdx flies)
  | transmit sender queue conHandle ret receiver receiverHandle =>
      simp only [flights] at flies
      split at flies
      · rename_i transmission transmitted
        split at flies
        · rcases List.mem_append.mp flies with flew | new
          · exact old flew
          · rw [List.mem_singleton] at new
            subst new
            obtain ⟨rfl, rfl⟩ := paired.unique (paired.back link) (paired.back sound)
            have calls : before.event (.transmit node queue handle ret receiver receiverHandle) =
                some (node, .tracker (callback handle ret queue)) := rfl
            have transmits := (undisturbed.proper.calls calls).transmits
            rw [transmitted] at transmits
            obtain ⟨data, oldest, same⟩ := Option.map_eq_some_iff.mp transmits.symm
            have whole := (Prod.mk.inj same).2
            dsimp only at bears whole
            rw [← whole] at bears
            exact floods.knows_stays undisturbed step
              (floods.queued (List.mem_of_head? oldest) bears)
        · exact old flies
      · exact old flies

theorem Floods.step (floods : Floods deployment before) (paired : deployment.Paired)
    (run : Run (NetworkStep deployment) (start deployment) actions before)
    (undisturbed : Undisturbed deployment before action)
    (step : NetworkStep deployment before action after) : Floods deployment after where
  orderly := by
    intro node
    obtain ⟨actor, event, here, happens, others⟩ := event_of_step step
    by_cases same : node = actor
    · subst same
      exact (floods.orderly node).step (undisturbed.lasting _ _ here) happens
    · rw [others node same]
      exact floods.orderly node
  keyed := floods.keyed_step undisturbed step
  served := floods.served_step undisturbed step
  passed := floods.passed_step paired run undisturbed step
  queued := floods.queued_step run undisturbed step
  inFlight := floods.inFlight_step paired undisturbed step

/-! ## From the first message to the last -/

namespace Network

end Network

/-- A network that floods, behind a run that goes on from a setup. -/
structure FloodsBehind (deployment : Deployment Node) (setup actions : List (Action Node))
    (network : Network Node) : Prop where
  fromStart : Run (NetworkStep deployment) (start deployment) (setup ++ actions) network
  floods : Floods deployment network

theorem FloodsBehind.step (paired : deployment.Paired) {earlier : List (Action Node)}
    {before after : Network Node} {action : Action Node}
    (behind : FloodsBehind deployment setup earlier before)
    (step : Guarded (Undisturbed deployment) (NetworkStep deployment) before action after) :
    FloodsBehind deployment setup (earlier ++ [action]) after := by
  obtain ⟨fromStart, floods⟩ := behind
  obtain ⟨undisturbed, step⟩ := step
  refine ⟨?_, floods.step paired fromStart undisturbed step⟩
  rw [← List.append_assoc]
  exact fromStart.snoc step

end Actions

/-! ## Two repeaters -/

/-- The one or the other of two repeaters. -/
inductive Twin where
  | first
  | second
  deriving DecidableEq

/-- The device writes a message to the first repeater, which sends it to the second. -/
def relayed : List (Action Twin) :=
  [.act .first (.processWrite 0 200 ⟨0x42, 1⟩ 0x42 0 lastHop),
    .act .first (.tracker .sendPackets),
    .transmit .first .write 0x41 0 .second 0x40,
    .deliver 0 0 200 ⟨0x40, 0⟩,
    .act .second (.tracker .sendPackets)]

/-- Nothing is on its way. -/
def still (network : Network Twin) : Bool :=
  network.inFlight.isEmpty && [.first, .second].all fun node =>
    (network.repeater node).tracker.rawPacketToNotify.entries.isEmpty &&
      (network.repeater node).tracker.rawPacketToWrite.entries.isEmpty

end BleRepeater
