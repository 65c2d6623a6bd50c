import BleRepeater.Main.Passing
import BleRepeater.Network.TimeToLive

/-!
# Integrity

Repeaters neither invent packets nor change them.  Every packet that a repeater of a network
has stored, and every one that is on its way, is one that was originated: written by a device
to some repeater, caused by a pin of one, or the announce of one.  That repeater is connected
to the place where the packet is now, whichever way and in whichever order packets went.
-/

namespace BleRepeater

open BinaryReader BinaryWriter Transition Tracker ProtocolProcessor Repeater Network

/-! ## One repeater -/

namespace Repeater

/-- The own announce is as set up, nothing else waits for a single connection, and it waits
for nobody else. -/
structure OwnApart (platform : Platform) (tracker : Tracker) : Prop where
  separate : tracker.Separate
  kept : tracker.AnnounceKept platform
  targeted : ∀ entry ∈ tracker.targetedPacketsToSendList.entries,
    entry.1 = tracker.announce.address
  broadcast : tracker.announce.address ∉ tracker.broadcastPacketsToSendList

theorem ownApart_new (platform : Platform) (address : Address) :
    OwnApart platform (Tracker.new address) :=
  ⟨separate_new address, announceKept_new address, by simp [Tracker.new],
    by simp [Tracker.new]⟩

variable {platform : Platform} {before after : Repeater} {event : Event}

/-- An operation that broadcasts nothing but stored objects, and targets nothing but the own
announce. -/
theorem OwnApart.operation {start finish : Tracker} {operation : Operation}
    (apart : OwnApart platform start) (step : OperationStep platform start operation finish)
    (broadcasts : ¬ operation.Broadcasts start.announce.address)
    (targets : ∀ packet, operation.Targets start packet → packet = start.announce.address) :
    OwnApart platform finish := by
  obtain ⟨announce, broadcast, targeted⟩ := places_of_step step
  refine ⟨apart.separate.step step, apart.kept.step step, ?_, ?_⟩
  · intro entry waits
    rw [announce]
    exact (targeted entry waits).elim (apart.targeted entry) (targets entry.1)
  · rw [announce]
    intro waits
    exact (broadcast _ waits).elim apart.broadcast broadcasts

theorem OwnApart.handles {fresh : Address} {kept : Option Packet} {start finish : Tracker}
    {operations : List Operation} (apart : OwnApart platform start)
    (run : Run (Guarded (Handles fresh kept) (OperationStep platform)) start operations finish)
    (free : fresh ≠ start.announce.address) : OwnApart platform finish := by
  induction run with
  | nil => exact apart
  | cons head _ ih =>
      obtain ⟨handles, step⟩ := head
      refine ih (apart.operation step ?_ ?_) ?_
      · exact fun own => free (handles.broadcasts _ own).1.symm
      · exact fun packet target => absurd target (handles.noTarget packet)
      · rwa [(places_of_step step).1]

/-- Events keep the own announce apart. -/
theorem OwnApart.step (apart : OwnApart platform before.tracker)
    (step : EventStep platform before event after) : OwnApart platform after.tracker := by
  have elsewhere : ∀ {address}, before.tracker.packetAt address = none →
      address ≠ before.tracker.announce.address := by
    rintro address free rfl
    exact not_live free (live_announce before.tracker)
  cases event with
  | gpioCallback gpio fell =>
      cases step.2
      exact apart
  | tracker operation =>
      obtain ⟨noBroadcast, targets⟩ :=
        @targets_of_direct before.tracker _ step.1
      refine apart.operation (operation_of_event step) ?_ targets
      rw [noBroadcast]
      exact id
  | handlePinActivity uptime address =>
      obtain ⟨operations, run⟩ := handlePinActivity_run apart.separate step.1 step.2
      exact apart.handles run (elsewhere step.1)
  | processWrite uptime address connection conHandle offset buffer =>
      obtain ⟨tracker, processed, same⟩ := Option.bind_eq_some_iff.mp step.2
      cases same
      obtain ⟨operations, run⟩ := processWrite_run apart.separate step.1 processed
      exact apart.handles run (elsewhere step.1)

/-- Unless a repeater announces itself, its announce stays the same and waits for no further
connection. -/
theorem targeted_of_event (separate : before.tracker.Separate)
    (step : EventStep platform before event after)
    (other : ∀ uptime, event ≠ .tracker (.announceToConnections uptime)) :
    after.tracker.announce = before.tracker.announce ∧
      ∀ entry ∈ after.tracker.targetedPacketsToSendList.entries,
        entry ∈ before.tracker.targetedPacketsToSendList.entries := by
  refine invariant_of_event (fun tracker => tracker.announce = before.tracker.announce ∧
    ∀ entry ∈ tracker.targetedPacketsToSendList.entries,
      entry ∈ before.tracker.targetedPacketsToSendList.entries) separate step ?_
    ⟨rfl, fun _ => id⟩
  intro start operation finish ⟨same, listed⟩ performs step'
  have quiet : ∀ packet, ¬ operation.Targets start packet := by
    cases event with
    | gpioCallback gpio fell => exact performs.elim
    | handlePinActivity uptime address => exact performs.noTarget
    | processWrite uptime address connection conHandle offset buffer =>
        exact performs.noTarget
    | tracker single =>
        have performs : operation = single := performs
        subst performs
        have main : direct operation = true := step.1
        cases operation with
        | announceToConnections uptime => exact absurd rfl (other uptime)
        | enqueueTargetedPacket packet connection => cases main
        | _ => exact fun _ => id
  constructor
  · refine (announce_of_step step' ?_).trans same
    rintro uptime rfl
    exact quiet _ rfl
  · intro entry waits
    have places := (places_of_step step').2.2 entry waits
    exact listed entry (places.resolve_right (quiet entry.1))

/-- What a repeater puts in a raw queue is what it stores, or its announce. -/
theorem written_of_handed (apart : OwnApart platform before.tracker) {after : Tracker}
    {targeted broadcast : List Consideration}
    (sent : before.tracker.sendPackets = some (after, targeted, broadcast))
    {consideration : Consideration} (member : consideration ∈ targeted ++ broadcast)
    {data : Bytes} (written : consideration.written = some data) :
    before.tracker.targetedPacketsToSendList.entries ≠ [] ∧
        (Packet.announce before.tracker.announce.object).writePacket [] = some data ∨
      ∃ place object, before.tracker.Holds consideration.packet place object ∧
        place ≠ .announce ∧ object.writePacket [] = some data := by
  have only := sendPackets_sendsOnly sent
  obtain ⟨object, found, written⟩ := Option.bind_eq_some_iff.mp written
  rw [packetAt_considered sent member] at found
  rcases List.mem_append.mp member with first | second
  · left
    have listed := only.pair_of_targeted first
    have own := apart.targeted _ listed
    dsimp only at own
    rw [own, packetAt_announce, Option.some.injEq] at found
    subst found
    exact ⟨List.ne_nil_of_mem listed, written⟩
  · right
    have waits := (mem_broadcastPairs.mp (only.pair_of_broadcast second)).1
    have other : consideration.packet ≠ before.tracker.announce.address := by
      intro own
      exact apart.broadcast (own ▸ waits)
    obtain ⟨place, holds, stored⟩ := stored_of_packetAt found other
    exact ⟨place, object, holds, stored, written⟩

end Repeater

/-! ## Where packets come from -/

section Origins

variable {Node : Type} [DecidableEq Node] {deployment : Deployment Node}
  {actions : List (Action Node)} {before after finish : Network Node} {action : Action Node}
  {node : Node} {object : Packet}

/-- What is originated in a run is originated in every longer run. -/
def Origination.snoc (origin : Origination deployment actions before)
    (step : NetworkStep deployment before action after) :
    Origination deployment (actions ++ [action]) after where
  node := origin.node
  packet := origin.packet
  hops := origin.hops
  earlier := origin.earlier
  before := origin.before
  action := origin.action
  after := origin.after
  later := origin.later ++ [action]
  split := (congrArg (· ++ [action]) origin.split).trans (by simp)
  fromStart := origin.fromStart
  step := origin.step
  toFinish := origin.toFinish.snoc step
  originates := origin.originates

/-- A packet was originated somewhere in the part of the network that a node is in, and is
stored as it was originated. -/
def Originated (deployment : Deployment Node) (actions : List (Action Node))
    (finish : Network Node) (node : Node) (object : Packet) : Prop :=
  ∃ origin : Origination deployment actions finish, origin.packet.asStored = object ∧
    (graph deployment).Reachable origin.node node

theorem Originated.snoc (originated : Originated deployment actions before node object)
    (step : NetworkStep deployment before action after) :
    Originated deployment (actions ++ [action]) after node object := by
  obtain ⟨origin, same, reached⟩ := originated
  exact ⟨origin.snoc step, same, reached⟩

/-- What an action originates. -/
theorem originated_here {hops : Nat}
    (run : Run (NetworkStep deployment) (start deployment) actions before)
    (step : NetworkStep deployment before action after)
    (originates : Originates deployment before after action node object hops) :
    Originated deployment (actions ++ [action]) after node object.asStored :=
  ⟨{ node, packet := object, hops, earlier := actions, before, action, after, later := []
     split := rfl
     fromStart := run
     step
     toFinish := .nil after
     originates }, rfl, .refl node⟩

/-- A packet stays in its part of the network when it goes over a connection. -/
theorem Originated.linked {conHandle receiverHandle : UInt16} {receiver : Node}
    (originated : Originated deployment actions finish node object)
    (link : deployment.links node conHandle receiver receiverHandle = true) :
    Originated deployment actions finish receiver object := by
  obtain ⟨origin, same, reached⟩ := originated
  refine ⟨origin, same, reached.trans ?_⟩
  by_cases here : node = receiver
  · rw [here]
  · refine SimpleGraph.Adj.reachable ?_
    rw [graph, SimpleGraph.fromRel_adj]
    exact ⟨here, Or.inl ⟨conHandle, receiverHandle, link⟩⟩

/-- In every run of the network the own announces are apart. -/
theorem ownApart_of_run (run : Run (NetworkStep deployment) (start deployment) actions finish)
    (node : Node) : OwnApart (deployment.platform node) (finish.repeater node).tracker := by
  have preserved : ∀ {node start event finish},
      OwnApart (deployment.platform node) (Repeater.tracker start) →
      EventStep (deployment.platform node) start event finish →
      OwnApart (deployment.platform node) finish.tracker := fun apart step => apart.step step
  exact repeater_of_run run preserved
    (fun node => ownApart_new _ (deployment.announceAddress node)) node

/-- Whatever is originated reads as it is. -/
theorem asRead_of_origination (origin : Origination deployment actions finish) :
    origin.packet.AsRead := by
  have kept := (ownApart_of_run (origin.fromStart.snoc origin.step) origin.node).kept
  obtain ⟨node, packet, hops, earlier, before, action, after, later, split, _, _, _,
    originates⟩ := origin
  cases originates with
  | device decoded => exact (asRead_received decoded).1
  | pin pressed => exact asRead_pinMessage ..
  | announce => exact asRead_of_announceKept kept

theorem asRead_of_originated (originated : Originated deployment actions finish node object) :
    object.AsRead ∧ object.asStored = object := by
  obtain ⟨origin, rfl, _⟩ := originated
  have asRead := asRead_of_origination origin
  refine ⟨?_, Packet.asStored_asStored _⟩
  generalize origin.packet = packet at asRead ⊢
  cases packet with
  | passAlong packet => exact asRead
  | announce packet => exact asRead.kept
  | message packet => exact asRead

/-! ## In every run -/

/-- Wherever a packet is, it has been originated: in a store, as the announce that waits, in
a raw queue, and on its way. -/
structure Authentic (deployment : Deployment Node) (actions : List (Action Node))
    (network : Network Node) : Prop where
  stored : ∀ {node address place object},
    (network.repeater node).tracker.Holds address place object → place ≠ .announce →
    Originated deployment actions network node object
  announced : ∀ {node}, (network.repeater node).tracker.targetedPacketsToSendList.entries ≠ [] →
    Originated deployment actions network node
      (.passAlong (network.repeater node).tracker.announce.object.toPacketPassAlong)
  queued : ∀ {node queue conHandle}, ∀ data ∈
    (network.repeater node).tracker.queued queue conHandle,
    ∃ object, Bears data object ∧ Originated deployment actions network node object
  inFlight : ∀ flight ∈ network.inFlight, ∃ object, Bears flight.buffer.bytes object ∧
    Originated deployment actions network flight.receiver object

theorem authentic_start : Authentic deployment [] (start deployment) where
  stored holds stored := by
    cases holds with
    | announce => exact absurd rfl stored
    | message member => cases member
    | packet member => cases member
  announced waits := absurd rfl waits
  queued {_ queue _} data member := by cases queue <;> cases member
  inFlight flight member := by cases member

/-- What is on its way after an action. -/
theorem inFlight_of_step (step : NetworkStep deployment before action after) :
    after.inFlight = before.flights action ∧ linked deployment action = true := by
  unfold NetworkStep Network.next at step
  split at step
  · rename_i link
    obtain ⟨_, _, step⟩ := Option.bind_eq_some_iff.mp step
    obtain ⟨_, _, same⟩ := Option.bind_eq_some_iff.mp step
    cases same
    exact ⟨rfl, link⟩
  · cases step

namespace Authentic

/-- What an event brings has been originated by the action, or was on its way. -/
theorem originated_of_brings (authentic : Authentic deployment actions before)
    (run : Run (NetworkStep deployment) (start deployment) actions before)
    (step : NetworkStep deployment before action after) {event : Event}
    (here : before.event action = some (node, event))
    (brings : event.Brings (deployment.platform node) (before.repeater node) object) :
    Originated deployment (actions ++ [action]) after node object := by
  cases action with
  | act actor happening =>
      cases here
      cases event with
      | handlePinActivity uptime address =>
          obtain ⟨pressed, rfl⟩ := brings
          exact originated_here run step (.pin pressed)
      | processWrite uptime address connection conHandle offset buffer =>
          have originated := originated_here run step (.device brings)
          rwa [(asRead_received brings).2] at originated
      | gpioCallback gpio fell => exact brings.elim
      | tracker operation => exact brings.elim
  | transmit sender queue conHandle ret receiver receiverHandle =>
      cases here
      exact brings.elim
  | deliver index uptime address connection =>
      obtain ⟨flight, found, same⟩ := Option.map_eq_some_iff.mp here
      cases same
      obtain ⟨other, bears, originated⟩ :=
        authentic.inFlight flight (List.mem_of_getElem? found)
      obtain ⟨bounded, bears⟩ := bears
      cases Option.some.inj (brings.symm.trans bears)
      exact originated.snoc step

/-- What waits for a connection has been announced. -/
theorem announced_of_event (authentic : Authentic deployment actions before)
    (run : Run (NetworkStep deployment) (start deployment) actions before)
    (step : NetworkStep deployment before action after) {event : Event}
    (here : before.event action = some (node, event))
    (happens : EventStep (deployment.platform node) (before.repeater node) event
      (after.repeater node))
    (waits : (after.repeater node).tracker.targetedPacketsToSendList.entries ≠ []) :
    Originated deployment (actions ++ [action]) after node
      (.passAlong (after.repeater node).tracker.announce.object.toPacketPassAlong) := by
  by_cases announces : ∃ uptime, event = .tracker (.announceToConnections uptime)
  · obtain ⟨uptime, rfl⟩ := announces
    cases action with
    | act actor happening =>
        cases here
        exact originated_here run step .announce
    | transmit sender queue conHandle ret receiver receiverHandle =>
        cases queue <;> cases here
    | deliver index uptime address connection =>
        obtain ⟨_, _, same⟩ := Option.map_eq_some_iff.mp here
        cases same
  · obtain ⟨same, listed⟩ := targeted_of_event (separate_of_run run node) happens
      fun uptime equal => announces ⟨uptime, equal⟩
    rw [same]
    obtain ⟨entry, rest, split⟩ := List.exists_cons_of_ne_nil waits
    have waited := listed entry (by rw [split]; exact List.mem_cons_self)
    exact (authentic.announced (List.ne_nil_of_mem waited)).snoc step

/-- What a repeater queues has been originated. -/
theorem queued_of_event (authentic : Authentic deployment actions before)
    (run : Run (NetworkStep deployment) (start deployment) actions before)
    (step : NetworkStep deployment before action after) {event : Event}
    (happens : EventStep (deployment.platform node) (before.repeater node) event
      (after.repeater node)) {queue : RawQueue} {conHandle : UInt16} {data : Bytes}
    (waits : data ∈ (after.repeater node).tracker.queued queue conHandle) :
    ∃ object, Bears data object ∧
      Originated deployment (actions ++ [action]) after node object := by
  have old : data ∈ (before.repeater node).tracker.queued queue conHandle → _ := fun waited =>
    (authentic.queued data waited).imp fun _ => And.imp_right (Originated.snoc · step)
  by_cases sends : event = .tracker .sendPackets
  · subst sends
    obtain ⟨⟨tracker, targeted, broadcast⟩, sent, same⟩ :=
      Option.map_eq_some_iff.mp (operation_of_event happens).2
    dsimp only at same
    rw [← same, mem_queued_sendPackets sent] at waits
    rcases waits with waited | ⟨consideration, considered, _, _, written⟩
    · exact old waited
    · have apart := ownApart_of_run run node
      rcases written_of_handed apart sent considered written with
        ⟨waits, written⟩ | ⟨place, object, holds, stored, written⟩
      · have announced := (authentic.announced waits).snoc step
        have asRead : (Packet.announce _).AsRead := asRead_of_announceKept apart.kept
        exact ⟨_, bears_of_written asRead written, announced⟩
      · have originated := authentic.stored holds stored
        obtain ⟨asRead, same⟩ := asRead_of_originated originated
        have bears := bears_of_written asRead written
        rw [same] at bears
        exact ⟨object, bears, originated.snoc step⟩
  · by_cases calls : ∃ called handle ret, event = .tracker (callback handle ret called)
    · obtain ⟨called, handle, ret, rfl⟩ := calls
      have done : (rawPacketCallback called (before.repeater node).tracker handle ret).tracker =
          (after.repeater node).tracker := by
        cases called <;> exact Option.some.inj (operation_of_event happens).2
      rw [← done] at waits
      exact old (queued_of_callback waits)
    · have same := rawPackets_of_event happens sends
        (fun handle ret equal => calls ⟨.notify, handle, ret, equal⟩)
        (fun handle ret equal => calls ⟨.write, handle, ret, equal⟩)
      rw [Tracker.queued, same] at waits
      exact old waits

/-- What goes into the air has been waiting in a raw queue. -/
theorem inFlight_of_action (authentic : Authentic deployment actions before)
    (step : NetworkStep deployment before action after) {flight : Flight Node}
    (flies : flight ∈ after.inFlight) :
    ∃ object, Bears flight.buffer.bytes object ∧
      Originated deployment (actions ++ [action]) after flight.receiver object := by
  have old : flight ∈ before.inFlight → _ := fun flew =>
    (authentic.inFlight flight flew).imp fun _ => And.imp_right (Originated.snoc · step)
  obtain ⟨same, link⟩ := inFlight_of_step step
  rw [same] at flies
  cases action with
  | act actor event => exact old flies
  | deliver index uptime address connection => exact old (List.mem_of_mem_eraseIdx flies)
  | transmit sender queue conHandle ret receiver receiverHandle =>
      simp only [flights] at flies
      split at flies
      · rename_i transmission transmitted
        split at flies
        · rcases List.mem_append.mp flies with flew | new
          · exact old flew
          · rw [List.mem_singleton] at new
            subst new
            obtain ⟨handle, data, waited, taken⟩ := transmitted_waited transmitted
            obtain ⟨object, bears, originated⟩ := authentic.queued data waited
            obtain ⟨bounded, _⟩ := id bears
            rw [Nat.mod_eq_of_lt bounded, List.take_length] at taken
            dsimp only
            rw [taken]
            exact ⟨object, bears, (originated.snoc step).linked link⟩
        · exact old flies
      · exact old flies

theorem step (authentic : Authentic deployment actions before)
    (run : Run (NetworkStep deployment) (start deployment) actions before)
    (step : NetworkStep deployment before action after) :
    Authentic deployment (actions ++ [action]) after := by
  obtain ⟨node, event, here, happens, others⟩ := event_of_step step
  refine ⟨?_, ?_, ?_, fun flight => authentic.inFlight_of_action step⟩
  · intro other address place object holds stored
    by_cases same : other = node
    · subst same
      rcases holds_or_brings (separate_of_run run other) happens holds stored with old | new
      · exact (authentic.stored old stored).snoc step
      · exact authentic.originated_of_brings run step here new
    · rw [others other same] at holds
      exact (authentic.stored holds stored).snoc step
  · intro other waits
    by_cases same : other = node
    · subst same
      exact authentic.announced_of_event run step here happens waits
    · rw [others other same] at waits ⊢
      exact (authentic.announced waits).snoc step
  · intro other queue conHandle data waits
    by_cases same : other = node
    · subst same
      exact authentic.queued_of_event run step happens waits
    · rw [others other same] at waits
      obtain ⟨object, bears, originated⟩ := authentic.queued data waits
      exact ⟨object, bears, originated.snoc step⟩

end Authentic

theorem authentic_of_run
    (run : Run (NetworkStep deployment) (start deployment) actions finish) :
    Authentic deployment actions finish :=
  run.invariant_of_labels (fun run authentic step => authentic.step run step) authentic_start

/-- In every run of a network, what a repeater has stored, and what is on its way to it, is a
packet as it was originated in the part of the network that the repeater is connected to. -/
theorem stored_originated
    (run : Run (NetworkStep deployment) (start deployment) actions finish) :
    (∀ node address object, (finish.repeater node).tracker.packetAt address = some object →
      address ≠ (finish.repeater node).tracker.announce.address →
      Originated deployment actions finish node object) ∧
    ∀ flight ∈ finish.inFlight, ∃ object, (received 0 flight.buffer).kept = some object ∧
      Originated deployment actions finish flight.receiver object := by
  have authentic := authentic_of_run run
  constructor
  · intro node address object found stored
    obtain ⟨place, holds, other⟩ := stored_of_packetAt found stored
    exact authentic.stored holds other
  · intro flight flies
    obtain ⟨object, ⟨_, bears⟩, originated⟩ := authentic.inFlight flight flies
    exact ⟨object, bears, originated⟩

end Origins

/-- What the second repeater has stored after two hops was originated. -/
theorem stored_originated_twoHops :
    ∃ finish object, Run (NetworkStep pair) (start pair) twoHops finish ∧
      (finish.repeater 1).tracker.packetAt 200 = some object ∧
      Originated pair twoHops finish 1 object := by
  have outcome : (follow (Network.next pair · ·) twoHops (start pair)).map (fun finish =>
      (((finish.repeater 1).tracker.packetAt 200).isSome,
        (finish.repeater 1).tracker.announce.address)) = some (true, 100) := by
    decide
  obtain ⟨finish, reached, same⟩ := Option.map_eq_some_iff.mp outcome
  obtain ⟨there, own⟩ := Prod.mk.inj same
  obtain ⟨object, found⟩ := Option.isSome_iff_exists.mp there
  have run : Run (NetworkStep pair) (start pair) twoHops finish := Run.of_follow id reached
  exact ⟨finish, object, run, found,
    (stored_originated run).1 1 200 object found (by rw [own]; decide)⟩

end BleRepeater
