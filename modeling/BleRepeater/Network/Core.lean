import BleRepeater.Main.Repeater

/-!
# Networks of repeaters

Repeaters at the nodes of a network, and the packets on their way between them.  An action
is something that happens to one repeater; it may take a packet out of the air or put one
there.  What every event keeps of a repeater, every action keeps of all repeaters.
-/

namespace BleRepeater

open Transition Tracker Repeater

/-- What BTstack transmits fits the 16 bits of its size parameter. -/
theorem transmitted_bounded {queue : RawQueue} {tracker : Tracker} {conHandle : UInt16}
    {ret : UInt8} {transmission : Transmission}
    (transmitted : (rawPacketCallback queue tracker conHandle ret).transmitted =
      some transmission) : transmission.data.length < 2 ^ 16 := by
  rw [(rawPacketCallback_eq queue tracker conHandle ret).1, transmitFirst] at transmitted
  split at transmitted
  · cases transmitted
  · cases transmitted
    rw [List.length_take]
    apply lt_of_le_of_lt (Nat.min_le_left _ _)
    exact Nat.mod_lt _ (by decide)

/-- A packet on its way to a repeater, over the connection that the receiver knows by its
handle. -/
structure Flight (Node : Type) where
  receiver : Node
  conHandle : UInt16
  buffer : Buffer
  deriving DecidableEq

/-- The repeaters, and what is on its way. -/
structure Network (Node : Type) where
  repeater : Node → Repeater
  inFlight : List (Flight Node) := []

/-- Where the repeaters stand: the platform and the first address of each, and which handle
of one may name the same connection as which handle of another. -/
structure Deployment (Node : Type) where
  platform : Node → Platform
  announceAddress : Node → Address
  links : Node → UInt16 → Node → UInt16 → Bool

/-- What happens in a network. -/
inductive Action (Node : Type) where
  /-- Anything that happens to one repeater; what it receives or transmits in this way, it
  receives from or transmits to devices that are not repeaters of the network. -/
  | act (node : Node) (event : Event)
  /-- A callback of BTstack, over a connection to another repeater. -/
  | transmit (node : Node) (queue : RawQueue) (conHandle : UInt16) (ret : UInt8)
      (receiver : Node) (receiverHandle : UInt16)
  /-- One of the packets on their way arrives. -/
  | deliver (index : Nat) (uptime : UInt64) (address : Address) (connection : ConnectionRef)

namespace Network

variable {Node : Type}

/-- All repeaters as started. -/
def start (deployment : Deployment Node) : Network Node :=
  { repeater := fun node => Repeater.new (deployment.announceAddress node) }

/-- The repeaters, adjacent when they may be connected. -/
def graph (deployment : Deployment Node) : SimpleGraph Node :=
  .fromRel fun node other => ∃ handle otherHandle,
    deployment.links node handle other otherHandle = true

/-- The callback of a queue. -/
def callback (conHandle : UInt16) (ret : UInt8) : RawQueue → Operation
  | .notify => .notifyRawPacket conHandle ret
  | .write => .writeRawPacket conHandle ret

/-- The repeater that an action happens to, and what happens to it. -/
def event (network : Network Node) : Action Node → Option (Node × Event)
  | .act node event => some (node, event)
  | .transmit node queue conHandle ret _ _ =>
      some (node, .tracker (callback conHandle ret queue))
  | .deliver index uptime address connection =>
      network.inFlight[index]?.map fun flight => (flight.receiver,
        .processWrite uptime address connection flight.conHandle 0 flight.buffer)

/-- What is on its way after an action. -/
def flights (network : Network Node) : Action Node → List (Flight Node)
  | .act .. => network.inFlight
  | .transmit node queue conHandle ret receiver receiverHandle =>
      match found : (rawPacketCallback queue (network.repeater node).tracker conHandle
          ret).transmitted with
      | some transmission =>
          if ret = errorCodeSuccess then
            network.inFlight ++
              [⟨receiver, receiverHandle, ⟨transmission.data, transmitted_bounded found⟩⟩]
          else network.inFlight
      | none => network.inFlight
  | .deliver index .. => network.inFlight.eraseIdx index

/-- A packet only goes to another repeater over a connection. -/
def linked (deployment : Deployment Node) : Action Node → Bool
  | .transmit node _ conHandle _ receiver receiverHandle =>
      deployment.links node conHandle receiver receiverHandle
  | _ => true

/-- A property of every repeater. -/
def All (property : Node → Repeater → Prop) (network : Network Node) : Prop :=
  ∀ node, property node (network.repeater node)

/-- What an action makes of the network. -/
def next [DecidableEq Node] (deployment : Deployment Node) (network : Network Node)
    (action : Action Node) : Option (Network Node) :=
  if linked deployment action then do
    let (node, event) ← network.event action
    let repeater ← event.next (deployment.platform node) (network.repeater node)
    return {
      repeater := Function.update network.repeater node repeater
      inFlight := network.flights action }
  else none

end Network

/-- One action. -/
def NetworkStep {Node : Type} [DecidableEq Node] (deployment : Deployment Node)
    (before : Network Node) (action : Action Node) (after : Network Node) : Prop :=
  before.next deployment action = some after

namespace Network

variable {Node : Type} [DecidableEq Node] {deployment : Deployment Node}
  {before after : Network Node} {action : Action Node} {actions : List (Action Node)}
  {node : Node}

/-- An action is an event at one repeater, and the others stay as they are. -/
theorem event_of_step (step : NetworkStep deployment before action after) :
    ∃ node event, before.event action = some (node, event) ∧
      EventStep (deployment.platform node) (before.repeater node) event
        (after.repeater node) ∧
      ∀ other, other ≠ node → after.repeater other = before.repeater other := by
  unfold NetworkStep next at step
  split at step
  · obtain ⟨⟨node, event⟩, happens, step⟩ := Option.bind_eq_some_iff.mp step
    obtain ⟨repeater, done, same⟩ := Option.bind_eq_some_iff.mp step
    cases same
    refine ⟨node, event, happens, ?_, ?_⟩
    · simpa using event_of_next done
    · intro other different
      exact Function.update_of_ne different _ _
  · cases step

/-- What the event of an action keeps of its repeater holds of every repeater after it. -/
theorem All.step {property : Node → Repeater → Prop} (all : All property before)
    (step : NetworkStep deployment before action after)
    (preserved : ∀ {node event}, before.event action = some (node, event) →
      property node (before.repeater node) →
      EventStep (deployment.platform node) (before.repeater node) event (after.repeater node) →
      property node (after.repeater node)) : All property after := by
  intro other
  obtain ⟨node, event, happens, done, others⟩ := event_of_step step
  by_cases same : other = node
  · subst same
    exact preserved happens (all other) done
  · rw [others other same]
    exact all other

/-- What every event keeps of a repeater holds of every repeater, in every run. -/
theorem repeater_of_run {property : Node → Repeater → Prop} {before : Network Node}
    (run : Run (NetworkStep deployment) before actions after)
    (preserved : ∀ {node start event finish}, property node start →
      EventStep (deployment.platform node) start event finish → property node finish)
    (initial : All property before) : All property after :=
  run.invariant (fun all step => All.step all step fun _ => preserved) initial

/-- In a run of the network from the start, no two objects of one repeater lie at one
address. -/
theorem separate_of_run (run : Run (NetworkStep deployment) (start deployment) actions after)
    (node : Node) : (after.repeater node).tracker.Separate :=
  @repeater_of_run _ _ _ _ _ (fun _ repeater => repeater.tracker.Separate) _ run
    (fun separate step => separate_of_event separate step)
    (fun node => separate_new (deployment.announceAddress node)) node

/-- An action that does not erase the object behind a pointer of a repeater. -/
def SparesAt (node : Node) (packet : Address) (network : Network Node)
    (action : Action Node) : Prop :=
  ∀ event, network.event action = some (node, event) →
    Spares packet (network.repeater node) event

/-- A stored object stays the same over every run that does not erase it. -/
theorem packetAt_of_run {packet : Address} {object : Packet}
    (run : Run (Guarded (SparesAt node packet) (NetworkStep deployment)) before actions after)
    (separate : (before.repeater node).tracker.Separate)
    (found : (before.repeater node).tracker.packetAt packet = some object)
    (stored : packet ≠ (before.repeater node).tracker.announce.address) :
    (after.repeater node).tracker.packetAt packet = some object := by
  induction run with
  | nil => exact found
  | cons head _ ih =>
      obtain ⟨spared, step⟩ := head
      obtain ⟨other, event, here, happens, others⟩ := event_of_step step
      by_cases same : node = other
      · subst same
        obtain ⟨found, stored⟩ :=
          packetAt_of_event separate happens (spared event here) found stored
        exact ih (separate_of_event separate happens) found stored
      · rw [← others node same] at separate found stored
        exact ih separate found stored

end Network

end BleRepeater
