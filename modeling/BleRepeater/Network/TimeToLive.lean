import BleRepeater.Network.Core

/-!
# Time to live

Nothing in the repeater counts the TTL of a packet down.  The byte that arrives is stored,
passes the test in the enqueue functions, and is written again when the packet is sent on,
so the TTL does not bound how far a packet goes.
-/

namespace BleRepeater

open BinaryReader BinaryWriter Transition Tracker ProtocolProcessor Repeater Network

/-! ## The TTL byte -/

theorem packetTtl_readBase (type : UInt8) (reader : BinaryReader) :
    (Base.read type reader).1.packetTtl = (readUint8 reader).1 := by
  generalize first : (readUint8 reader).1 = ttl
  unfold Base.read
  refine Yields.first (fun value => value = ttl)
    (fun base : Base => base.packetTtl = ttl) first ?_
  intro value same
  exact Yields.bind fun _ => Yields.bind fun _ => Yields.pure same

theorem packetTtl_readPacketBase (type version : UInt8) (reader : BinaryReader) :
    (PacketBase.read type version reader).1.packetTtl = (readUint8 reader).1 := by
  have first := packetTtl_readBase type reader
  generalize (readUint8 reader).1 = ttl at first ⊢
  unfold PacketBase.read
  refine Yields.first (fun base : Base => base.packetTtl = ttl)
    (fun packet : PacketBase => packet.packetTtl = ttl) first ?_
  intro base same
  refine Yields.bind fun packetSenderId => ?_
  dsimp only
  split
  · exact Yields.bind fun _ => Yields.pure same
  · exact Yields.pure same

theorem packetTtl_readAnnounce (type version : UInt8) (reader : BinaryReader) :
    (Announce.read type version reader).1.packetTtl = (readUint8 reader).1 := by
  have first := packetTtl_readPacketBase type version reader
  generalize (readUint8 reader).1 = ttl at first ⊢
  have passAlong : (PacketPassAlong.read type version false reader).1.packetTtl = ttl := by
    unfold PacketPassAlong.read
    refine Yields.first (fun packet : PacketBase => packet.packetTtl = ttl)
      (fun packet : PacketPassAlong => packet.packetTtl = ttl) first ?_
    exact fun packet same => Yields.pure same
  unfold Announce.read
  refine Yields.first (fun packet : PacketPassAlong => packet.packetTtl = ttl)
    (fun announce : Announce => announce.packetTtl = ttl) passAlong ?_
  exact fun packet same => Yields.bind fun _ => Yields.bind fun _ => Yields.pure same

theorem packetTtl_readMessage (type version : UInt8) (reader : BinaryReader) :
    (Message.read type version reader).1.packetTtl = (readUint8 reader).1 := by
  have first := packetTtl_readPacketBase type version reader
  generalize (readUint8 reader).1 = ttl at first ⊢
  unfold Message.read
  refine Yields.first (fun packet : PacketBase => packet.packetTtl = ttl)
    (fun message : Message => message.packetTtl = ttl) first ?_
  intro packet same
  repeat' refine Yields.bind fun _ => ?_
  exact Yields.pure same

/-- What is kept of a received packet has the TTL of the third byte. -/
theorem packetTtl_received {offset : UInt16} {buffer : Buffer} {object : Packet}
    (kept : (received offset buffer).kept = some object) :
    object.base.packetTtl = buffer.bytes.getD (offset.toNat + 2) 0 := by
  rw [received, receive, bind_eq] at kept
  split at kept
  · cases kept
  rename_i version
  rw [bind_eq] at kept
  have nonzero : (readUint8 (BinaryReader.new offset buffer)).1 ≠ 0 :=
    fun zero => version (Or.inl (by rw [zero]; decide))
  obtain ⟨sameBuffer, atType⟩ := readUint8_of_ne nonzero
  generalize (readUint8 (BinaryReader.new offset buffer)).2 = reader at sameBuffer atType kept
  have atTtl : ∀ type, (readUint8 reader).1 = type → type ≠ 0 →
      (readUint8 (readUint8 reader).2).1 = buffer.bytes.getD (offset.toNat + 2) 0 := by
    intro type read nonzero
    obtain ⟨still, position⟩ := readUint8_of_ne (read ▸ nonzero)
    rw [readUint8_value, still, sameBuffer, position, atType]
    rfl
  split at kept
  · rename_i type
    have first := packetTtl_readAnnounce (readUint8 reader).1
      (readUint8 (BinaryReader.new offset buffer)).1 (readUint8 reader).2
    rw [bind_eq] at kept
    rw [atTtl _ type (by decide)] at first
    generalize (Announce.read _ _ _).1 = announce at first kept
    cases kept
    exact first
  · split at kept
    · rename_i type
      have first := packetTtl_readMessage (readUint8 reader).1
        (readUint8 (BinaryReader.new offset buffer)).1 (readUint8 reader).2
      rw [bind_eq] at kept
      rw [atTtl _ type (by decide)] at first
      generalize (Message.read _ _ _).1 = message at first kept
      cases kept
      exact first
    · cases kept

theorem prefix_writePacketBase (packet : PacketBase) (vector : Bytes) :
    vector <+: packet.writePacketPayload vector := by
  rw [packet.writePacketPayload_eq_append]
  exact List.prefix_append _ _

theorem prefix_writePassAlong (packet : PacketPassAlong) (vector : Bytes) :
    vector <+: packet.writePacketPayload vector := by
  have base := prefix_writePacketBase packet.toPacketBase vector
  unfold PacketPassAlong.writePacketPayload
  dsimp only
  split
  · exact base.trans (List.prefix_append _ _)
  · exact base

/-- A payload is written behind what is there. -/
theorem prefix_writePacketPayload {object : Packet} {vector bytes : Bytes}
    (written : object.writePacketPayload vector = some bytes) : vector <+: bytes := by
  cases object with
  | passAlong packet =>
      cases written
      exact prefix_writePassAlong packet vector
  | announce announce =>
      cases written
      have passAlong := prefix_writePassAlong announce.toPacketPassAlong vector
      exact passAlong.trans ((List.prefix_append _ _).trans (List.prefix_append _ _))
  | message message =>
      have base := prefix_writePacketBase message.toPacketBase vector
      refine base.trans ?_
      simp only [Packet.writePacketPayload, Message.writePacketPayload] at written
      split at written
      · split at written
        · cases written
        · cases written
          simp [writeUint8, writeUint16, writeUint64, writeData]
      · cases written
        simp [writeUint8, writeUint16, writeUint64, writeData]

/-- The TTL is the third byte of what is written. -/
theorem packetTtl_written {object : Packet} {bytes : Bytes}
    (written : object.writePacket [] = some bytes) :
    bytes.getD 2 0 = object.base.packetTtl := by
  rw [Packet.writePacket, Base.writePacket_eq] at written
  obtain ⟨rest, same⟩ := prefix_writePacketPayload written
  rw [← same]
  rfl

/-! ## Relaying -/

/-- What a packet is known by: the id of a message, and all that goes into the hash of
another packet. -/
inductive Identity where
  | message (id : Bytes)
  | passAlong (type flags : UInt8) (timestamp sender recipient : UInt64) (payload : Bytes)
  deriving DecidableEq

/-- What a packet in the store is known by. -/
def PacketPassAlong.identity (packet : PacketPassAlong) : Identity :=
  .passAlong packet.packetType packet.packetFlags packet.packetTimestamp
    packet.packetSenderId packet.packetRecipientId packet.payload

/-- What a packet is known by. -/
def Packet.identity : Packet → Identity
  | .passAlong packet => packet.identity
  | .announce packet => packet.toPacketPassAlong.identity
  | .message packet => .message packet.messageId

/-- An action by which a repeater receives a new packet. -/
structure Receipt {Node : Type} (deployment : Deployment Node) (network : Network Node)
    (action : Action Node) (node : Node) (address : Address) where
  uptime : UInt64
  connection : ConnectionRef
  conHandle : UInt16
  offset : UInt16
  buffer : Buffer
  packet : Packet
  arrives : network.event action =
    some (node, .processWrite uptime address connection conHandle offset buffer)
  decoded : (received offset buffer).kept = some packet
  new : (received offset buffer).New (deployment.platform node) (network.repeater node).tracker

/-- An action by which a repeater sends the object at an address. -/
structure Dispatch {Node : Type} (network : Network Node) (action : Action Node) (node : Node)
    (address : Address) where
  tracker : Tracker
  targeted : List Consideration
  broadcast : List Consideration
  consideration : Consideration
  bytes : Bytes
  sends : network.event action = some (node, .tracker .sendPackets)
  sent : (network.repeater node).tracker.sendPackets = some (tracker, targeted, broadcast)
  considered : consideration ∈ targeted ++ broadcast
  handed : consideration.handed = true
  same : consideration.packet = address
  written : consideration.written = some bytes

/-- What is dispatched is the object at the address, as it lies there. -/
theorem written_of_dispatch {Node : Type} {network : Network Node} {action : Action Node} {node : Node}
    {address : Address} (dispatch : Dispatch network action node address) {object : Packet}
    (found : (network.repeater node).tracker.packetAt address = some object) :
    object.writePacket [] = some dispatch.bytes := by
  rw [← dispatch.same] at found
  rw [← written_considered dispatch.sent dispatch.considered found]
  exact dispatch.written

/-- In a run of the network a repeater accepts a received packet as new, keeps it, and sends
it on. -/
structure Relay {Node : Type} [DecidableEq Node] (deployment : Deployment Node)
    (actions : List (Action Node)) (finish : Network Node) where
  node : Node
  address : Address
  earlier : List (Action Node)
  before : Network Node
  arrival : Action Node
  accepted : Network Node
  between : List (Action Node)
  waiting : Network Node
  departure : Action Node
  after : Network Node
  later : List (Action Node)
  split : actions = earlier ++ arrival :: (between ++ departure :: later)
  fromStart : Run (NetworkStep deployment) (start deployment) earlier before
  receipt : Receipt deployment before arrival node address
  receives : NetworkStep deployment before arrival accepted
  keeps : Run (Guarded (SparesAt node address) (NetworkStep deployment)) accepted between
    waiting
  dispatch : Dispatch waiting departure node address
  sends : NetworkStep deployment waiting departure after
  toFinish : Run (NetworkStep deployment) after later finish

variable {Node : Type} [DecidableEq Node] {deployment : Deployment Node}
  {actions : List (Action Node)} {finish : Network Node}

namespace Relay

/-- The TTL byte of the packet as received. -/
def receivedTtl (relay : Relay deployment actions finish) : UInt8 :=
  relay.receipt.buffer.bytes.getD (relay.receipt.offset.toNat + 2) 0

/-- The TTL byte of the packet as sent on. -/
def sentTtl (relay : Relay deployment actions finish) : UInt8 :=
  relay.dispatch.bytes.getD 2 0

end Relay

theorem accepted_of_receipt {before after : Network Node} {action : Action Node}
    {node : Node} {address : Address} (receipt : Receipt deployment before action node address)
    (separate : (before.repeater node).tracker.Separate)
    (step : NetworkStep deployment before action after) :
    Accepted (before.repeater node).tracker (after.repeater node).tracker address
      receipt.packet := by
  obtain ⟨other, event, here, happens, _⟩ := event_of_step step
  cases receipt.arrives.symm.trans here
  obtain ⟨tracker, processed, stays⟩ := Option.bind_eq_some_iff.mp happens.2
  obtain ⟨object, decoded, accepted⟩ :=
    accepted_of_processWrite separate happens.1 receipt.new processed
  cases receipt.decoded.symm.trans decoded
  rw [← Option.some.inj stays]
  exact accepted

/-- A repeater sends a packet on with the TTL with which it received it. -/
theorem Relay.sentTtl_eq (relay : Relay deployment actions finish) :
    relay.sentTtl = relay.receivedTtl := by
  have separate := separate_of_run relay.fromStart relay.node
  have next := separate_of_run (relay.fromStart.snoc relay.receives) relay.node
  have accepted := accepted_of_receipt relay.receipt separate relay.receives
  have found := Network.packetAt_of_run relay.keeps next accepted.found accepted.stored
  have written := written_of_dispatch relay.dispatch found
  calc relay.sentTtl
      = relay.receipt.packet.base.packetTtl := packetTtl_written written
    _ = relay.receivedTtl := packetTtl_received relay.receipt.decoded

/-! ## Hops -/

/-- Where a packet comes from: an action originates it at a node, and its originator is a
number of hops away from that node. -/
inductive Originates (deployment : Deployment Node) (before after : Network Node) :
    Action Node → Node → Packet → Nat → Prop where
  /-- A device that is not a repeater writes the packet. -/
  | device {node uptime address connection conHandle offset buffer packet} :
      (received offset buffer).kept = some packet →
      Originates deployment before after
        (.act node (.processWrite uptime address connection conHandle offset buffer)) node
        packet 1
  /-- A pin makes the repeater send a message. -/
  | pin {node uptime address} :
      ((before.repeater node).smokeSeen || (before.repeater node).lifeCheck) = true →
      Originates deployment before after (.act node (.handlePinActivity uptime address)) node
        (.message (pinMessageOf (deployment.platform node) (before.repeater node) uptime)) 0
  /-- The repeater announces itself. -/
  | announce {node uptime} :
      Originates deployment before after
        (.act node (.tracker (.announceToConnections uptime))) node
        (.announce (after.repeater node).tracker.announce.object) 0

/-- In a run of the network a packet is originated. -/
structure Origination (deployment : Deployment Node) (actions : List (Action Node))
    (finish : Network Node) where
  node : Node
  packet : Packet
  hops : Nat
  earlier : List (Action Node)
  before : Network Node
  action : Action Node
  after : Network Node
  later : List (Action Node)
  split : actions = earlier ++ action :: later
  fromStart : Run (NetworkStep deployment) (start deployment) earlier before
  step : NetworkStep deployment before action after
  toFinish : Run (NetworkStep deployment) after later finish
  originates : Originates deployment before after action node packet hops

/-- TTL bounds the hops of a run: what is relayed is sent on with a smaller TTL than it came
with, by a repeater that is no more hops from the originator of the packet than the TTL
with which it was originated. -/
def TtlBoundsHops (deployment : Deployment Node) (actions : List (Action Node))
    (finish : Network Node) : Prop :=
  ∀ relay : Relay deployment actions finish, relay.sentTtl < relay.receivedTtl ∧
    ∃ origin : Origination deployment actions finish,
      origin.packet.identity = relay.receipt.packet.identity ∧
      (graph deployment).edist origin.node relay.node + origin.hops ≤
        origin.packet.base.packetTtl.toNat

/-- TTL bounds the hops of a run exactly when nothing is relayed in it. -/
theorem ttlBoundsHops_iff (deployment : Deployment Node) (actions : List (Action Node))
    (finish : Network Node) :
    TtlBoundsHops deployment actions finish ↔ IsEmpty (Relay deployment actions finish) := by
  constructor
  · intro bounds
    constructor
    intro relay
    have smaller := (bounds relay).1
    rw [relay.sentTtl_eq] at smaller
    exact lt_irrefl _ smaller
  · intro none relay
    exact none.elim relay

/-- Two repeaters, the handle 0x41 of the first naming the handle 0x40 of the second. -/
def pair : Deployment (Fin 2) where
  platform _ := bytesSummed
  announceAddress _ := 100
  links node handle other otherHandle :=
    node == 0 && handle == 0x41 && other == 1 && otherHandle == 0x40

/-- A repeater is connected over two handles, and packets can be written to the second. -/
def connected (node : Fin 2) : List (Action (Fin 2)) :=
  [.act node (.tracker (.reportConnection 0 0x40 [1, 2, 3, 4, 5, 6] 0)),
    .act node (.tracker (.reportConnection 0 0x41 [1, 2, 3, 4, 5, 7] 0)),
    .act node (.tracker (.updateConnection ⟨0x41, 1⟩ fun connection =>
      { connection with packetCharacteristicValueHandle := 9 }))]

/-- A message with TTL 1. -/
def lastHop : Buffer :=
  ⟨[1, 66, 1, 0, 0, 0, 0, 0, 0, 3, 232, 0, 0, 0, 0, 0, 0, 0, 0, 9, 0,
    0, 0, 0, 0, 0, 0, 3, 232, 1, 5, 0, 0, 0], by decide⟩

/-- The message is written to the first repeater, which sends it to the second. -/
def oneHop : List (Action (Fin 2)) :=
  connected 0 ++ connected 1 ++
    [.act 0 (.processWrite 0 200 ⟨0x40, 0⟩ 0x40 0 lastHop),
      .act 0 (.tracker .sendPackets),
      .transmit 0 .write 0x41 0 1 0x40]

/-- The second repeater receives the message, and sends it on. -/
def twoHops : List (Action (Fin 2)) :=
  oneHop ++ [.deliver 0 0 200 ⟨0x40, 0⟩, .act 1 (.tracker .sendPackets)]

theorem origination_twoHops {finish : Network (Fin 2)}
    (origin : Origination pair twoHops finish) :
    origin.node = 0 ∧ origin.hops = 1 ∧ origin.packet.base.packetTtl = 1 := by
  obtain ⟨node, packet, hops, earlier, before, action, after, later, split, _, _, _,
    originates⟩ := origin
  have member : action ∈ twoHops := by simp [split]
  cases originates with
  | device kept =>
      simp [twoHops, oneHop, connected] at member
      obtain ⟨here, _, _, _, _, offset, buffer⟩ := member
      have ttl := packetTtl_received kept
      rw [offset, buffer] at ttl
      exact ⟨here, rfl, ttl⟩
  | pin pressed => simp [twoHops, oneHop, connected] at member
  | announce => simp [twoHops, oneHop, connected] at member

/-- The second repeater is two hops from the originator of a message with TTL 1, and sends it
on with TTL 1. -/
theorem ttl_not_counted_down :
    ∃ finish, Run (NetworkStep pair) (start pair) twoHops finish ∧
      (∃ relay : Relay pair twoHops finish, relay.node = 1 ∧ relay.receivedTtl = 1 ∧
        relay.sentTtl = 1 ∧ ∀ origin : Origination pair twoHops finish,
          ¬ (graph pair).edist origin.node relay.node + origin.hops ≤
            origin.packet.base.packetTtl.toNat) ∧
      ¬ TtlBoundsHops pair twoHops finish := by
  have outcome : (follow (Network.next pair · ·) oneHop (start pair)).bind (fun before =>
      (before.next pair (.deliver 0 0 200 ⟨0x40, 0⟩)).bind fun accepted =>
        (accepted.repeater 1).tracker.sendPackets.bind fun sent =>
          (accepted.next pair (.act 1 (.tracker .sendPackets))).map fun _ =>
            (before.inFlight, ((before.repeater 1).tracker.messages.find? [5]).isNone,
              ((sent.2.1 ++ sent.2.2).filter fun consideration =>
                consideration.handed && consideration.packet == 200).map
                  Consideration.written)) =
      some ([⟨1, 0x40, lastHop⟩], true, [some lastHop.bytes]) := by
    decide
  obtain ⟨before, reached, outcome⟩ := Option.bind_eq_some_iff.mp outcome
  obtain ⟨accepted, receives, outcome⟩ := Option.bind_eq_some_iff.mp outcome
  obtain ⟨⟨tracker, targeted, broadcast⟩, sent, outcome⟩ := Option.bind_eq_some_iff.mp outcome
  obtain ⟨finish, sends, outcome⟩ := Option.map_eq_some_iff.mp outcome
  simp only [Prod.mk.injEq, List.map_eq_singleton_iff] at outcome
  obtain ⟨inFlight, new, consideration, only, written⟩ := outcome
  have member : consideration ∈ (targeted ++ broadcast).filter fun consideration =>
      consideration.handed && consideration.packet == 200 := by simp [only]
  simp only [List.mem_filter, Bool.and_eq_true, beq_iff_eq] at member
  obtain ⟨considered, handed, packet⟩ := member
  have fromStart : Run (NetworkStep pair) (start pair) oneHop before :=
    Run.of_follow id reached
  have run : Run (NetworkStep pair) (start pair) twoHops finish :=
    fromStart.append (.cons receives (.cons sends (.nil finish)))
  let receipt : Receipt pair before (.deliver 0 0 200 ⟨0x40, 0⟩) 1 200 :=
    { uptime := 0
      connection := ⟨0x40, 0⟩
      conHandle := 0x40
      offset := 0
      buffer := lastHop
      packet := .message ⟨_, _, _, _, _, _, _⟩
      arrives := by rw [Network.event, inFlight]; rfl
      decoded := rfl
      new := Option.isNone_iff_eq_none.mp new }
  let dispatch : Dispatch accepted (.act 1 (.tracker .sendPackets)) 1 200 :=
    { tracker, targeted, broadcast, consideration
      bytes := lastHop.bytes
      sends := rfl
      sent
      considered
      handed
      same := packet
      written }
  let relay : Relay pair twoHops finish :=
    { node := 1
      address := 200
      earlier := oneHop
      before
      arrival := .deliver 0 0 200 ⟨0x40, 0⟩
      accepted
      between := []
      waiting := accepted
      departure := .act 1 (.tracker .sendPackets)
      after := finish
      later := []
      split := rfl
      fromStart
      receipt
      receives
      keeps := .nil accepted
      dispatch
      sends
      toFinish := .nil finish }
  have far : ∀ origin : Origination pair twoHops finish,
      ¬ (graph pair).edist origin.node relay.node + origin.hops ≤
        origin.packet.base.packetTtl.toNat := by
    intro origin close
    obtain ⟨node, hops, ttl⟩ := origination_twoHops origin
    rw [node, hops, ttl] at close
    have apart : (graph pair).edist 0 1 ≠ 0 := by
      simp [SimpleGraph.edist_eq_zero_iff]
    have near : (graph pair).edist 0 1 + 1 ≤ 0 + 1 := by simpa using close
    exact apart (nonpos_iff_eq_zero.mp
      ((ENat.add_le_add_iff_right (by decide)).mp near))
  refine ⟨finish, run, ⟨relay, rfl, rfl, rfl, far⟩, ?_⟩
  intro bounds
  obtain ⟨origin, _, close⟩ := (bounds relay).2
  exact far origin close

end BleRepeater
