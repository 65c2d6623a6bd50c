import BleRepeater.Library.Run
import BleRepeater.Ble.Send

/-!
# The raw queues

`notifyRawPacket` and `writeRawPacket`, BTstack's callbacks.  The two functions are one
over two queues.  They look up the packets of a handle with `equal_range` and compare the
iterator with the end of the multimap, which tells whether any handle from this one on
has packets.
-/

namespace BleRepeater.Tracker

open Transition

def errorCodeSuccess : UInt8 := 0
def errorCodeUnknownConnectionIdentifier : UInt8 := 2

/-- The two raw queues. -/
inductive RawQueue where
  | notify
  | write
  deriving DecidableEq

/-- The packets of one direction. -/
def rawPackets (tracker : Tracker) : RawQueue → MultiMap UInt16 Bytes
  | .notify => tracker.rawPacketToNotify
  | .write => tracker.rawPacketToWrite

/-- Replace the packets of one direction. -/
def setRawPackets (tracker : Tracker) : RawQueue → MultiMap UInt16 Bytes → Tracker
  | .notify, packets => { tracker with rawPacketToNotify := packets }
  | .write, packets => { tracker with rawPacketToWrite := packets }

/-- A call of `att_server_notify` or of
`gatt_client_write_value_of_characteristic_without_response`.  Both take the size of the
data as a `uint16_t`. -/
structure Transmission where
  conHandle : UInt16
  valueHandle : UInt16
  data : Bytes
  deriving DecidableEq

/-- What a callback does besides changing the tracker. -/
structure RawOutcome where
  tracker : Tracker
  transmitted : Option Transmission
  /-- `ASSERT_DEBUG(connection.hasData())`, where it is reached. -/
  assertHolds : Bool
  requestAgain : Bool
  deriving DecidableEq

/-- The codes after which a packet is taken off its queue. -/
def done (ret : UInt8) : Bool :=
  ret == errorCodeSuccess || ret == errorCodeUnknownConnectionIdentifier

/-- The first half of a callback: transmit what `equal_range` points to, and take it off
the queue when BTstack's answer `ret` says so. -/
def transmitFirst (queue : RawQueue) (tracker : Tracker) (conHandle : UInt16)
    (ret : UInt8) : RawOutcome :=
  match (tracker.rawPackets queue).lowerBound conHandle with
  | [] => ⟨tracker, none, true, false⟩
  | (_, data) :: _ =>
      let (ref, tracker) := tracker.connectionsIndex conHandle
      let connection := (tracker.connectionAt ref).getD {}
      let transmission : Transmission :=
        { conHandle
          valueHandle := connection.packetCharacteristicValueHandle
          data := data.take (data.length % 2 ^ 16) }
      let tracker :=
        if done ret then
          tracker.setRawPackets queue
            ((tracker.rawPackets queue).eraseLowerBound conHandle)
        else tracker
      ⟨tracker, some transmission, connection.hasDataToSend, false⟩

/-- The common body of `notifyRawPacket` and `writeRawPacket`. -/
def rawPacketCallback (queue : RawQueue) (tracker : Tracker) (conHandle : UInt16)
    (ret : UInt8) : RawOutcome :=
  let sent := transmitFirst queue tracker conHandle ret
  match (sent.tracker.rawPackets queue).lowerBound conHandle with
  | [] =>
      -- `setHasData(false)` goes to a copy of the entry
      { sent with tracker := (sent.tracker.connectionsIndex conHandle).2 }
  | _ :: _ => { sent with requestAgain := true }

/-- What looking the connection up and taking packets from the queue keep, a callback
keeps. -/
theorem rawPacketCallback_invariant {motive : Tracker → Prop} {queue : RawQueue}
    {tracker : Tracker} {conHandle : UInt16} (ret : UInt8)
    (indexed : ∀ tracker, motive tracker → motive (tracker.connectionsIndex conHandle).2)
    (queued : ∀ tracker packets, motive tracker → motive (tracker.setRawPackets queue packets))
    (initial : motive tracker) :
    motive (rawPacketCallback queue tracker conHandle ret).tracker := by
  have first : motive (transmitFirst queue tracker conHandle ret).tracker := by
    unfold transmitFirst
    split
    · exact initial
    · dsimp only
      split
      · exact queued _ _ (indexed _ initial)
      · exact indexed _ initial
  unfold rawPacketCallback
  dsimp only
  split
  · exact indexed _ first
  · exact first

/-- `BleConnectionTracker::notifyRawPacket`. -/
def notifyRawPacket (tracker : Tracker) (conHandle : UInt16) (ret : UInt8) : RawOutcome :=
  rawPacketCallback .notify tracker conHandle ret

/-- `BleConnectionTracker::writeRawPacket`. -/
def writeRawPacket (tracker : Tracker) (conHandle : UInt16) (ret : UInt8) : RawOutcome :=
  rawPacketCallback .write tracker conHandle ret

/-! ## Queues -/

@[simp] theorem rawPackets_setRawPackets (tracker : Tracker) (queue other : RawQueue)
    (packets : MultiMap UInt16 Bytes) :
    (tracker.setRawPackets queue packets).rawPackets other =
      if other = queue then packets else tracker.rawPackets other := by
  cases queue <;> cases other <;> rfl

@[simp] theorem rawPackets_connectionsIndex (tracker : Tracker) (handle : UInt16)
    (queue : RawQueue) :
    (tracker.connectionsIndex handle).2.rawPackets queue = tracker.rawPackets queue := by
  unfold connectionsIndex
  cases queue <;> cases tracker.connections.find? handle <;> rfl

/-- The packets queued for a handle, oldest first. -/
def queued (tracker : Tracker) (queue : RawQueue) (handle : UInt16) : List Bytes :=
  (tracker.rawPackets queue).equalRange handle

/-- The second half of a callback only looks at the queue. -/
theorem rawPacketCallback_eq (queue : RawQueue) (tracker : Tracker) (conHandle : UInt16)
    (ret : UInt8) :
    (rawPacketCallback queue tracker conHandle ret).transmitted =
        (transmitFirst queue tracker conHandle ret).transmitted ∧
      (rawPacketCallback queue tracker conHandle ret).tracker.rawPackets =
        (transmitFirst queue tracker conHandle ret).tracker.rawPackets ∧
      ((rawPacketCallback queue tracker conHandle ret).requestAgain = true ↔
        ((transmitFirst queue tracker conHandle ret).tracker.rawPackets
          queue).lowerBound conHandle ≠ []) := by
  have fresh : (transmitFirst queue tracker conHandle ret).requestAgain = false := by
    unfold transmitFirst
    cases (tracker.rawPackets queue).lowerBound conHandle <;> rfl
  unfold rawPacketCallback
  cases bound : ((transmitFirst queue tracker conHandle ret).tracker.rawPackets
      queue).lowerBound conHandle with
  | nil =>
      refine ⟨by simp [bound], ?_, by simp [bound, fresh]⟩
      funext other
      simp [bound]
  | cons entry rest => simp [bound]

theorem transmitFirst_of_nil {queue : RawQueue} {tracker : Tracker} {conHandle : UInt16}
    (bound : (tracker.rawPackets queue).lowerBound conHandle = []) (ret : UInt8) :
    transmitFirst queue tracker conHandle ret = ⟨tracker, none, true, false⟩ := by
  rw [transmitFirst, bound]

/-- A transmission sends the data the lower bound of the handle points to, whoever it was
queued for. -/
theorem transmitFirst_of_cons {queue : RawQueue} {tracker : Tracker} {conHandle : UInt16}
    {first : UInt16} {data : Bytes} {rest : List (UInt16 × Bytes)}
    (bound : (tracker.rawPackets queue).lowerBound conHandle = (first, data) :: rest)
    (ret : UInt8) :
    (transmitFirst queue tracker conHandle ret).transmitted.map
        (fun transmission => (transmission.conHandle, transmission.data)) =
      some (conHandle, data.take (data.length % 2 ^ 16)) ∧
    ∀ other, (transmitFirst queue tracker conHandle ret).tracker.rawPackets other =
      if other = queue ∧ done ret then (tracker.rawPackets queue).eraseLowerBound conHandle
      else tracker.rawPackets other := by
  rw [transmitFirst, bound]
  refine ⟨rfl, ?_⟩
  intro other
  by_cases taken : done ret <;> by_cases same : other = queue <;> simp [taken, same]

/-! ## One callback -/

/-- What is left for a handle once BTstack has answered for its oldest packet. -/
def remaining (tracker : Tracker) (queue : RawQueue) (handle : UInt16) (ret : UInt8) :
    List Bytes :=
  if done ret then (tracker.queued queue handle).tail else tracker.queued queue handle

/-- What a callback is for: it transmits the oldest packet of its own handle, takes it off
exactly after the codes of `done`, leaves all other packets alone, and asks for another
callback exactly when its own handle still has packets. -/
structure OwnPacketsOnly (queue : RawQueue) (tracker : Tracker) (conHandle : UInt16)
    (ret : UInt8) (outcome : RawOutcome) : Prop where
  transmits : (outcome.transmitted.map fun transmission =>
      (transmission.conHandle, transmission.data)) =
    (tracker.queued queue conHandle).head?.map fun data => (conHandle, data)
  removes : outcome.tracker.queued queue conHandle =
    tracker.remaining queue conHandle ret
  leaves : ∀ other handle, (other, handle) ≠ (queue, conHandle) →
    outcome.tracker.queued other handle = tracker.queued other handle
  requests : outcome.requestAgain = true ↔
    outcome.tracker.queued queue conHandle ≠ []

/-- The states in which a callback works: no handle behind its own has packets, or its own
still has some afterwards, and the size of its oldest packet fits 16 bits. -/
structure CallbackReady (queue : RawQueue) (tracker : Tracker) (conHandle : UInt16)
    (ret : UInt8) : Prop where
  alone : (∀ other, conHandle < other → tracker.queued queue other = []) ∨
    tracker.remaining queue conHandle ret ≠ []
  short : ∀ data ∈ (tracker.queued queue conHandle).head?, data.length < 2 ^ 16

/-- The data is transmitted whole exactly when its size fits. -/
theorem take_mod_eq_iff {data : Bytes} :
    data.take (data.length % 2 ^ 16) = data ↔ data.length < 2 ^ 16 := by
  constructor
  · intro whole
    have length := congrArg List.length whole
    rw [List.length_take] at length
    omega
  · intro short
    rw [Nat.mod_eq_of_lt short, List.take_length]

/-- The queues a callback leaves when there are packets from its handle on. -/
theorem queued_of_cons {queue : RawQueue} {tracker : Tracker} {conHandle first : UInt16}
    {data : Bytes} {rest : List (UInt16 × Bytes)}
    (bound : (tracker.rawPackets queue).lowerBound conHandle = (first, data) :: rest)
    (ret : UInt8) (other : RawQueue) (handle : UInt16) :
    (rawPacketCallback queue tracker conHandle ret).tracker.queued other handle =
      if other = queue ∧ done ret then
        ((tracker.rawPackets queue).eraseLowerBound conHandle).equalRange handle
      else tracker.queued other handle := by
  rw [queued, (rawPacketCallback_eq queue tracker conHandle ret).2.1,
    (transmitFirst_of_cons bound ret).2]
  split <;> rfl

/-- Whether a callback asks for another one, when the iterator points to its own handle. -/
theorem requestAgain_of_own {queue : RawQueue} {tracker : Tracker} {conHandle : UInt16}
    {data : Bytes} {rest : List (UInt16 × Bytes)}
    (bound : (tracker.rawPackets queue).lowerBound conHandle = (conHandle, data) :: rest)
    (ret : UInt8) :
    (rawPacketCallback queue tracker conHandle ret).requestAgain = true ↔
      (tracker.remaining queue conHandle ret = [] →
        ∃ other, conHandle < other ∧ tracker.queued queue other ≠ []) := by
  obtain ⟨_, packets, request⟩ := rawPacketCallback_eq queue tracker conHandle ret
  obtain ⟨_, front, others, _⟩ := MultiMap.equalRange_of_lowerBound bound
  have after := queued_of_cons bound ret queue
  have kept : (rawPacketCallback queue tracker conHandle ret).tracker.queued queue conHandle =
      tracker.remaining queue conHandle ret := by
    rw [after, remaining, queued, front]
    simp
  have behindKept : ∀ other, conHandle < other → (rawPacketCallback queue tracker conHandle
      ret).tracker.queued queue other = tracker.queued queue other := by
    intro other behind
    rw [after]
    split
    · exact others other behind.ne'
    · rfl
  rw [request, ← packets, ne_eq, MultiMap.lowerBound_eq_nil_iff]
  change ¬ ((rawPacketCallback queue tracker conHandle ret).tracker.queued queue conHandle =
    [] ∧ ∀ other, conHandle < other → (rawPacketCallback queue tracker conHandle
      ret).tracker.queued queue other = []) ↔ _
  simp only [kept, not_and, not_forall, ne_eq]
  apply imp_congr_right
  intro _
  apply exists_congr
  intro other
  constructor
  · rintro ⟨behind, some⟩
    exact ⟨behind, behindKept other behind ▸ some⟩
  · rintro ⟨behind, some⟩
    exact ⟨behind, (behindKept other behind).symm ▸ some⟩

/-- The iterator points to the oldest packet of the callback's own handle. -/
theorem ownPacketsOnly_of_own {queue : RawQueue} {tracker : Tracker} {conHandle : UInt16}
    {data : Bytes} {rest : List (UInt16 × Bytes)}
    (bound : (tracker.rawPackets queue).lowerBound conHandle = (conHandle, data) :: rest)
    (ret : UInt8) :
    OwnPacketsOnly queue tracker conHandle ret
        (rawPacketCallback queue tracker conHandle ret) ↔
      CallbackReady queue tracker conHandle ret := by
  obtain ⟨_, front, others, _⟩ := MultiMap.equalRange_of_lowerBound bound
  have oldest : (tracker.queued queue conHandle).head? = some data := by
    rw [queued, front]
    rfl
  have after := queued_of_cons bound ret
  have kept : (rawPacketCallback queue tracker conHandle ret).tracker.queued queue conHandle =
      tracker.remaining queue conHandle ret := by
    rw [after, remaining, queued, front]
    simp
  have again := requestAgain_of_own bound ret
  have whole : (rawPacketCallback queue tracker conHandle ret).transmitted.map
      (fun transmission => (transmission.conHandle, transmission.data)) =
        (tracker.queued queue conHandle).head?.map (fun data => (conHandle, data)) ↔
      data.length < 2 ^ 16 := by
    rw [(rawPacketCallback_eq queue tracker conHandle ret).1,
      (transmitFirst_of_cons bound ret).1, oldest]
    simpa using take_mod_eq_iff
  constructor
  · intro only
    refine ⟨?_, ?_⟩
    · by_contra crowded
      simp only [not_or, not_forall, not_not] at crowded
      obtain ⟨⟨other, behind, some⟩, nothing⟩ := crowded
      have requested := again.mpr fun _ => ⟨other, behind, some⟩
      exact only.requests.mp requested (kept.trans nothing)
    · intro other member
      rw [oldest] at member
      cases member
      exact whole.mp only.transmits
  · intro ready
    refine ⟨whole.mpr (ready.short data oldest), kept, ?_, ?_⟩
    · intro other handle different
      rw [after]
      split
      · rename_i here
        obtain ⟨rfl, _⟩ := here
        exact others handle fun same => different (by rw [same])
      · rfl
    · rw [again, kept]
      constructor
      · intro crowded nothing
        obtain ⟨other, behind, some⟩ := crowded nothing
        rcases ready.alone with alone | left
        · exact some (alone other behind)
        · exact left nothing
      · intro left nothing
        exact absurd nothing left

/-- A callback keeps to its own handle exactly in the ready states. -/
theorem ownPacketsOnly_iff (queue : RawQueue) (tracker : Tracker) (conHandle : UInt16)
    (ret : UInt8) :
    OwnPacketsOnly queue tracker conHandle ret
        (rawPacketCallback queue tracker conHandle ret) ↔
      CallbackReady queue tracker conHandle ret := by
  cases bound : (tracker.rawPackets queue).lowerBound conHandle with
  | nil =>
      -- nothing queued from the handle on
      obtain ⟨transmitted, packets, request⟩ :=
        rawPacketCallback_eq queue tracker conHandle ret
      obtain ⟨own, behind⟩ := MultiMap.lowerBound_eq_nil_iff.mp bound
      have own : tracker.queued queue conHandle = [] := own
      rw [transmitFirst_of_nil bound] at transmitted packets request
      have same : ∀ other handle, (rawPacketCallback queue tracker conHandle
          ret).tracker.queued other handle = tracker.queued other handle := by
        intro other handle
        rw [queued, packets]
        rfl
      constructor
      · intro _
        exact ⟨Or.inl behind, by simp [own]⟩
      · intro _
        refine ⟨by simp [transmitted, own], ?_, fun other handle _ => same other handle, ?_⟩
        · rw [same, remaining, own]
          simp
        · rw [request, same, own]
          simp [bound]
  | cons entry rest =>
      obtain ⟨first, data⟩ := entry
      by_cases own : first = conHandle
      · subst own
        exact ownPacketsOnly_of_own bound ret
      · -- the iterator points to a packet of another handle
        obtain ⟨above, front, _, between⟩ := MultiMap.equalRange_of_lowerBound bound
        have behind : conHandle < first := lt_of_le_of_ne above (Ne.symm own)
        have nothing : tracker.queued queue conHandle = [] := between conHandle le_rfl behind
        constructor
        · intro only
          have none := only.transmits
          rw [(rawPacketCallback_eq queue tracker conHandle ret).1,
            (transmitFirst_of_cons bound ret).1, nothing] at none
          cases none
        · intro ready
          rcases ready.alone with alone | left
          · have empty := alone first behind
            rw [queued, front] at empty
            cases empty
          · rw [remaining, nothing] at left
            simp at left

/-! ## Interleavings -/

/-- The queue and the handle a request is for. -/
def Request.target : Request → RawQueue × UInt16
  | .sendNotification conHandle => (.notify, conHandle)
  | .writeWithoutResponse conHandle => (.write, conHandle)

/-- What happens to the raw queues: a packet is queued, or BTstack calls back. -/
inductive RawEvent where
  | queued (request : Request) (data : Bytes)
  | called (queue : RawQueue) (conHandle : UInt16) (ret : UInt8)
      (transmitted : Option Transmission)
  deriving DecidableEq

/-- `SendPacketToConnection` for any packet and connection, or a callback with any answer
of BTstack. -/
inductive RawStep : Tracker → RawEvent → Tracker → Prop where
  | send {tracker after : Tracker} {packet : Address} {connection : ConnectionRef}
      {object : Packet} {request : Request} {data : Bytes} :
      tracker.packetAt packet = some object → object.writePacket [] = some data →
      tracker.sendPacketToConnection packet connection = some (after, request) →
      RawStep tracker (.queued request data) after
  | callback (queue : RawQueue) (tracker : Tracker) (conHandle : UInt16) (ret : UInt8) :
      RawStep tracker
        (.called queue conHandle ret
          (rawPacketCallback queue tracker conHandle ret).transmitted)
        (rawPacketCallback queue tracker conHandle ret).tracker

/-- The callbacks of a run come in ready states. -/
def CallbacksReady (tracker : Tracker) : RawEvent → Prop
  | .queued _ _ => True
  | .called queue conHandle ret _ => CallbackReady queue tracker conHandle ret

/-- What the events queue for one handle. -/
def queuedFor (queue : RawQueue) (handle : UInt16) : List RawEvent → List Bytes
  | [] => []
  | .queued request data :: events =>
      if request.target = (queue, handle) then data :: queuedFor queue handle events
      else queuedFor queue handle events
  | .called .. :: events => queuedFor queue handle events

/-- What was transmitted to one handle and taken off its queue. -/
def takenBy (queue : RawQueue) (handle : UInt16) : List RawEvent → List Bytes
  | [] => []
  | .queued _ _ :: events => takenBy queue handle events
  | .called called conHandle ret transmitted :: events =>
      if (called, conHandle) = (queue, handle) ∧ done ret then
        (transmitted.map Transmission.data).toList ++ takenBy queue handle events
      else takenBy queue handle events

/-- `SendPacketToConnection` puts the encoded packet behind those of the handle. -/
theorem queued_sendPacketToConnection {tracker after : Tracker} {packet : Address}
    {connection : ConnectionRef} {object : Packet} {request : Request} {data : Bytes}
    (found : tracker.packetAt packet = some object)
    (written : object.writePacket [] = some data)
    (sent : tracker.sendPacketToConnection packet connection = some (after, request))
    (queue : RawQueue) (handle : UInt16) :
    after.queued queue handle =
      if request.target = (queue, handle) then tracker.queued queue handle ++ [data]
      else tracker.queued queue handle := by
  simp only [sendPacketToConnection, found, written, Option.bind_eq_bind, Option.bind_some,
    Option.bind_eq_some_iff] at sent
  obtain ⟨bleConnection, _, sent⟩ := sent
  split at sent <;> cases sent <;> cases queue <;>
    simp [queued, rawPackets, Request.target, MultiMap.equalRange_emplace,
      updateConnection, eq_comm]

/-- In a ready state a callback takes off the oldest packet of its handle, and that is
the one it transmitted. -/
theorem queued_callback {queue : RawQueue} {tracker : Tracker} {conHandle : UInt16}
    {ret : UInt8} (ready : CallbackReady queue tracker conHandle ret) (other : RawQueue)
    (handle : UInt16) :
    (if (queue, conHandle) = (other, handle) ∧ done ret then
        ((rawPacketCallback queue tracker conHandle ret).transmitted.map
          Transmission.data).toList
      else []) ++
        (rawPacketCallback queue tracker conHandle ret).tracker.queued other handle =
      tracker.queued other handle := by
  have only := (ownPacketsOnly_iff queue tracker conHandle ret).mpr ready
  by_cases own : (queue, conHandle) = (other, handle)
  · cases own
    have data := congrArg (Option.map Prod.snd) only.transmits
    simp only [Option.map_map, Function.comp_def] at data
    rw [only.removes, remaining]
    by_cases taken : done ret
    · simp only [taken, and_self, if_true, data]
      cases tracker.queued queue conHandle <;> simp
    · simp [taken]
  · rw [only.leaves other handle (Ne.symm own)]
    simp [own]

/-- Every callback keeps to its own handle exactly in the ready states; and over any
interleaving whose callbacks come in ready states, what was transmitted to a handle and
taken off, followed by what still waits, is what was queued for it, in that order. -/
theorem rawQueues_fifo (queue : RawQueue) :
    (∀ (tracker : Tracker) (conHandle : UInt16) (ret : UInt8),
      OwnPacketsOnly queue tracker conHandle ret
          (rawPacketCallback queue tracker conHandle ret) ↔
        CallbackReady queue tracker conHandle ret) ∧
    ∀ (start finish : Tracker) (events : List RawEvent),
      Run (Guarded CallbacksReady RawStep) start events finish →
      ∀ handle : UInt16, start.queued queue handle ++ queuedFor queue handle events =
        takenBy queue handle events ++ finish.queued queue handle := by
  refine ⟨ownPacketsOnly_iff queue, ?_⟩
  intro start finish events run handle
  induction run with
  | nil => simp [queuedFor, takenBy]
  | cons step rest ih =>
      obtain ⟨ready, step⟩ := step
      cases step with
      | send found written sent =>
          have put := queued_sendPacketToConnection found written sent queue handle
          simp only [queuedFor, takenBy]
          rw [← ih, put]
          split <;> simp
      | callback called before conHandle ret =>
          have conserved := queued_callback ready queue handle
          simp only [queuedFor, takenBy]
          rw [← conserved, List.append_assoc, ih]
          split <;> simp

/-- The message of id `id` in `twoLinks`, as it is written. -/
def twoLinksBytes (id : UInt8) : Bytes :=
  [1, 0, 7] ++ List.replicate 26 0 ++ [1, id, 0, 0, 0]

/-- Both messages are queued for 0x40 and the first one for 0x41 as well; BTstack calls back
for 0x40, for 0x41, and for 0x40 again, which it refuses. -/
def interleaved : List RawEvent :=
  [.queued (.sendNotification 0x40) (twoLinksBytes 1),
    .queued (.sendNotification 0x41) (twoLinksBytes 1),
    .queued (.sendNotification 0x40) (twoLinksBytes 2),
    .called .notify 0x40 errorCodeSuccess (some ⟨0x40, 9, twoLinksBytes 1⟩),
    .called .notify 0x41 errorCodeSuccess (some ⟨0x41, 9, twoLinksBytes 1⟩),
    .called .notify 0x40 0x57 (some ⟨0x40, 9, twoLinksBytes 2⟩)]

/-- A state in which a callback is ready because nothing waits for a higher handle. -/
theorem callbackReady_of_last {queue : RawQueue} {tracker : Tracker} {conHandle : UInt16}
    {ret : UInt8} (last : ∀ entry ∈ (tracker.rawPackets queue).entries, entry.1 ≤ conHandle)
    (short : ∀ data ∈ (tracker.queued queue conHandle).head?, data.length < 2 ^ 16) :
    CallbackReady queue tracker conHandle ret := by
  refine ⟨Or.inl ?_, short⟩
  intro other behind
  refine List.eq_nil_iff_forall_not_mem.mpr ?_
  intro data waits
  exact absurd (last _ (MultiMap.mem_equalRange.mp waits)) (not_le.mpr behind)

/-- Both handles are sent their packets in order, and the second one for 0x40 stays. -/
theorem rawQueues_fifo_interleaved :
    ∃ finish, Run (Guarded CallbacksReady RawStep) (twoLinks .empty []) interleaved finish ∧
      finish.queued .notify 0x40 = [twoLinksBytes 2] ∧ finish.queued .notify 0x41 = [] := by
  have run : Run (Guarded CallbacksReady RawStep) (twoLinks .empty []) interleaved _ :=
    .cons ⟨trivial, @RawStep.send _ _ 10 ⟨0x40, 0⟩ _ _ _ rfl rfl rfl⟩ <|
    .cons ⟨trivial, @RawStep.send _ _ 10 ⟨0x41, 1⟩ _ _ _ rfl rfl rfl⟩ <|
    .cons ⟨trivial, @RawStep.send _ _ 20 ⟨0x40, 0⟩ _ _ _ rfl rfl rfl⟩ <|
    -- the first callback is ready because 0x40 has another packet, the others because
    -- nothing waits for a higher handle
    .cons ⟨⟨Or.inr (by decide), by decide⟩, .callback .notify _ 0x40 errorCodeSuccess⟩ <|
    .cons ⟨callbackReady_of_last (by decide) (by decide),
      .callback .notify _ 0x41 errorCodeSuccess⟩ <|
    .cons ⟨callbackReady_of_last (by decide) (by decide), .callback .notify _ 0x40 0x57⟩ <|
    .nil _
  have first := (rawQueues_fifo .notify).2 _ _ _ run 0x40
  have second := (rawQueues_fifo .notify).2 _ _ _ run 0x41
  exact ⟨_, run, (List.cons.inj first.symm).2, (List.cons.inj second.symm).2⟩

/-- Handle 0x40 has nothing to be notified of, but 0x41 has: the callback for 0x40
transmits the packet of 0x41 to 0x40 and takes it off. -/
theorem notifyRawPacket_foreign :
    let tracker : Tracker := { Tracker.new 100 with
      rawPacketToNotify := MultiMap.empty.emplace 0x41 [7] }
    (tracker.notifyRawPacket 0x40 errorCodeSuccess).transmitted = some ⟨0x40, 0, [7]⟩ ∧
      (tracker.notifyRawPacket 0x40 errorCodeSuccess).tracker.queued .notify 0x41 = [] ∧
      ¬ OwnPacketsOnly .notify tracker 0x40 errorCodeSuccess
        (tracker.notifyRawPacket 0x40 errorCodeSuccess) := by
  intro tracker
  refine ⟨rfl, rfl, ?_⟩
  intro only
  have none := only.transmits
  cases none

end BleRepeater.Tracker
