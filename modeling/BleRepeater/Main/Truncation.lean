import BleRepeater.Main.Flooding
import BleRepeater.Packet.RoundTrip

/-!
# Truncated messages

A read that does not fit returns zero or nothing and does not move, and the reader
constructor goes on with the next field.  A message that is cut short therefore is a message
all the same, with the id that the later reads find in what is left of the field that was
cut.  Stored under that id, it stands in the way of the message that it was cut from.
-/

namespace BleRepeater

open BinaryReader BinaryWriter Transition Tracker ProtocolProcessor Repeater

/-! ## The id of a truncated message -/

/-- The string behind a length byte, if all of it is there. -/
def stringAt : Bytes → Bytes
  | [] => []
  | len :: rest => if len.toNat ≤ rest.length then rest.take len.toNat else []

/-- Where the reader looks for the length of the id in the first bytes of a message.  In a
field of eight bytes that is cut, each field of one byte takes one byte of what is left. -/
def idPlace (message : Message) (size : Nat) : Nat :=
  let messageFlags := if message.hasPacketRecipient then 28 else 20
  if size < 11 then 5 -- cut in the timestamp: flags, message flags
  else if size < 20 then 13 -- cut in the sender: message flags
  else if size < messageFlags then 21 -- cut in the recipient: message flags
  else if size < messageFlags + 9 then messageFlags + 1 -- cut in the message timestamp
  else messageFlags + 9

/-- The id that the reader finds in the first bytes of a message. -/
def truncatedId (message : Message) (bytes : Bytes) (size : Nat) : Bytes :=
  stringAt ((bytes.take size).drop (idPlace message size))

theorem readString_fst (len : UInt16) (reader : BinaryReader) :
    (Message.readString len reader).1 =
      if reader.pos.toNat + len.toNat > reader.buffer.bytes.length then []
      else (reader.buffer.bytes.drop reader.pos.toNat).take len.toNat := by
  change ((readData len reader).1).getD [] = _
  rw [readData, guarded, bufferSize_toNat]
  split <;> rfl

/-- A length byte and the string behind it, read from wherever the reader stands. -/
theorem stringAt_read (reader : BinaryReader) :
    (Message.readString (readUint8 reader).1.toUInt16 (readUint8 reader).2).1 =
      stringAt (reader.buffer.bytes.drop reader.pos.toNat) := by
  have bounded := reader.buffer.bounded
  rw [readString_fst]
  by_cases more : reader.pos.toNat < reader.buffer.bytes.length
  · have first : reader.byteAt 0 = reader.buffer.bytes[reader.pos.toNat] := by
      simp [byteAt, List.getD_eq_getElem?_getD, more]
    have position : (reader.skip 1).pos.toNat = reader.pos.toNat + 1 := by
      simp only [BinaryReader.skip, UInt16.toNat_add, UInt16.toNat_ofNat']
      omega
    rw [readUint8_inside more]
    dsimp only
    rw [skip_buffer, position, first, List.drop_eq_getElem_cons more, stringAt,
      List.length_drop, UInt8.toNat_toUInt16]
    split
    · rw [if_neg (by omega)]
    · rw [if_pos (by omega)]
  · rw [readUint8_outside (Nat.le_of_not_lt more),
      List.drop_eq_nil_of_le (Nat.le_of_not_lt more)]
    simp [stringAt]

/-! ## Where the reader stands -/

theorem readUint8_snd (reader : BinaryReader) :
    (readUint8 reader).2.buffer = reader.buffer ∧
      (readUint8 reader).2.pos.toNat =
        advance 1 reader.pos.toNat reader.buffer.bytes.length :=
  guarded_snd ..

theorem readUint64_snd (reader : BinaryReader) :
    (readUint64 reader).2.buffer = reader.buffer ∧
      (readUint64 reader).2.pos.toNat =
        advance 8 reader.pos.toNat reader.buffer.bytes.length :=
  guarded_snd ..

/-- The place of the flags, as far as the fields before them fit. -/
def flagsPlace (place size : Nat) : Nat :=
  advance 8 (advance 1 place size) size

theorem readBase_snd (type : UInt8) (reader : BinaryReader) :
    (Base.read type reader).2.buffer = reader.buffer ∧
      (Base.read type reader).2.pos.toNat = advance 1
        (flagsPlace reader.pos.toNat reader.buffer.bytes.length)
        reader.buffer.bytes.length ∧
      (Base.read type reader).1.packetFlags = reader.buffer.bytes.getD
        (flagsPlace reader.pos.toNat reader.buffer.bytes.length) 0 := by
  obtain ⟨ttlBuffer, ttl⟩ := readUint8_snd reader
  obtain ⟨timeBuffer, time⟩ := readUint64_snd (readUint8 reader).2
  obtain ⟨flagsBuffer, flags⟩ := readUint8_snd (readUint64 (readUint8 reader).2).2
  change (readUint8 (readUint64 (readUint8 reader).2).2).2.buffer = _ ∧
    (readUint8 (readUint64 (readUint8 reader).2).2).2.pos.toNat = _ ∧
    (readUint8 (readUint64 (readUint8 reader).2).2).1 = _
  refine ⟨flagsBuffer.trans (timeBuffer.trans ttlBuffer), ?_, ?_⟩
  · rw [flags, time, ttl, timeBuffer, ttlBuffer]
    rfl
  · rw [readUint8_value, time, ttl, timeBuffer, ttlBuffer]
    rfl

/-- The place behind the sender and the recipient. -/
def basePlace (bytes : Bytes) (place : Nat) : Nat :=
  let sender := advance 1 (flagsPlace place bytes.length) bytes.length
  let recipient := advance 8 sender bytes.length
  if bytes.getD (flagsPlace place bytes.length) 0 &&& packetFlagHasRecipient != 0 then
    advance 8 recipient bytes.length
  else recipient

theorem readPacketBase_snd (type version : UInt8) (reader : BinaryReader) :
    (PacketBase.read type version reader).2.buffer = reader.buffer ∧
      (PacketBase.read type version reader).2.pos.toNat =
        basePlace reader.buffer.bytes reader.pos.toNat := by
  obtain ⟨baseBuffer, place, flags⟩ := readBase_snd type reader
  obtain ⟨senderBuffer, sender⟩ := readUint64_snd (Base.read type reader).2
  obtain ⟨recipientBuffer, recipient⟩ :=
    readUint64_snd (readUint64 (Base.read type reader).2).2
  have whole : (PacketBase.read type version reader).2 =
      if (Base.read type reader).1.packetFlags &&& packetFlagHasRecipient != 0 then
        (readUint64 (readUint64 (Base.read type reader).2).2).2
      else (readUint64 (Base.read type reader).2).2 := by
    rw [PacketBase.read, bind_eq, bind_eq]
    dsimp only
    rw [choice_snd, bind_pure_snd]
    generalize Base.read type reader = base
    rfl
  rw [whole, flags, basePlace]
  split
  · rw [recipientBuffer, recipient, senderBuffer, sender, baseBuffer, place]
    exact ⟨rfl, rfl⟩
  · rw [senderBuffer, sender, baseBuffer, place]
    exact ⟨rfl, rfl⟩

/-- The reader finds an id where it stands behind the message timestamp. -/
theorem messageId_read (type version : UInt8) (reader : BinaryReader) :
    (Message.read type version reader).1.messageId =
      stringAt (reader.buffer.bytes.drop (advance 8 (advance 1
        (basePlace reader.buffer.bytes reader.pos.toNat) reader.buffer.bytes.length)
        reader.buffer.bytes.length)) := by
  obtain ⟨baseBuffer, base⟩ := readPacketBase_snd type version reader
  obtain ⟨flagsBuffer, flags⟩ := readUint8_snd (PacketBase.read type version reader).2
  obtain ⟨timeBuffer, time⟩ :=
    readUint64_snd (readUint8 (PacketBase.read type version reader).2).2
  generalize target : stringAt _ = id
  rw [Message.read, bind_eq, bind_eq, bind_eq, bind_eq]
  refine Yields.first (fun read => read = id)
    (fun message : Message => message.messageId = id) ?_ ?_
  · rw [← target, stringAt_read, time, flags, base, timeBuffer, flagsBuffer, baseBuffer]
  · intro read same
    repeat' refine Yields.bind fun _ => ?_
    exact Yields.pure same

/-! ## The place of the id -/

theorem advance_add (front width place size : Nat) :
    advance width (front + place) (front + size) = front + advance width place size := by
  unfold advance
  split_ifs <;> omega

/-- Behind a sender that fits, the reader stands at the message flags or the recipient. -/
theorem senderPlace_eq (size : Nat) (named : 2 ≤ size) :
    advance 8 (advance 1 (flagsPlace 2 size) size) size =
      if size < 11 then min size 4 else if size < 20 then min size 12 else 20 := by
  have flags : flagsPlace 2 size = if size < 11 then min size 3 else 11 := by
    unfold flagsPlace advance
    split_ifs <;> omega
  have sender : advance 1 (flagsPlace 2 size) size =
      if size < 11 then min size 4 else min size 12 := by
    rw [flags]
    unfold advance
    split_ifs <;> omega
  rw [sender]
  unfold advance
  split_ifs <;> omega

/-- From the message flags or the recipient on, the reader reaches the length of the id. -/
theorem idPlace_eq (message : Message) (size : Nat) (named : 2 ≤ size) (flag : Bool)
    (same : 12 ≤ size → flag = message.hasPacketRecipient) :
    advance 8 (advance 1 (if flag then
        advance 8 (advance 8 (advance 1 (flagsPlace 2 size) size) size) size
      else advance 8 (advance 1 (flagsPlace 2 size) size) size) size) size =
      min size (idPlace message size) := by
  rw [senderPlace_eq size named]
  by_cases short : size < 12
  · have base : ∀ flag : Bool, (if flag then advance 8 (if size < 11 then min size 4 else
        if size < 20 then min size 12 else 20) size else if size < 11 then min size 4 else
        if size < 20 then min size 12 else 20) = if size < 11 then min size 4 else size := by
      intro flag
      unfold advance
      split_ifs <;> omega
    rw [base]
    unfold advance idPlace
    dsimp only
    split_ifs <;> omega
  · rw [same (by omega)]
    unfold advance idPlace
    dsimp only
    cases message.hasPacketRecipient <;> simp only [if_true, if_false, Bool.false_eq_true] <;>
      split_ifs <;> omega

/-! ## Receiving a truncated message -/

/-- Bytes that a buffer holds from an offset to its end. -/
def Lies (bytes : Bytes) (offset : UInt16) (buffer : Buffer) : Prop :=
  ∃ front, front.length = offset.toNat ∧ buffer.bytes = front ++ bytes

section Truncated

variable {message : Message} {bytes : Bytes} {size : Nat} {offset : UInt16} {buffer : Buffer}

/-- An encoding starts with the version, the type, the TTL and the timestamp, and then come
the flags. -/
theorem flags_written (written : (Packet.message message).writePacket [] = some bytes) :
    bytes.getD 11 0 = message.packetFlags := by
  obtain ⟨tail, same⟩ := Message.writePacket_onWire written
  subst same
  rfl

/-- The version and the type are read, and the constructor of a message goes on. -/
theorem received_typed {rest : Bytes} (lies : Lies (1 :: typeMessage :: rest) offset buffer) :
    ∃ reader, reader.buffer = buffer ∧ reader.pos.toNat = offset.toNat + 2 ∧
      received offset buffer = .message (Message.read typeMessage 1 reader).1 := by
  obtain ⟨front, place, split⟩ := lies
  have start : (BinaryReader.new offset buffer).At front ([1] ++ ([typeMessage] ++ [])) rest :=
    ⟨by simp [BinaryReader.new, split], place.symm⟩
  have first : (BinaryReader.new offset buffer).At front [1] ([typeMessage] ++ rest) :=
    ⟨by simp [BinaryReader.new, split], place.symm⟩
  have second := start.skip
  have typed : ((BinaryReader.new offset buffer).skip 1).At (front ++ [1]) [typeMessage] rest := by
    simpa using second
  refine ⟨((BinaryReader.new offset buffer).skip 1).skip 1, rfl, ?_, ?_⟩
  · have position := typed.skip_position
    rw [List.length_append, List.length_append, place] at position
    exact position
  · rw [received, receive, (Reads.uint8 1).bind_apply _ first, if_neg (by decide),
      List.length_singleton, (Reads.uint8 typeMessage).bind_apply _ typed,
      if_neg (by decide), if_pos rfl, bind_eq, List.length_singleton]
    generalize Message.read typeMessage 1 _ = read
    rfl

theorem received_ignored (short : size < 2) (lies : Lies (bytes.take size) offset buffer)
    (written : (Packet.message message).writePacket [] = some bytes) :
    received offset buffer = .ignored := by
  obtain ⟨tail, same⟩ := Message.writePacket_onWire written
  obtain ⟨front, place, split⟩ := lies
  rcases Nat.lt_or_ge 0 size with some | none
  · have one : size = 1 := by omega
    subst one same
    have first : (BinaryReader.new offset buffer).At front [1] [] :=
      ⟨by simp [BinaryReader.new, split], place.symm⟩
    rw [received, receive, (Reads.uint8 1).bind_apply _ first, if_neg (by decide)]
    have typeless : (readUint8 ((BinaryReader.new offset buffer).skip [(1 : UInt8)].length)).1 = 0 := by
      have last := first.skip_position
      rw [readUint8_outside]
      rw [last, skip_buffer, BinaryReader.new, split]
      simp
    rw [bind_eq, typeless, if_neg (by decide), if_neg (by decide)]
    rfl
  · have zero : size = 0 := by omega
    subst zero
    have versionless : (readUint8 (BinaryReader.new offset buffer)).1 = 0 := by
      rw [readUint8_outside]
      simp [BinaryReader.new, split, place]
    rw [received, receive, bind_eq, versionless, if_pos (by decide)]
    rfl

/-- The first bytes of a message, the type among them, are a message. -/
theorem received_truncated (type : message.packetType = typeMessage)
    (written : (Packet.message message).writePacket [] = some bytes) (typed : 2 ≤ size)
    (cut : size < bytes.length) (lies : Lies (bytes.take size) offset buffer) :
    ∃ found, received offset buffer = .message found ∧
      found.messageId = truncatedId message bytes size := by
  obtain ⟨tail, same⟩ := Message.writePacket_onWire written
  have begins : bytes.take size = 1 :: typeMessage :: (bytes.drop 2).take (size - 2) := by
    obtain ⟨more, rfl⟩ := Nat.exists_eq_add_of_le typed
    subst same
    simp [type, Nat.add_comm 2]
  obtain ⟨front, place, split⟩ := lies
  have total : buffer.bytes.length = front.length + size := by
    rw [split, List.length_append, List.length_take]
    omega
  obtain ⟨reader, sameBuffer, position, found⟩ :=
    received_typed ⟨front, place, by rw [split, begins]⟩
  refine ⟨_, found, ?_⟩
  let flag : Bool :=
    buffer.bytes.getD (front.length + flagsPlace 2 size) 0 &&& packetFlagHasRecipient != 0
  have flagsAdd : flagsPlace (front.length + 2) (front.length + size) =
      front.length + flagsPlace 2 size := by
    rw [flagsPlace, advance_add, advance_add]
    rfl
  have base : basePlace buffer.bytes (front.length + 2) = front.length + if flag then
        advance 8 (advance 8 (advance 1 (flagsPlace 2 size) size) size) size
      else advance 8 (advance 1 (flagsPlace 2 size) size) size := by
    simp only [basePlace, total, flagsAdd, advance_add, flag]
    split <;> rfl
  have recipient : 12 ≤ size → flag = message.hasPacketRecipient := by
    intro flagged
    have place : flagsPlace 2 size = 11 := by
      unfold flagsPlace advance
      split_ifs <;> omega
    have found : buffer.bytes.getD (front.length + 11) 0 = bytes.getD 11 0 := by
      rw [List.getD_eq_getElem?_getD, List.getD_eq_getElem?_getD, split,
        List.getElem?_append_right (Nat.le_add_right _ _), Nat.add_sub_cancel_left,
        List.getElem?_take_of_lt flagged]
    simp only [flag, place, found, flags_written written, PacketBase.hasPacketRecipient]
  rw [messageId_read, sameBuffer, position, ← place, total, truncatedId, base, advance_add,
    advance_add, idPlace_eq message size typed flag recipient, split,
    List.drop_length_add_append]
  by_cases inside : size ≤ idPlace message size
  · rw [Nat.min_eq_left inside, List.drop_eq_nil_of_le (by simp),
      List.drop_eq_nil_of_le (by rw [List.length_take]; omega)]
  · rw [Nat.min_eq_right (by omega)]

/-- Cut behind its id, a message has its own id. -/
theorem truncatedId_behind (written : (Packet.message message).writePacket [] = some bytes)
    (behind : (if message.hasPacketRecipient then 37 else 29) + 1 +
      message.onWire.messageId.length ≤ size) :
    truncatedId message bytes size = message.onWire.messageId := by
  obtain ⟨tail, same⟩ := Message.writePacket_onWire written
  let front : Bytes := [1, message.packetType] ++ (message.onWire.toBase.fields ++
    message.onWire.toPacketBase.writePacketPayload [] ++
      ([message.messageFlags] ++ writeUint64 [] message.messageTimestamp))
  have length : front.length = if message.hasPacketRecipient then 37 else 29 := by
    simp only [front, PacketBase.writePacketPayload, Base.fields, List.length_append,
      List.length_cons, List.length_nil, length_writeUint64]
    by_cases flag : message.hasPacketRecipient = true
    · have wireFlag : message.onWire.hasPacketRecipient = true := flag
      rw [if_pos flag, if_pos wireFlag, writeUint64_eq_append, List.length_append,
        length_writeUint64, length_writeUint64]
    · have wireFlag : ¬ message.onWire.hasPacketRecipient = true := flag
      rw [if_neg flag, if_neg wireFlag, length_writeUint64]
  have place : idPlace message size = front.length := by
    rw [length]
    unfold idPlace
    dsimp only
    split_ifs at behind ⊢ <;> omega
  have fits := message.fits_onWire.messageId
  have byte : (lengthByte message.onWire.messageId).toNat = message.onWire.messageId.length := by
    have whole := lengthByte_toNat _ fits
    rwa [UInt8.toNat_toUInt16] at whole
  have begins : ∃ rest, bytes = front ++
      (lengthByte message.onWire.messageId :: (message.onWire.messageId ++ rest)) := by
    refine ⟨shortString message.onWire.senderNickname ++
      (writeUint16 [] (UInt16.ofNat message.onWire.content.length) ++
        message.onWire.content) ++ tail, ?_⟩
    rw [same]
    simp [front, Message.body, shortString, Message.onWire]
  obtain ⟨rest, split⟩ := begins
  obtain ⟨more, rfl⟩ := Nat.exists_eq_add_of_le
    (show front.length + 1 + message.onWire.messageId.length ≤ size by omega)
  rw [truncatedId, place, split, List.drop_take, List.drop_left,
    show front.length + 1 + message.onWire.messageId.length + more - front.length =
      message.onWire.messageId.length + more + 1 by omega,
    List.take_succ_cons, stringAt, byte, List.take_length_add_append, List.length_append,
    if_pos (Nat.le_add_right _ _), List.take_left]

/-- The encoding of a message is received as the message that it has. -/
theorem received_whole (type : message.packetType = typeMessage)
    (written : (Packet.message message).writePacket [] = some bytes)
    (lies : Lies bytes offset buffer) : received offset buffer = .message message.onWire := by
  obtain ⟨tail, same⟩ := Message.writePacket_onWire written
  obtain ⟨front, place, split⟩ := lies
  have wireType : message.onWire.packetType = typeMessage := type
  have reads := message.onWire.reads 1 message.fits_onWire
  rw [wireType] at reads
  have whole : Reads receive ([1] ++ ([typeMessage] ++ (message.onWire.toBase.fields ++
      message.onWire.toPacketBase.writePacketPayload [] ++ message.onWire.body)))
      (.message message.onWire) := by
    refine (Reads.uint8 1).bind ?_
    rw [if_neg (by decide)]
    refine (Reads.uint8 typeMessage).bind ?_
    rw [if_neg (by decide), if_pos rfl]
    exact reads.map Received.message
  have at_ : (BinaryReader.new offset buffer).At front ([1] ++ ([typeMessage] ++
      (message.onWire.toBase.fields ++ message.onWire.toPacketBase.writePacketPayload [] ++
        message.onWire.body))) tail := by
    refine ⟨?_, place.symm⟩
    rw [BinaryReader.new, split, same, type]
    simp
  rw [received, whole _ front tail at_]

end Truncated

/-! ## The message that was cut -/

/-- A call stores no message and queues nothing. -/
structure StoresNothing (before after : Tracker) : Prop where
  messages : after.messages = before.messages
  broadcast : after.broadcastPacketsToSendList = before.broadcastPacketsToSendList
  targeted : after.targetedPacketsToSendList = before.targetedPacketsToSendList

/-- A call stores a message, as its encoding has it, and enqueues it for everyone. -/
structure StoresMessage (message : Message) (address : Address) (before after : Tracker) :
    Prop where
  message : after.messages.find? message.onWire.messageId = some ⟨address, message.onWire⟩
  broadcast : after.broadcastPacketsToSendList = before.broadcastPacketsToSendList ++ [address]

section Calls

variable {platform : Platform} {before middle after : Repeater} {message : Message}
  {bytes : Bytes} {size : Nat} {part whole : Write}

/-- Where its id is not known, a message is stored, and enqueued if it has TTL left. -/
theorem storesMessage_iff (separate : before.tracker.Separate)
    (type : message.packetType = typeMessage)
    (written : (Packet.message message).writePacket [] = some bytes)
    (absent : before.tracker.messages.find? message.onWire.messageId = none)
    (entire : Lies bytes whole.offset whole.buffer)
    (step : WriteStep platform before whole after) :
    StoresMessage message whole.address before.tracker after.tracker ↔
      message.packetTtl > 0 := by
  obtain ⟨free, done⟩ := processWrite_of_step step
  have found := received_whole type written entire
  obtain ⟨kept, keeps, accepted⟩ := accepted_of_processWrite separate free
    (by rw [found]; exact absent) done
  rw [found] at keeps
  cases keeps
  have queued : after.tracker.broadcastPacketsToSendList =
      before.tracker.broadcastPacketsToSendList ++
        if message.packetTtl > 0 then [whole.address] else [] := accepted.queued
  simp only [processWrite, found] at done
  constructor
  · intro stores
    by_contra spent
    rw [if_neg spent] at queued
    have lists := queued.symm.trans stores.broadcast
    simp at lists
  · intro travels
    rw [if_pos travels] at queued
    refine ⟨?_, queued⟩
    rw [messages_processMessage_new absent done, OrderedMap.find?_insert_self]

/-- The first bytes of a message without its type, or with an id that is known, change
nothing. -/
theorem unchanged_of_truncated (type : message.packetType = typeMessage)
    (written : (Packet.message message).writePacket [] = some bytes)
    (cut : size < bytes.length)
    (truncated : Lies (bytes.take size) part.offset part.buffer)
    (step : WriteStep platform before part middle)
    (known : size < 2 ∨
      (before.tracker.messages.find? (truncatedId message bytes size)).isSome) :
    middle.tracker = before.tracker := by
  obtain ⟨_, done⟩ := processWrite_of_step step
  rcases Nat.lt_or_ge size 2 with short | typed
  · rw [processWrite, received_ignored short truncated written] at done
    exact (Option.some.inj done).symm
  · have stored := known.resolve_left (by omega)
    obtain ⟨entry, stored⟩ := Option.isSome_iff_exists.mp stored
    obtain ⟨found, decoded, id⟩ := received_truncated type written typed cut truncated
    exact unchanged_of_known stored ⟨found, decoded, id⟩ step

/-- The first bytes of a message with its type and an id that is not known are stored. -/
theorem stored_of_truncated (type : message.packetType = typeMessage)
    (written : (Packet.message message).writePacket [] = some bytes)
    (cut : size < bytes.length)
    (truncated : Lies (bytes.take size) part.offset part.buffer)
    (step : WriteStep platform before part middle) (typed : 2 ≤ size) :
    (middle.tracker.messages.find? (truncatedId message bytes size)).isSome := by
  obtain ⟨found, decoded, id⟩ := received_truncated type written typed cut truncated
  obtain ⟨entry, stored⟩ := stored_of_write ⟨found, decoded, id⟩ step
  simp [stored]

/-- The first bytes of the encoding of a message store nothing, and do not keep the message
itself from being stored and enqueued, exactly when the message has TTL left, and its type
is not among the first bytes or some message is known by the id found in them. -/
theorem truncated_harmless_iff {start : Address} {events : List Event}
    (run : Run (EventStep platform) (Repeater.new start) events before)
    (type : message.packetType = typeMessage)
    (written : (Packet.message message).writePacket [] = some bytes)
    (cut : size < bytes.length)
    (absent : before.tracker.messages.find? message.onWire.messageId = none)
    (truncated : Lies (bytes.take size) part.offset part.buffer)
    (entire : Lies bytes whole.offset whole.buffer)
    (arrives : WriteStep platform before part middle)
    (follows : WriteStep platform middle whole after) :
    StoresNothing before.tracker middle.tracker ∧
        StoresMessage message whole.address middle.tracker after.tracker ↔
      message.packetTtl > 0 ∧ (size < 2 ∨
        (before.tracker.messages.find? (truncatedId message bytes size)).isSome) := by
  have separate := separate_of_event (separate_of_run run) arrives
  constructor
  · intro ⟨nothing, stores⟩
    have still := absent
    rw [← nothing.messages] at still
    refine ⟨(storesMessage_iff separate type written still entire follows).mp stores, ?_⟩
    rcases Nat.lt_or_ge size 2 with short | typed
    · exact Or.inl short
    · right
      rw [← nothing.messages]
      exact stored_of_truncated type written cut truncated arrives typed
  · intro ⟨travels, known⟩
    have unchanged := unchanged_of_truncated type written cut truncated arrives known
    rw [← unchanged] at absent
    refine ⟨?_, (storesMessage_iff separate type written absent entire follows).mpr travels⟩
    rw [unchanged]
    exact ⟨rfl, rfl, rfl⟩

end Calls

/-- A message of id 5 with a nickname and content. -/
def greeting : Message :=
  { packetType := typeMessage, packetTtl := 7, packetTimestamp := 1000, packetSenderId := 9,
    messageTimestamp := 1000, messageId := [5], senderNickname := [65], content := [104, 105] }

/-- The encoding of the greeting. -/
def greetingBytes : Bytes :=
  [1, 66, 7, 0, 0, 0, 0, 0, 0, 3, 232, 0, 0, 0, 0, 0, 0, 0, 0, 9, 0,
    0, 0, 0, 0, 0, 0, 3, 232, 1, 5, 1, 65, 0, 2, 104, 105]

/-- The version byte of the greeting. -/
def versionOnly : Write :=
  ⟨0, 200, ⟨0x40, 0⟩, 0x40, 0, ⟨greetingBytes.take 1, by decide⟩⟩

/-- The greeting, up to its id. -/
def upToId : Write :=
  ⟨0, 200, ⟨0x40, 0⟩, 0x40, 0, ⟨greetingBytes.take 31, by decide⟩⟩

/-- The whole greeting. -/
def wholeGreeting : Write :=
  ⟨0, 300, ⟨0x41, 1⟩, 0x41, 0, ⟨greetingBytes, by decide⟩⟩

theorem truncated_harmless_iff_version :
    ∃ middle after, WriteStep bytesSummed (Repeater.new 100) versionOnly middle ∧
      WriteStep bytesSummed middle wholeGreeting after ∧
      StoresNothing (Tracker.new 100) middle.tracker ∧
      StoresMessage greeting 300 middle.tracker after.tracker := by
  have outcome : ((versionOnly.event.next bytesSummed (Repeater.new 100)).bind fun middle =>
      wholeGreeting.event.next bytesSummed middle).isSome := by decide
  obtain ⟨after, outcome⟩ := Option.isSome_iff_exists.mp outcome
  obtain ⟨middle, arrives, follows⟩ := Option.bind_eq_some_iff.mp outcome
  have arrives := event_of_next arrives
  have follows := event_of_next follows
  have harmless := @truncated_harmless_iff bytesSummed _ middle after greeting greetingBytes 1
    versionOnly wholeGreeting 100 [] (.nil _) rfl rfl (by decide) rfl ⟨[], rfl, rfl⟩
    ⟨[], rfl, rfl⟩ arrives follows
  obtain ⟨nothing, stores⟩ := harmless.mpr ⟨by decide, Or.inl (by decide)⟩
  exact ⟨middle, after, arrives, follows, nothing, stores⟩

/-- The greeting up to its id is stored without nickname and content, and the whole greeting
is dropped. -/
theorem truncated_message_displaces :
    ∃ middle after, WriteStep bytesSummed (Repeater.new 100) upToId middle ∧
      WriteStep bytesSummed middle wholeGreeting after ∧
      middle.tracker.broadcastPacketsToSendList = [200] ∧
      after.tracker.messages.find? [5] =
        some ⟨200, { greeting with senderNickname := [], content := [] }⟩ ∧
      ¬ (StoresNothing (Tracker.new 100) middle.tracker ∧
        StoresMessage greeting 300 middle.tracker after.tracker) := by
  have outcome : ((upToId.event.next bytesSummed (Repeater.new 100)).bind fun middle =>
      (wholeGreeting.event.next bytesSummed middle).map fun after =>
        (middle.tracker.broadcastPacketsToSendList, after.tracker.messages.find? [5])) =
      some ([200], some ⟨200, { greeting with senderNickname := [], content := [] }⟩) := by
    decide
  obtain ⟨middle, arrives, outcome⟩ := Option.bind_eq_some_iff.mp outcome
  obtain ⟨after, follows, same⟩ := Option.map_eq_some_iff.mp outcome
  obtain ⟨queued, stored⟩ := Prod.mk.inj same
  refine ⟨middle, after, event_of_next arrives, event_of_next follows, queued, stored, ?_⟩
  intro ⟨nothing, _⟩
  have lists := queued.symm.trans nothing.broadcast
  cases lists

end BleRepeater
