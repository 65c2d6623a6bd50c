import BleRepeater.Ble.Send

/-!
# Who is handed a broadcast packet

`sendPackets` is meant to hand a broadcast packet to every available connection whose
handle the sent list does not hold for that packet.  The search of its loop begins at
the entries of the packet but ends at the end of the list, so the entries of packets
at higher addresses count as well.  This module says exactly when that matters.
-/

namespace BleRepeater.Tracker

/-- The sent list holds an entry for the packet with the handle. -/
def Recorded (tracker : Tracker) (packet : Address) (handle : UInt16) : Prop :=
  ∃ ref, (packet, ref) ∈ tracker.packetsConnectionsSentList.entries ∧
    tracker.handleAt ref = some handle

/-- The connections in the sent list are there. -/
def SentLive (tracker : Tracker) : Prop :=
  ∀ entry ∈ tracker.packetsConnectionsSentList.entries,
    (tracker.handleAt entry.2).isSome

/-- A pair whose pointers can be followed. -/
def Sendable (tracker : Tracker) (pair : Address × ConnectionRef) : Prop :=
  tracker.Writable pair.1 ∧ (tracker.handleAt pair.2).isSome

/-- A tracker all of whose pointers that `sendPackets` follows lead to objects. -/
structure Sound (tracker : Tracker) : Prop where
  sent : tracker.SentLive
  targeted : ∀ entry ∈ tracker.targetedPacketsToSendList.entries, tracker.Sendable entry
  broadcast : ∀ packet ∈ tracker.broadcastPacketsToSendList, tracker.Writable packet

/-- Recording a pair adds its handle. -/
theorem recorded_emplace {tracker next : Tracker} {packet : Address}
    {connection : ConnectionRef} (quiet : next.quiet = tracker.quiet)
    (list : next.packetsConnectionsSentList =
      tracker.packetsConnectionsSentList.emplace packet connection)
    (other : Address) (handle : UInt16) :
    next.Recorded other handle ↔ tracker.Recorded other handle ∨
      other = packet ∧ tracker.handleAt connection = some handle := by
  simp only [Recorded, list, MultiMap.mem_emplace, handleAt_eq quiet, Prod.mk.injEq]
  constructor
  · rintro ⟨ref, ⟨rfl, rfl⟩ | member, found⟩
    · exact Or.inr ⟨rfl, found⟩
    · exact Or.inl ⟨ref, member, found⟩
  · rintro (⟨ref, member, found⟩ | ⟨rfl, found⟩)
    · exact ⟨ref, Or.inr member, found⟩
    · exact ⟨connection, Or.inl ⟨rfl, rfl⟩, found⟩

/-! ## The two searches -/

theorem findHandle_eq {tracker : Tracker} {handle : UInt16} {refs : List ConnectionRef}
    (live : ∀ ref ∈ refs, (tracker.handleAt ref).isSome) :
    tracker.findHandle handle refs =
      some (decide (∃ ref ∈ refs, tracker.handleAt ref = some handle)) := by
  induction refs with
  | nil => simp [findHandle]
  | cons ref refs ih =>
      obtain ⟨other, found⟩ := Option.isSome_iff_exists.mp (live ref (by simp))
      have rest := ih fun ref member => live ref (by simp [member])
      by_cases same : other = handle
      · simp [findHandle, found, same]
      · simp [findHandle, found, same, rest]

theorem visitHandles_eq {tracker : Tracker} {handle : UInt16}
    {entries : List (Address × ConnectionRef)}
    (live : ∀ entry ∈ entries, (tracker.handleAt entry.2).isSome) :
    tracker.visitHandles handle entries =
      some (decide (∀ entry ∈ entries, tracker.handleAt entry.2 ≠ some handle)) := by
  induction entries with
  | nil => simp [visitHandles]
  | cons entry entries ih =>
      obtain ⟨other, found⟩ := Option.isSome_iff_exists.mp (live entry (by simp))
      have rest := ih fun entry member => live entry (by simp [member])
      simp only [visitHandles, found, rest, List.forall_mem_cons, Bool.decide_and,
        Option.bind_eq_bind, Option.bind_some, ne_eq, Option.some.injEq]
      rfl

/-- The targeted loop asks for entries of the packet itself. -/
theorem packetNeeded_spec {tracker : Tracker} (live : tracker.SentLive)
    {packet : Address} {connection : ConnectionRef} {handle : UInt16}
    (found : tracker.handleAt connection = some handle) :
    ∃ wanted, tracker.packetNeeded packet connection = some wanted ∧
      (wanted = true ↔ ¬ tracker.Recorded packet handle) := by
  have inRange : ∀ ref ∈ tracker.packetsConnectionsSentList.equalRange packet,
      (tracker.handleAt ref).isSome := fun ref member =>
    live (packet, ref) (MultiMap.mem_equalRange.mp member)
  have result : tracker.packetNeeded packet connection = some (!decide (∃ ref ∈
      tracker.packetsConnectionsSentList.equalRange packet,
        tracker.handleAt ref = some handle)) := by
    simp only [packetNeeded, found, findHandle_eq inRange, Option.bind_eq_bind,
      Option.bind_some]
    rfl
  exact ⟨_, result, by simp [Recorded]⟩

/-- The broadcast loop asks for entries of the packet, if there are any, and of all
packets at higher addresses. -/
theorem sendable_spec {tracker : Tracker} (live : tracker.SentLive)
    {packet : Address} {connection : ConnectionRef} {handle : UInt16}
    (found : tracker.handleAt connection = some handle) :
    ∃ wanted, tracker.sendable packet connection = some wanted ∧
      (wanted = true ↔ ((∃ other, tracker.Recorded packet other) →
        ∀ newer, packet ≤ newer → ¬ tracker.Recorded newer handle)) := by
  have visited : ∀ entry ∈ tracker.packetsConnectionsSentList.find packet,
      (tracker.handleAt entry.2).isSome := fun entry member =>
    live entry (MultiMap.mem_find.mp member).2.1
  have result : tracker.sendable packet connection = some (decide (∀ entry ∈
      tracker.packetsConnectionsSentList.find packet,
        tracker.handleAt entry.2 ≠ some handle)) := by
    simp only [sendable, found, Option.bind_eq_bind, Option.bind_some,
      visitHandles_eq visited]
  refine ⟨_, result, ?_⟩
  have present : (∃ ref, (packet, ref) ∈ tracker.packetsConnectionsSentList.entries) ↔
      ∃ other, tracker.Recorded packet other := by
    constructor
    · rintro ⟨ref, member⟩
      obtain ⟨other, found⟩ := Option.isSome_iff_exists.mp (live _ member)
      exact ⟨other, ref, member, found⟩
    · rintro ⟨other, ref, member, _⟩
      exact ⟨ref, member⟩
  simp only [decide_eq_true_eq, MultiMap.mem_find, present, Recorded, not_exists, not_and]
  constructor
  · intro none inside newer above ref member
    exact none (newer, ref) ⟨inside, member, above⟩
  · rintro none ⟨newer, ref⟩ ⟨inside, member, above⟩
    exact none inside newer above ref member

/-! ## One loop -/

/-- A search that comes to a decision wherever the pointers can be followed. -/
def Decides (wanted : Tracker → Address → ConnectionRef → Option Bool) : Prop :=
  ∀ (tracker : Tracker) (packet : Address) (connection : ConnectionRef),
    tracker.SentLive → (tracker.handleAt connection).isSome →
    (wanted tracker packet connection).isSome

theorem packetNeeded_decides : Decides packetNeeded := by
  intro tracker packet connection live found
  obtain ⟨handle, found⟩ := Option.isSome_iff_exists.mp found
  obtain ⟨wanted, decided, _⟩ := @packetNeeded_spec _ live packet _ _ found
  rw [decided]
  rfl

theorem sendable_decides : Decides sendable := by
  intro tracker packet connection live found
  obtain ⟨handle, found⟩ := Option.isSome_iff_exists.mp found
  obtain ⟨wanted, decided, _⟩ := @sendable_spec _ live packet _ _ found
  rw [decided]
  rfl

theorem Sendable.quiet {before after : Tracker} {pair : Address × ConnectionRef}
    (same : after.quiet = before.quiet) (sendable : before.Sendable pair) :
    after.Sendable pair := by
  obtain ⟨⟨object, found, written⟩, live⟩ := sendable
  refine ⟨⟨object, ?_, written⟩, ?_⟩
  · rw [packetAt_eq same, found]
  · rw [handleAt_eq same]
    exact live

/-- One decision of a loop. -/
theorem considerSending_isSome
    {wanted : Tracker → Address → ConnectionRef → Option Bool} (decides : Decides wanted)
    {tracker : Tracker} (live : tracker.SentLive) {packet : Address}
    {connection : ConnectionRef} (followed : tracker.Sendable (packet, connection)) :
    ∃ next handed, considerSending wanted tracker packet connection = some (next, handed) ∧
      next.SentLive := by
  obtain ⟨want, decided⟩ := Option.isSome_iff_exists.mp
    (decides tracker packet connection live followed.2)
  have taken : ∃ next, considerSending wanted tracker packet connection =
      some (next, want) := by
    cases want with
    | false => exact ⟨tracker, by simp [considerSending, decided]⟩
    | true =>
        have there : (tracker.connectionAt connection).isSome := by
          simpa [handleAt] using followed.2
        obtain ⟨⟨next, request⟩, sent⟩ := Option.isSome_iff_exists.mp
          (sendPacketToConnection_isSome followed.1 there)
        refine ⟨{ next with
          packetsConnectionsSentList :=
            next.packetsConnectionsSentList.emplace packet connection }, ?_⟩
        simp [considerSending, decided, sent]
  obtain ⟨next, taken⟩ := taken
  refine ⟨next, want, taken, ?_⟩
  obtain ⟨_, quiet, list⟩ := considerSending_spec taken
  intro entry member
  rw [handleAt_eq quiet]
  rw [list] at member
  split at member
  · rcases MultiMap.mem_emplace.mp member with rfl | old
    · exact followed.2
    · exact live entry old
  · exact live entry member

/-- A loop over pairs that can be followed runs to its end. -/
theorem considerEach_isSome
    {wanted : Tracker → Address → ConnectionRef → Option Bool} (decides : Decides wanted)
    {pairs : List (Address × ConnectionRef)} {tracker : Tracker}
    (live : tracker.SentLive) (followed : ∀ pair ∈ pairs, tracker.Sendable pair) :
    ∃ last considered, considerEach wanted pairs tracker = some (last, considered) ∧
      last.SentLive := by
  induction pairs generalizing tracker with
  | nil => exact ⟨tracker, [], rfl, live⟩
  | cons pair pairs ih =>
      obtain ⟨next, handed, step, nextLive⟩ :=
        considerSending_isSome decides live (followed pair (by simp))
      have quiet := (considerSending_spec step).2.1
      obtain ⟨last, considered, rest, lastLive⟩ := ih nextLive fun other member =>
        (followed other (by simp [member])).quiet quiet
      refine ⟨last, ⟨pair.1, pair.2, tracker, handed⟩ :: considered, ?_, lastLive⟩
      simp [considerEach, step, rest]

/-- The decision agrees with the purpose: hand the packet over unless the sent list
holds the handle for that packet. -/
def Consideration.Exact (consideration : Consideration) : Prop :=
  ∀ handle, consideration.before.handleAt consideration.connection = some handle →
    (consideration.handed = true ↔
      ¬ consideration.before.Recorded consideration.packet handle)

/-- An exact decision leaves the pair recorded, whichever way it went. -/
theorem recorded_of_exact {wanted : Tracker → Address → ConnectionRef → Option Bool}
    {tracker next : Tracker} {packet : Address} {connection : ConnectionRef}
    {handed : Bool}
    (step : considerSending wanted tracker packet connection = some (next, handed))
    (exact : Consideration.Exact ⟨packet, connection, tracker, handed⟩)
    (other : Address) (handle : UInt16) :
    next.Recorded other handle ↔ tracker.Recorded other handle ∨
      other = packet ∧ tracker.handleAt connection = some handle := by
  obtain ⟨_, quiet, list⟩ := considerSending_spec step
  cases handed with
  | true => exact recorded_emplace quiet list other handle
  | false =>
      have unchanged : next.Recorded other handle ↔ tracker.Recorded other handle := by
        simp [Recorded, list, handleAt_eq quiet]
      rw [unchanged]
      constructor
      · exact Or.inl
      · rintro (recorded | ⟨rfl, found⟩)
        · exact recorded
        · have decision := exact handle found
          simpa using decision

/-- After a loop of exact decisions exactly its pairs are recorded in addition. -/
theorem recorded_of_all_exact {wanted : Tracker → Address → ConnectionRef → Option Bool}
    {pairs : List (Address × ConnectionRef)} {tracker last : Tracker}
    {considered : List Consideration}
    (run : considerEach wanted pairs tracker = some (last, considered))
    (exact : ∀ consideration ∈ considered, consideration.Exact)
    (packet : Address) (handle : UInt16) :
    last.Recorded packet handle ↔ tracker.Recorded packet handle ∨
      ∃ ref, (packet, ref) ∈ pairs ∧ tracker.handleAt ref = some handle := by
  induction pairs generalizing tracker considered with
  | nil =>
      cases run
      simp
  | cons pair pairs ih =>
      obtain ⟨next, handed, rest, step, further, rfl⟩ := considerEach_cons run
      rw [List.forall_mem_cons] at exact
      rw [ih further exact.2, recorded_of_exact step exact.1, or_assoc]
      simp only [handleAt_eq (considerSending_spec step).2.1]
      apply or_congr_right
      constructor
      · rintro (⟨rfl, found⟩ | ⟨ref, member, found⟩)
        · exact ⟨pair.2, by simp, found⟩
        · exact ⟨ref, by simp [member], found⟩
      · rintro ⟨ref, member, found⟩
        rcases List.mem_cons.mp member with rfl | later
        · exact Or.inl ⟨rfl, found⟩
        · exact Or.inr ⟨ref, later, found⟩

/-- The targeted loop decides exactly. -/
theorem targeted_exact {pairs : List (Address × ConnectionRef)} {tracker last : Tracker}
    {considered : List Consideration} (live : tracker.SentLive)
    (followed : ∀ pair ∈ pairs, tracker.Sendable pair)
    (run : considerEach packetNeeded pairs tracker = some (last, considered)) :
    ∀ consideration ∈ considered, consideration.Exact := by
  induction pairs generalizing tracker considered with
  | nil =>
      cases run
      simp
  | cons pair pairs ih =>
      obtain ⟨next, handed, rest, step, further, rfl⟩ := considerEach_cons run
      obtain ⟨next', handed', step', nextLive⟩ := considerSending_isSome
        packetNeeded_decides live (followed pair (by simp))
      rw [step] at step'
      cases step'
      obtain ⟨decided, quiet, _⟩ := considerSending_spec step
      rw [List.forall_mem_cons]
      constructor
      · intro handle found
        obtain ⟨wanted, decided', needed⟩ := @packetNeeded_spec _ live pair.1 _ _ found
        rw [decided] at decided'
        cases decided'
        exact needed
      · exact ih nextLive (fun other member =>
          (followed other (by simp [member])).quiet quiet) further

/-! ## The broadcast loop -/

/-- Covered from the start, or by one of the pairs that stand earlier. -/
def Covered (tracker : Tracker) (covered : Address → UInt16 → Prop)
    (earlier : List (Address × ConnectionRef)) (packet : Address) (handle : UInt16) :
    Prop :=
  covered packet handle ∨
    ∃ ref, (packet, ref) ∈ earlier ∧ tracker.handleAt ref = some handle

/-- No pair meets an entry of a packet at a higher address: when the loop comes to a
pair that is not covered, but whose packet is covered for some handle, no packet at a
higher address is covered for the handle of the pair. -/
def NoneNewer (tracker : Tracker) (covered : Address → UInt16 → Prop)
    (pairs : List (Address × ConnectionRef)) : Prop :=
  ∀ earlier packet connection later, pairs = earlier ++ (packet, connection) :: later →
    ∀ handle, tracker.handleAt connection = some handle →
      ¬ tracker.Covered covered earlier packet handle →
      (∃ other, tracker.Covered covered earlier packet other) →
      ∀ newer, packet < newer → ¬ tracker.Covered covered earlier newer handle

/-- The condition on the first pair, and on the others once it is covered. -/
theorem noneNewer_cons {tracker : Tracker} {covered : Address → UInt16 → Prop}
    {packet : Address} {connection : ConnectionRef}
    {pairs : List (Address × ConnectionRef)} :
    tracker.NoneNewer covered ((packet, connection) :: pairs) ↔
      (∀ handle, tracker.handleAt connection = some handle → ¬ covered packet handle →
        (∃ other, covered packet other) →
        ∀ newer, packet < newer → ¬ covered newer handle) ∧
      tracker.NoneNewer (tracker.Covered covered [(packet, connection)]) pairs := by
  have moved : ∀ earlier, tracker.Covered covered ((packet, connection) :: earlier) =
      tracker.Covered (tracker.Covered covered [(packet, connection)]) earlier := by
    intro earlier
    funext other handle
    simp only [Covered, List.mem_cons, List.not_mem_nil, or_false, or_and_right,
      exists_or, or_assoc]
  have atStart : tracker.Covered covered [] = covered := by
    funext other handle
    simp [Covered]
  constructor
  · intro none
    constructor
    · simpa only [atStart] using none [] packet connection pairs rfl
    · intro earlier other ref later split
      have here := none ((packet, connection) :: earlier) other ref later
        (by rw [split, List.cons_append])
      rwa [moved] at here
  · rintro ⟨first, rest⟩ earlier other ref later split
    cases earlier with
    | nil =>
        simp only [List.nil_append, List.cons.injEq, Prod.mk.injEq] at split
        obtain ⟨⟨rfl, rfl⟩, _⟩ := split
        rw [atStart]
        exact first
    | cons pair earlier =>
        simp only [List.cons_append, List.cons.injEq] at split
        obtain ⟨rfl, split⟩ := split
        rw [moved]
        exact rest earlier other ref later split

/-- The decisions of the broadcast loop are exact exactly when no pair meets an entry
of a packet at a higher address. -/
theorem broadcast_exact_iff {pairs : List (Address × ConnectionRef)}
    {start tracker last : Tracker} {considered : List Consideration}
    {covered : Address → UInt16 → Prop} (quiet : tracker.quiet = start.quiet)
    (live : tracker.SentLive) (followed : ∀ pair ∈ pairs, tracker.Sendable pair)
    (recorded : ∀ packet handle, tracker.Recorded packet handle ↔ covered packet handle)
    (run : considerEach sendable pairs tracker = some (last, considered)) :
    (∀ consideration ∈ considered, consideration.Exact) ↔
      start.NoneNewer covered pairs := by
  induction pairs generalizing tracker considered covered with
  | nil =>
      cases run
      simp [NoneNewer]
  | cons pair pairs ih =>
      obtain ⟨packet, connection⟩ := pair
      obtain ⟨next, handed, rest, step, further, rfl⟩ := considerEach_cons run
      obtain ⟨next', handed', step', nextLive⟩ := considerSending_isSome
        sendable_decides live (followed (packet, connection) (by simp))
      rw [step] at step'
      cases step'
      obtain ⟨decided, stepQuiet, _⟩ := considerSending_spec step
      have first : Consideration.Exact ⟨packet, connection, tracker, handed⟩ ↔
          ∀ handle, start.handleAt connection = some handle → ¬ covered packet handle →
            (∃ other, covered packet other) →
            ∀ newer, packet < newer → ¬ covered newer handle := by
        apply forall_congr'
        intro handle
        rw [handleAt_eq quiet]
        apply imp_congr_right
        intro found
        rw [← handleAt_eq quiet] at found
        obtain ⟨wanted, decided', sent⟩ := @sendable_spec _ live packet _ _ found
        rw [decided] at decided'
        cases decided'
        simp only [recorded] at sent ⊢
        rw [sent]
        -- entries of the packet itself are what both sides agree on
        constructor
        · intro same new inside newer above
          exact same.mpr new inside newer (Nat.le_of_lt above)
        · intro only
          constructor
          · intro none covers
            exact none ⟨handle, covers⟩ packet (Nat.le_refl _) covers
          · intro new inside newer above
            rcases Nat.eq_or_lt_of_le above with rfl | above
            · exact new
            · exact only new inside newer above
      have remaining := fun exact => ih (stepQuiet.trans quiet) nextLive
        (fun other member => (followed other (by simp [member])).quiet stepQuiet)
        (fun other handle => by
          rw [recorded_of_exact step exact, recorded, handleAt_eq quiet]
          simp only [Covered, List.mem_singleton, Prod.mk.injEq]
          apply or_congr_right
          constructor
          · rintro ⟨same, found⟩
            exact ⟨connection, ⟨same, rfl⟩, found⟩
          · rintro ⟨ref, ⟨same, rfl⟩, found⟩
            exact ⟨same, found⟩ : ∀ other handle, next.Recorded other handle ↔
              start.Covered covered [(packet, connection)] other handle) further
      rw [List.forall_mem_cons, noneNewer_cons, ← first]
      exact and_congr_right remaining

/-- The nested loops are one loop over the pairs, and a packet is to be removed when one
of its pairs was handed over. -/
theorem broadcastLoop_eq {packets : List Address} {tracker last : Tracker}
    {considered : List Consideration}
    (run : considerEach sendable (packets.flatMap fun packet =>
      tracker.availableConnections.map fun connection => (packet, connection)) tracker =
        some (last, considered)) (toRemove : List Address) :
    ∃ removed, broadcastLoop packets tracker toRemove = some (last, removed, considered) ∧
      ∀ packet, packet ∈ removed ↔ packet ∈ toRemove ∨
        ∃ consideration ∈ considered,
          consideration.packet = packet ∧ consideration.handed = true := by
  induction packets generalizing tracker considered toRemove with
  | nil =>
      cases run
      exact ⟨toRemove, rfl, by simp⟩
  | cons packet packets ih =>
      rw [List.flatMap_cons] at run
      obtain ⟨middle, left, right, here, further, rfl⟩ := considerEach_split run
      obtain ⟨quiet, order, _⟩ := considerEach_spec here
      rw [← availableConnections_eq quiet] at further
      have own : ∀ consideration ∈ left, consideration.packet = packet := by
        intro consideration member
        have pair := List.mem_map_of_mem (f := fun consideration =>
          (consideration.packet, consideration.connection)) member
        rw [order] at pair
        obtain ⟨connection, _, same⟩ := List.mem_map.mp pair
        exact (congrArg Prod.fst same).symm
      obtain ⟨removed, loop, removal⟩ := ih further
        (if left.any Consideration.handed then toRemove.insert packet else toRemove)
      refine ⟨removed, ?_, ?_⟩
      · simp only [broadcastLoop, here, Option.bind_eq_bind, Option.bind_some, loop]
        rfl
      · intro other
        rw [removal]
        have inserted : (other ∈ if left.any Consideration.handed then
            toRemove.insert packet else toRemove) ↔ other ∈ toRemove ∨
              ∃ consideration ∈ left,
                consideration.packet = other ∧ consideration.handed = true := by
          by_cases sent : left.any Consideration.handed
          · rw [if_pos sent, List.mem_insert_iff]
            obtain ⟨consideration, member, handed⟩ := List.any_eq_true.mp sent
            constructor
            · rintro (rfl | old)
              · exact Or.inr ⟨consideration, member, own _ member, handed⟩
              · exact Or.inl old
            · rintro (old | ⟨consideration, member, rfl, _⟩)
              · exact Or.inr old
              · exact Or.inl (own _ member)
          · rw [if_neg sent]
            constructor
            · exact Or.inl
            · rintro (old | ⟨consideration, member, _, handed⟩)
              · exact old
              · exact absurd (List.any_eq_true.mpr ⟨_, member, handed⟩) sent
        rw [inserted, or_assoc]
        simp only [List.mem_append, or_and_right, exists_or]

/-- What a call of `sendPackets` is for, given the decisions of its broadcast loop: every
broadcast packet is considered for every available connection, it is handed over exactly
when the sent list held no entry for that packet with that handle, what was handed over is
recorded, and the packets that were sent to at least one connection leave the list. -/
structure ExactRecipients (tracker after : Tracker)
    (considered : List Consideration) : Prop where
  all : considered.map (fun consideration =>
    (consideration.packet, consideration.connection)) = tracker.broadcastPairs
  exact : ∀ consideration ∈ considered, consideration.Exact
  recorded : ∀ consideration ∈ considered, consideration.handed = true →
    (consideration.packet, consideration.connection) ∈
      after.packetsConnectionsSentList.entries
  leaves : ∀ packet ∈ tracker.broadcastPacketsToSendList,
    packet ∉ after.broadcastPacketsToSendList ↔ ∃ consideration ∈ considered,
      consideration.packet = packet ∧ consideration.handed = true

/-- Recorded before the call, or about to be by the targeted loop. -/
def Touched (tracker : Tracker) : Address → UInt16 → Prop :=
  tracker.Covered tracker.Recorded tracker.targetedPacketsToSendList.entries

theorem availableConnections_live {tracker : Tracker} {ref : ConnectionRef}
    (member : ref ∈ tracker.availableConnections) : (tracker.handleAt ref).isSome := by
  obtain ⟨entry, inside, rfl⟩ := List.mem_map.mp member
  have found := OrderedMap.find?_eq_some_iff.mpr (List.mem_filter.mp inside).1
  simp [handleAt, connectionAt, found]

/-- A call on a sound tracker returns, and its recipients are exact exactly when no pair
of its broadcast loop meets an entry of a packet at a higher address. -/
theorem exactRecipients_iff {tracker : Tracker} (sound : tracker.Sound) :
    ∃ after targeted considered,
      tracker.sendPackets = some (after, targeted, considered) ∧
      (ExactRecipients tracker after considered ↔
        tracker.NoneNewer tracker.Touched tracker.broadcastPairs) := by
  by_cases idle : tracker.broadcastPacketsToSendList.isEmpty &&
      tracker.targetedPacketsToSendList.entries.isEmpty
  · have nothing : tracker.broadcastPacketsToSendList = [] := by
      rw [Bool.and_eq_true] at idle
      exact List.isEmpty_iff.mp idle.1
    have noPairs : tracker.broadcastPairs = [] := by
      rw [broadcastPairs, nothing]
      rfl
    refine ⟨tracker, [], [], by rw [sendPackets, if_pos idle], ?_⟩
    rw [noPairs]
    constructor
    · intro _ earlier packet connection later split
      cases earlier <;> cases split
    · intro _
      exact ⟨noPairs.symm, by simp, by simp, by simp [nothing]⟩
  · obtain ⟨middle, targeted, firstRun, middleLive⟩ :=
      considerEach_isSome packetNeeded_decides sound.sent sound.targeted
    obtain ⟨firstQuiet, _, _⟩ := considerEach_spec firstRun
    have firstExact := targeted_exact sound.sent sound.targeted firstRun
    let list := ((targeted.filter Consideration.handed).map Consideration.packet).foldl
      (fun list packet => list.eraseKey packet) middle.targetedPacketsToSendList
    let between : Tracker := { middle with targetedPacketsToSendList := list }
    let start : Tracker := { tracker with targetedPacketsToSendList := list }
    have quiet : between.quiet = start.quiet :=
      congrArg (fun tracker : Tracker =>
        { tracker with targetedPacketsToSendList := list }) firstQuiet
    have connections : between.availableConnections = start.availableConnections :=
      availableConnections_eq quiet
    have packets : between.broadcastPacketsToSendList =
        tracker.broadcastPacketsToSendList := by
      have same := congrArg Tracker.broadcastPacketsToSendList quiet
      exact same
    have followed : ∀ pair ∈ tracker.broadcastPairs, between.Sendable pair := by
      intro pair member
      obtain ⟨packet, queued, member⟩ := List.mem_flatMap.mp member
      obtain ⟨connection, present, rfl⟩ := List.mem_map.mp member
      have before : tracker.Sendable (packet, connection) :=
        ⟨sound.broadcast packet queued, availableConnections_live present⟩
      have start : start.Sendable (packet, connection) := before
      exact start.quiet quiet
    have recorded : ∀ packet handle, between.Recorded packet handle ↔
        tracker.Touched packet handle := by
      intro packet handle
      have same := recorded_of_all_exact firstRun firstExact packet handle
      exact same
    have betweenLive : between.SentLive := middleLive
    obtain ⟨last, considered, secondRun, _⟩ :=
      considerEach_isSome sendable_decides betweenLive followed
    obtain ⟨secondQuiet, order, records⟩ := considerEach_spec secondRun
    have exact_iff := broadcast_exact_iff quiet betweenLive followed recorded secondRun
    change considerEach sendable (tracker.broadcastPacketsToSendList.flatMap fun packet =>
      start.availableConnections.map fun connection => (packet, connection)) between = _
      at secondRun
    rw [← connections] at secondRun
    obtain ⟨removed, loop, removal⟩ := broadcastLoop_eq secondRun []
    rw [← packets] at loop
    have result : tracker.sendPackets = some ({ last with
        broadcastPacketsToSendList := last.broadcastPacketsToSendList.filter
          fun packet => !removed.contains packet }, targeted, considered) := by
      rw [sendPackets, if_neg idle]
      simp only [firstRun, Option.bind_eq_bind, Option.bind_some]
      change (broadcastLoop between.broadcastPacketsToSendList between []).bind _ = _
      rw [loop]
      rfl
    have kept : last.broadcastPacketsToSendList = tracker.broadcastPacketsToSendList :=
      (congrArg Tracker.broadcastPacketsToSendList secondQuiet).trans packets
    refine ⟨_, targeted, considered, result, ?_⟩
    constructor
    · intro recipients
      exact exact_iff.mp recipients.exact
    · intro none
      refine ⟨order, exact_iff.mpr none, ?_, ?_⟩
      · intro consideration member handed
        exact (records _).mpr (Or.inr ⟨consideration, member, handed, rfl⟩)
      · intro packet queued
        simp [kept, queued, removal]

/-- The message from the second link goes to the first one. -/
theorem exactRecipients_single :
    let tracker := twoLinks (MultiMap.empty.emplace 10 ⟨0x41, 1⟩) [10]
    ∃ after targeted considered,
      tracker.sendPackets = some (after, targeted, considered) ∧
        ExactRecipients tracker after considered := by
  intro tracker
  have sound : tracker.Sound := by
    refine ⟨?_, ?_, ?_⟩
    · unfold SentLive
      decide
    · intro entry member
      cases member
    · intro packet member
      rw [List.mem_singleton.mp member]
      exact ⟨_, rfl, rfl⟩
  obtain ⟨after, targeted, considered, result, exact_iff⟩ := exactRecipients_iff sound
  refine ⟨after, targeted, considered, result, exact_iff.mpr ?_⟩
  -- every entry and every pair is of packet 10
  intro earlier packet connection later split handle _ _ _ newer above covered
  have pairs : tracker.broadcastPairs = [(10, ⟨0x40, 0⟩), (10, ⟨0x41, 1⟩)] := rfl
  have ten : ∀ pair ∈ tracker.broadcastPairs, pair.1 = 10 := by
    rw [pairs]
    decide
  have packetTen : packet = 10 := ten (packet, connection) (by simp [split])
  subst packetTen
  rcases covered with (⟨ref, member, _⟩ | ⟨ref, member, _⟩) | ⟨ref, member, _⟩
  · change (newer, ref) ∈ [(10, (⟨0x41, 1⟩ : ConnectionRef))] at member
    simp only [List.mem_singleton, Prod.mk.injEq] at member
    exact Nat.ne_of_gt above member.1
  · cases member
  · exact Nat.ne_of_gt above (ten (newer, ref) (by simp [split, member]))

/-- Message 10 came in over the second link and message 20 over the first.  The entry for
message 20 keeps message 10 from the first link, to which it was never sent. -/
theorem sendPackets_skips :
    let tracker := twoLinks
      ((MultiMap.empty.emplace 10 ⟨0x41, 1⟩).emplace 20 ⟨0x40, 0⟩) [10]
    ∃ after considered, tracker.sendPackets = some (after, [], considered) ∧
      ¬ ExactRecipients tracker after considered := by
  intro tracker
  refine ⟨tracker, [⟨10, ⟨0x40, 0⟩, tracker, false⟩, ⟨10, ⟨0x41, 1⟩, tracker, false⟩],
    rfl, ?_⟩
  intro recipients
  have decision := recipients.exact ⟨10, ⟨0x40, 0⟩, tracker, false⟩ (by simp) 0x40 rfl
  have unrecorded : ¬ tracker.Recorded 10 0x40 := by
    rintro ⟨ref, member, found⟩
    change (10, ref) ∈ [(10, (⟨0x41, 1⟩ : ConnectionRef)), (20, ⟨0x40, 0⟩)] at member
    simp only [List.mem_cons, Prod.mk.injEq, true_and, List.not_mem_nil, or_false] at member
    rcases member with rfl | ⟨impossible, _⟩
    · cases found
    · cases impossible
  simp [unrecorded] at decision

end BleRepeater.Tracker
