import BleRepeater.Ble.Connections

/-!
# The RSSI sweep

`requestNextRssi` walks over the connections with an iterator that lives across the turns of
the main loop.  It starts again where the iterator stands at the end, but does not ask whether
there is an entry to start at, and nothing tells it when a clean-up erases the entry where it
stands.
-/

namespace BleRepeater.Tracker

open Transition

/-- Where the `static auto iterator` stands. -/
inductive RssiIterator where
  /-- The first call has not been made. -/
  | unset
  | ended
  | entry (ref : ConnectionRef)
  deriving DecidableEq

/-- The iterator to an entry, or behind the last one. -/
def RssiIterator.to : Option (UInt16 × ConnectionEntry) → RssiIterator
  | some found => .entry ⟨found.1, found.2.generation⟩
  | none => .ended

/-- `connections.begin()`. -/
def rssiBegin (tracker : Tracker) : RssiIterator :=
  .to tracker.connections.entries.head?

/-- `++iterator`, from an entry that is there. -/
def rssiNext (tracker : Tracker) (ref : ConnectionRef) : RssiIterator :=
  .to (tracker.connections.next? ref.key)

/-- A call of `requestNextRssi`: the handle for `gap_read_rssi`, where the iterator is left,
and the result. -/
structure RssiRequest where
  handle : UInt16
  iterator : RssiIterator
  more : Bool
  deriving DecidableEq

/-- What a call does with the iterator at an entry that is there. -/
def rssiVisit (tracker : Tracker) (ref : ConnectionRef) : RssiRequest where
  handle := ref.key
  iterator := tracker.rssiNext ref
  more := decide (tracker.rssiNext ref ≠ .ended)

/-- `BleConnectionTracker::requestNextRssi`. -/
def requestNextRssi (tracker : Tracker) (iterator : RssiIterator) (restart : Bool) :
    Option RssiRequest :=
  let iterator := if iterator = .unset then tracker.rssiBegin else iterator
  let iterator := if iterator = .ended ∨ restart = true then tracker.rssiBegin else iterator
  match iterator with
  | .entry ref => (tracker.connectionAt ref).map fun _ => tracker.rssiVisit ref
  | _ => none

/-- A sweep between two calls: `inProgress` is `rssi_update_in_progress`. -/
structure RssiSweep where
  tracker : Tracker
  iterator : RssiIterator
  inProgress : Bool
  requested : List UInt16

/-- The call that begins a sweep, wherever the iterator was left. -/
def beginSweep (tracker : Tracker) (iterator : RssiIterator) : Option RssiSweep :=
  (tracker.requestNextRssi iterator true).map fun request =>
    { tracker
      iterator := request.iterator
      inProgress := request.more
      requested := [request.handle] }

/-- What happens between and in the calls that continue a sweep. -/
inductive SweepEvent where
  | operation (operation : Operation)
  | request

/-- One operation of the tracker, or the next call. -/
inductive SweepStep (platform : Platform) : RssiSweep → SweepEvent → RssiSweep → Prop where
  | operation {sweep : RssiSweep} {operation : Operation} {tracker : Tracker} :
      OperationStep platform sweep.tracker operation tracker →
      SweepStep platform sweep (.operation operation) { sweep with tracker }
  | request {sweep : RssiSweep} {request : RssiRequest} :
      sweep.inProgress = true →
      sweep.tracker.requestNextRssi sweep.iterator false = some request →
      SweepStep platform sweep .request { sweep with
        iterator := request.iterator
        inProgress := request.more
        requested := sweep.requested ++ [request.handle] }

/-- The next call dereferences neither the end nor an erased entry. -/
def RssiSweep.Safe (sweep : RssiSweep) : Prop :=
  sweep.inProgress = true → (sweep.tracker.requestNextRssi sweep.iterator false).isSome

/-- A handle is in the map. -/
def RssiSweep.Present (handle : UInt16) (sweep : RssiSweep) : Prop :=
  (sweep.tracker.connections.find? handle).isSome

/-- No clean-up erases the entry where the iterator of a sweep in progress stands. -/
def RssiSweep.SparesIterator (sweep : RssiSweep) : SweepEvent → Prop
  | .operation (.cleanupStaleItems uptime) => sweep.inProgress = true →
      ∀ ref connection, sweep.iterator = .entry ref →
        sweep.tracker.connectionAt ref = some connection →
        connectionStale (sweep.tracker.timeMs uptime) connection = false
  | _ => True

/-- The calls of a sweep are safe, and once it has come to its end they have requested every
handle that was in the map throughout, exactly once. -/
structure SweepHolds (platform : Platform) (start : RssiSweep) (events : List SweepEvent)
    (finish : RssiSweep) : Prop where
  safe : Throughout (SweepStep platform) RssiSweep.Safe start events
  complete : finish.inProgress = false → ∀ handle,
    Throughout (SweepStep platform) (RssiSweep.Present handle) start events →
    finish.requested.count handle = 1

/-! ## One call -/

theorem to_ne_ended {found : Option (UInt16 × ConnectionEntry)} :
    RssiIterator.to found ≠ .ended ↔ found.isSome := by
  cases found <;> simp [RssiIterator.to]

/-- Where a call at an entry leaves the iterator: at the first entry behind it, which is
there, or at the end when there is none. -/
structure Moves (tracker : Tracker) (ref : ConnectionRef) (request : RssiRequest) : Prop where
  handle : request.handle = ref.key
  stands : request.more = true → ∃ next, request.iterator = .entry next ∧
    ref.key < next.key ∧ (tracker.connectionAt next).isSome ∧
    ∀ handle, (tracker.connections.find? handle).isSome → ref.key < handle → next.key ≤ handle
  last : request.more = false → ∀ handle, (tracker.connections.find? handle).isSome →
    ¬ ref.key < handle

theorem connectionAt_of_mem {tracker : Tracker} {found : UInt16 × ConnectionEntry}
    (member : found ∈ tracker.connections.entries) :
    tracker.connectionAt ⟨found.1, found.2.generation⟩ = some found.2.connection :=
  connectionAt_eq_some_iff.mpr (OrderedMap.find?_eq_some_iff.mpr member)

theorem moves_rssiVisit (tracker : Tracker) (ref : ConnectionRef) :
    Moves tracker ref (tracker.rssiVisit ref) := by
  refine ⟨rfl, ?_, ?_⟩
  · intro more
    obtain ⟨found, next⟩ := Option.isSome_iff_exists.mp
      (to_ne_ended.mp (of_decide_eq_true more))
    obtain ⟨member, behind, least⟩ := OrderedMap.next?_spec next
    refine ⟨⟨found.1, found.2.generation⟩, ?_, behind, ?_, ?_⟩
    · simp [rssiVisit, rssiNext, next, RssiIterator.to]
    · rw [connectionAt_of_mem member]
      rfl
    · intro handle there further
      obtain ⟨value, entry⟩ := OrderedMap.find?_isSome_iff.mp there
      exact least _ entry further
  · intro done handle there
    have none : tracker.connections.next? ref.key = none := by
      have ended := of_decide_eq_false done
      rwa [rssiNext, to_ne_ended, Option.not_isSome_iff_eq_none] at ended
    obtain ⟨value, entry⟩ := OrderedMap.find?_isSome_iff.mp there
    exact OrderedMap.next?_eq_none_iff.mp none _ entry

/-- A call that goes on where the iterator stands at an entry. -/
theorem requestNextRssi_entry (tracker : Tracker) (ref : ConnectionRef) :
    tracker.requestNextRssi (.entry ref) false =
      (tracker.connectionAt ref).map fun _ => tracker.rssiVisit ref :=
  rfl

/-- A call that starts again visits the first entry, if there is one. -/
theorem requestNextRssi_restart (tracker : Tracker) (iterator : RssiIterator) :
    tracker.requestNextRssi iterator true =
      tracker.connections.entries.head?.map fun first =>
        tracker.rssiVisit ⟨first.1, first.2.generation⟩ := by
  unfold requestNextRssi
  simp only [or_true, if_true]
  cases found : tracker.connections.entries.head? with
  | none => simp [rssiBegin, found, RssiIterator.to]
  | some first =>
      have there := connectionAt_of_mem (List.mem_of_head? found)
      simp [rssiBegin, found, RssiIterator.to, there]

/-! ## Order -/

variable {platform : Platform} {before after start finish : RssiSweep}
  {event : SweepEvent} {events : List SweepEvent}

/-- The handles are requested in ascending order, and all that were lie in front of the
iterator of a sweep in progress. -/
structure Ascending (sweep : RssiSweep) : Prop where
  sorted : sweep.requested.Pairwise (· < ·)
  stands : sweep.inProgress = true → ∃ ref, sweep.iterator = .entry ref ∧
    ∀ handle ∈ sweep.requested, handle < ref.key

/-- A handle has been requested, or the iterator has not come past it. -/
def Awaited (handle : UInt16) (sweep : RssiSweep) : Prop :=
  handle ∈ sweep.requested ∨
    sweep.inProgress = true ∧ ∀ ref, sweep.iterator = .entry ref → ref.key ≤ handle

/-- A sweep after a visit of an entry that the handles requested before lie in front of. -/
theorem ascending_visit {tracker : Tracker} (requested : List UInt16) {ref : ConnectionRef}
    {request : RssiRequest} (moves : Moves tracker ref request)
    (sorted : requested.Pairwise (· < ·)) (behind : ∀ handle ∈ requested, handle < ref.key) :
    Ascending { tracker, iterator := request.iterator, inProgress := request.more,
                requested := requested ++ [request.handle] } := by
  refine ⟨?_, ?_⟩
  · rw [List.pairwise_append, moves.handle]
    refine ⟨sorted, List.pairwise_singleton _ _, ?_⟩
    simpa using behind
  · intro more
    obtain ⟨next, iterator, further, _⟩ := moves.stands more
    refine ⟨next, iterator, ?_⟩
    intro handle member
    rcases List.mem_append.mp member with old | new
    · exact (behind handle old).trans further
    · rw [List.mem_singleton.mp new, moves.handle]
      exact further

/-- A visit comes past no handle that is in the map, but the one that it requests. -/
theorem awaited_visit {tracker : Tracker} (requested : List UInt16) {ref : ConnectionRef}
    {request : RssiRequest} {handle : UInt16} (moves : Moves tracker ref request)
    (there : (tracker.connections.find? handle).isSome)
    (awaited : handle ∈ requested ∨ ref.key ≤ handle) :
    Awaited handle { tracker, iterator := request.iterator, inProgress := request.more,
                     requested := requested ++ [request.handle] } := by
  rcases awaited with old | ahead
  · exact Or.inl (List.mem_append_left _ old)
  · rcases eq_or_lt_of_le ahead with here | further
    · left
      rw [← here, ← moves.handle]
      exact List.mem_append_right _ List.mem_cons_self
    · cases more : request.more with
      | false => exact absurd further (moves.last more handle there)
      | true =>
          obtain ⟨next, iterator, _, _, least⟩ := moves.stands more
          refine Or.inr ⟨rfl, ?_⟩
          intro other same
          cases iterator.symm.trans same
          exact least handle there further

theorem Ascending.step (ascending : Ascending before)
    (step : SweepStep platform before event after) : Ascending after := by
  cases step with
  | operation => exact ⟨ascending.sorted, ascending.stands⟩
  | request going called =>
      obtain ⟨ref, stands, behind⟩ := ascending.stands going
      rw [stands, requestNextRssi_entry] at called
      obtain ⟨_, _, rfl⟩ := Option.map_eq_some_iff.mp called
      exact ascending_visit _ (moves_rssiVisit _ ref) ascending.sorted behind

theorem Awaited.step {handle : UInt16} (awaited : Awaited handle before)
    (ascending : Ascending before) (there : before.Present handle)
    (step : SweepStep platform before event after) : Awaited handle after := by
  cases step with
  | operation => exact awaited
  | request going called =>
      obtain ⟨ref, stands, _⟩ := ascending.stands going
      rw [stands, requestNextRssi_entry] at called
      obtain ⟨_, _, rfl⟩ := Option.map_eq_some_iff.mp called
      exact awaited_visit _ (moves_rssiVisit _ ref) there
        (awaited.imp_right fun ahead => ahead.2 ref stands)

/-! ## Safety -/

/-- A sweep in progress is safe where its iterator stands at an entry that is there. -/
theorem Ascending.safe_iff (ascending : Ascending before) :
    before.Safe ↔ (before.inProgress = true → ∀ ref, before.iterator = .entry ref →
      (before.tracker.connectionAt ref).isSome) := by
  unfold RssiSweep.Safe
  constructor
  · intro safe going ref stands
    have called := safe going
    rw [stands, requestNextRssi_entry, Option.isSome_map] at called
    exact called
  · intro safe going
    obtain ⟨ref, stands, _⟩ := ascending.stands going
    rw [stands, requestNextRssi_entry, Option.isSome_map]
    exact safe going ref stands

/-- An operation leaves the iterator at an entry exactly when it is no clean-up that erases
it. -/
theorem sparesIterator_iff {operation : Operation} {tracker : Tracker}
    (safe : before.inProgress = true → ∀ ref, before.iterator = .entry ref →
      (before.tracker.connectionAt ref).isSome)
    (step : OperationStep platform before.tracker operation tracker) :
    (before.inProgress = true → ∀ ref, before.iterator = .entry ref →
      (tracker.connectionAt ref).isSome) ↔ before.SparesIterator (.operation operation) := by
  by_cases cleanup : ∃ uptime, operation = .cleanupStaleItems uptime
  · obtain ⟨uptime, rfl⟩ := cleanup
    constructor
    · intro still going ref connection stands found
      obtain ⟨other, there⟩ := Option.isSome_iff_exists.mp (still going ref stands)
      obtain ⟨same, recent⟩ := (connectionAt_cleanupStaleItems step.2).mp there
      cases found.symm.trans same
      exact recent
    · intro spares going ref stands
      obtain ⟨connection, found⟩ := Option.isSome_iff_exists.mp (safe going ref stands)
      rw [(connectionAt_cleanupStaleItems step.2).mpr
        ⟨found, spares going ref connection stands found⟩]
      rfl
  · have connects := connects_of_step step fun uptime same => cleanup ⟨uptime, same⟩
    refine iff_of_true (fun going ref stands => connects.live (safe going ref stands)) ?_
    cases operation with
    | cleanupStaleItems uptime => exact absurd ⟨uptime, rfl⟩ cleanup
    | _ => trivial

/-- One step leaves a sweep safe exactly when it is no clean-up that erases the entry where
the iterator stands. -/
theorem Ascending.step_safe_iff (ascending : Ascending before) (safe : before.Safe)
    (step : SweepStep platform before event after) :
    after.Safe ↔ before.SparesIterator event := by
  rw [(ascending.step step).safe_iff]
  rw [ascending.safe_iff] at safe
  cases step with
  | operation done => exact sparesIterator_iff safe done
  | request going called =>
      refine iff_of_true ?_ trivial
      obtain ⟨ref, stands, _⟩ := ascending.stands going
      rw [stands, requestNextRssi_entry] at called
      obtain ⟨_, _, rfl⟩ := Option.map_eq_some_iff.mp called
      intro more other iterator
      obtain ⟨next, same, _, there, _⟩ := (moves_rssiVisit before.tracker ref).stands more
      cases same.symm.trans iterator
      exact there

/-! ## Whole sweeps -/

theorem sweepStep_functional {left right : RssiSweep}
    (first : SweepStep platform before event left)
    (second : SweepStep platform before event right) : left = right := by
  cases first with
  | operation done =>
      cases second with
      | operation again =>
          cases Option.some.inj (done.2.symm.trans again.2)
          rfl
  | request _ called =>
      cases second with
      | request _ again =>
          cases Option.some.inj (called.symm.trans again)
          rfl

/-- A begun sweep has requested the first handle. -/
theorem begun_spec {tracker : Tracker} {iterator : RssiIterator}
    (begun : beginSweep tracker iterator = some start) :
    Ascending start ∧ start.Safe ∧ ∀ handle, start.Present handle → Awaited handle start := by
  obtain ⟨request, called, rfl⟩ := Option.map_eq_some_iff.mp begun
  rw [requestNextRssi_restart] at called
  obtain ⟨first, head, rfl⟩ := Option.map_eq_some_iff.mp called
  have moves := moves_rssiVisit tracker ⟨first.1, first.2.generation⟩
  have ascending := ascending_visit [] moves .nil (by simp)
  refine ⟨ascending, ascending.safe_iff.mpr ?_, ?_⟩
  · intro more other iterator
    obtain ⟨next, same, _, there, _⟩ := moves.stands more
    cases same.symm.trans iterator
    exact there
  · intro handle there
    obtain ⟨value, entry⟩ := OrderedMap.find?_isSome_iff.mp there
    exact awaited_visit [] moves there
      (Or.inr (OrderedMap.le_of_head? head entry))

/-- A sweep that has come to its end has requested each handle that was there throughout,
exactly once. -/
theorem count_requested {handle : UInt16} (run : Run (SweepStep platform) start events finish)
    (ascending : Ascending start) (awaited : start.Present handle → Awaited handle start)
    (throughout : Throughout (SweepStep platform) (RssiSweep.Present handle) start events)
    (ended : finish.inProgress = false) : finish.requested.count handle = 1 := by
  have last : Ascending finish ∧ Awaited handle finish :=
    run.invariant_throughout throughout
      (fun there _ holds step => And.intro (holds.1.step step) (holds.2.step holds.1 there step))
      (And.intro ascending (awaited throughout.here))
  have member : handle ∈ finish.requested := by
    refine last.2.resolve_right ?_
    rintro ⟨going, _⟩
    cases ended.symm.trans going
  exact List.count_eq_one_of_mem (last.1.sorted.imp ne_of_lt) member

/-- A sweep can begin exactly when there is a connection, wherever the iterator was left; and
a begun sweep, interleaved with any operations, is safe and complete exactly when no clean-up
erases the entry where its iterator stands. -/
theorem sweepHolds_iff {tracker : Tracker} {iterator : RssiIterator} :
    ((beginSweep tracker iterator).isSome ↔ tracker.connections.entries ≠ []) ∧
      ∀ {start finish : RssiSweep} {events : List SweepEvent},
        beginSweep tracker iterator = some start →
        Run (SweepStep platform) start events finish →
        (SweepHolds platform start events finish ↔
          Run (Guarded RssiSweep.SparesIterator (SweepStep platform)) start events finish) := by
  refine ⟨?_, ?_⟩
  · rw [beginSweep, requestNextRssi_restart, Option.isSome_map, Option.isSome_map]
    cases tracker.connections.entries <;> simp
  · intro start finish events begun run
    obtain ⟨ascending, safe, awaited⟩ := begun_spec begun
    have guarded := run.throughout_iff_guarded_of_invariant sweepStep_functional Ascending.step
      (fun ascending safe step => ascending.step_safe_iff safe step) ascending safe
    constructor
    · exact fun holds => guarded.mp holds.safe
    · intro spares
      refine ⟨guarded.mpr spares, ?_⟩
      intro ended handle throughout
      exact count_requested run ascending (awaited handle) throughout ended

/-- Two connections that were made and lost. -/
def twoLost : List Operation :=
  [.reportConnection 0 0x40 [1, 2, 3, 4, 5, 6] 0, .reportConnection 0 0x41 [1, 2, 3, 4, 5, 7] 0,
    .reportDisconnection 0x40, .reportDisconnection 0x41]

/-- A sweep over the two, with a new connection in front of them between its two calls. -/
theorem sweepHolds_iff_twoLost :
    ∃ tracker start finish, Run (OperationStep bytesSummed) (new 100) twoLost tracker ∧
      beginSweep tracker .unset = some start ∧
      finish.inProgress = false ∧ finish.requested = [0x40, 0x41] ∧
      SweepHolds bytesSummed start
        [.operation (.reportConnection 0 0x3f [1, 2, 3, 4, 5, 8] 0), .request] finish := by
  have outcome : ((follow (Operation.next bytesSummed · ·) twoLost (new 100)).bind fun tracker =>
      (beginSweep tracker .unset).bind fun start =>
        (Operation.next bytesSummed start.tracker
            (.reportConnection 0 0x3f [1, 2, 3, 4, 5, 8] 0)).bind fun joined =>
          (joined.requestNextRssi start.iterator false).map fun request =>
            (start.inProgress, request.more, start.requested ++ [request.handle])) =
      some (true, false, [0x40, 0x41]) := by decide
  obtain ⟨tracker, made, rest⟩ := Option.bind_eq_some_iff.mp outcome
  obtain ⟨start, begun, rest⟩ := Option.bind_eq_some_iff.mp rest
  obtain ⟨joined, connects, rest⟩ := Option.bind_eq_some_iff.mp rest
  obtain ⟨request, called, same⟩ := Option.map_eq_some_iff.mp rest
  obtain ⟨going, others⟩ := Prod.mk.inj same
  obtain ⟨more, requested⟩ := Prod.mk.inj others
  have first : Guarded RssiSweep.SparesIterator (SweepStep bytesSummed) start
      (.operation (.reportConnection 0 0x3f [1, 2, 3, 4, 5, 8] 0))
      { start with tracker := joined } := ⟨trivial, .operation (step_of_next connects)⟩
  have second : Guarded RssiSweep.SparesIterator (SweepStep bytesSummed)
      { start with tracker := joined } .request _ := ⟨trivial, .request going called⟩
  have spares := Run.cons first (.cons second (.nil _))
  have run := spares.mono And.right
  exact ⟨tracker, start, _, Run.of_follow step_of_next made, begun, more, requested,
    (sweepHolds_iff.2 begun run).mpr spares⟩

/-- Before the first connection a sweep starts at the end of the map, and a clean-up between
two calls erases the entry that the second one starts at. -/
theorem sweep_dereferences :
    beginSweep (new 100) .unset = none ∧
      ∃ tracker start finish, Run (OperationStep bytesSummed) (new 100) twoLost tracker ∧
        beginSweep tracker .unset = some start ∧
        Run (SweepStep bytesSummed) start [.operation (.cleanupStaleItems 700000000)] finish ∧
        finish.inProgress = true ∧
        finish.tracker.requestNextRssi finish.iterator false = none := by
  refine ⟨rfl, ?_⟩
  have outcome : ((follow (Operation.next bytesSummed · ·) twoLost (new 100)).bind fun tracker =>
      (beginSweep tracker .unset).bind fun start =>
        (start.tracker.cleanupStaleItems 700000000).map fun cleaned =>
          (start.inProgress, cleaned.requestNextRssi start.iterator false)) =
      some (true, none) := by decide
  obtain ⟨tracker, made, rest⟩ := Option.bind_eq_some_iff.mp outcome
  obtain ⟨start, begun, rest⟩ := Option.bind_eq_some_iff.mp rest
  obtain ⟨cleaned, done, same⟩ := Option.map_eq_some_iff.mp rest
  obtain ⟨going, called⟩ := Prod.mk.inj same
  exact ⟨tracker, start, { start with tracker := cleaned }, Run.of_follow step_of_next made,
    begun, .cons (.operation ⟨trivial, done⟩) (.nil _), going, called⟩

end BleRepeater.Tracker
