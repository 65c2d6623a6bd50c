import BleRepeater.Library.Run

/-!
# Ledgers

A state that keeps a ledger of what has been given out.  A step that gives out nothing of the
ledger, and nothing twice, and enters what it gives out, may be followed by another one; so
where the steps take nothing off the ledger, no run gives anything out twice.
-/

namespace BleRepeater.Transition

variable {State Label Item : Type}

/-- What is given out between two states is given out once and is new to the ledger, and the
ledger has it afterwards, besides what it had before. -/
structure Enters (ledger : State → Item → Prop) (before : State) (items : List Item)
    (after : State) : Prop where
  once : items.Nodup
  fresh : ∀ item ∈ items, ¬ ledger before item
  entered : ∀ item ∈ items, ledger after item
  kept : ∀ item, ledger before item → ledger after item

namespace Enters

variable {ledger : State → Item → Prop} {before middle after : State} {items others : List Item}

theorem nil (kept : ∀ item, ledger before item → ledger after item) :
    Enters ledger before [] after :=
  ⟨List.nodup_nil, by simp, by simp, kept⟩

theorem trans (first : Enters ledger before items middle)
    (second : Enters ledger middle others after) :
    Enters ledger before (items ++ others) after := by
  refine ⟨List.nodup_append.mpr ⟨first.once, second.once, ?_⟩, ?_, ?_, ?_⟩
  · rintro item early _ late rfl
    exact second.fresh item late (first.entered item early)
  · intro item member
    rcases List.mem_append.mp member with early | late
    · exact first.fresh item early
    · exact fun old => second.fresh item late (first.kept item old)
  · intro item member
    rcases List.mem_append.mp member with early | late
    · exact second.kept item (first.entered item early)
    · exact second.entered item late
  · exact fun item old => second.kept item (first.kept item old)

/-- Only the ledgers of the two states matter. -/
theorem congr {first last : State} (enters : Enters ledger before items after)
    (start : ∀ item, ledger first item ↔ ledger before item)
    (finish : ∀ item, ledger last item ↔ ledger after item) :
    Enters ledger first items last := by
  refine ⟨enters.once, ?_, ?_, ?_⟩
  · exact fun item member old => enters.fresh item member ((start item).mp old)
  · exact fun item member => (finish item).mpr (enters.entered item member)
  · exact fun item old => (finish item).mpr (enters.kept item ((start item).mp old))

/-- The part of a ledger that is about some of the items. -/
theorem filter (enters : Enters ledger before items after) (concerned : Item → Bool) :
    Enters (fun state item => concerned item = true ∧ ledger state item) before
      (items.filter concerned) after := by
  refine ⟨enters.once.filter _, ?_, ?_, ?_⟩
  · exact fun item member old => enters.fresh item (List.mem_filter.mp member).1 old.2
  · intro item member
    obtain ⟨given, about⟩ := List.mem_filter.mp member
    exact ⟨about, enters.entered item given⟩
  · exact fun item old => ⟨old.1, enters.kept item old.2⟩

end Enters

/-- What the steps along labels give out, where a step is computed. -/
def gathered (next : State → Label → Option State) (gives : State → Label → List Item) :
    State → List Label → List Item
  | _, [] => []
  | state, label :: labels =>
      gives state label ++
        match next state label with
        | some after => gathered next gives after labels
        | none => []

/-- To look only at some of the items makes no difference to the order. -/
theorem gathered_filter (next : State → Label → Option State)
    (gives : State → Label → List Item) (concerned : Item → Bool) (state : State)
    (labels : List Label) :
    gathered next (fun state label => (gives state label).filter concerned) state labels =
      (gathered next gives state labels).filter concerned := by
  induction labels generalizing state with
  | nil => rfl
  | cons label labels ih =>
      simp only [gathered, List.filter_append]
      cases next state label with
      | none => rfl
      | some after => simp only [ih after]

/-- Where every step enters what it gives out, so does every run. -/
theorem Run.enters {step : State → Label → State → Prop} {invariant : State → Prop}
    {ledger : State → Item → Prop} {next : State → Label → Option State}
    {gives : State → Label → List Item} {start finish : State} {labels : List Label}
    (run : Run step start labels finish)
    (computed : ∀ {before label after}, step before label after →
      next before label = some after)
    (preserved : ∀ {before label after}, invariant before → step before label after →
      invariant after)
    (enters : ∀ {before label after}, invariant before → step before label after →
      Enters ledger before (gives before label) after)
    (sound : invariant start) :
    Enters ledger start (gathered next gives start labels) finish := by
  induction run with
  | nil state => exact .nil fun _ old => old
  | cons head _ ih =>
      rw [gathered, computed head]
      exact (enters sound head).trans (ih (preserved sound head))

end BleRepeater.Transition
