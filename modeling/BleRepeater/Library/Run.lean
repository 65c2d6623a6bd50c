/-!
# Labelled runs

Finite runs of a labelled step relation, with the two rules every run argument
of this development uses: an invariant that each step preserves holds wherever a
run ends, and a relation that each step carries across two systems maps the runs
of one to runs of the other.
-/

namespace BleRepeater.Transition

variable {State Abstract Label : Type}

/-- `Run step start labels finish`: the labels take `start` to `finish`. -/
inductive Run (step : State → Label → State → Prop) :
    State → List Label → State → Prop where
  | nil (state : State) : Run step state [] state
  | cons {start next finish : State} {label : Label} {labels : List Label} :
      step start label next → Run step next labels finish →
      Run step start (label :: labels) finish

/-- The steps whose label and starting state meet a condition. -/
def Guarded (guard : State → Label → Prop) (step : State → Label → State → Prop) :
    State → Label → State → Prop :=
  fun start label finish => guard start label ∧ step start label finish

/-- Labels followed one after the other, where a step is computed. -/
def follow (next : State → Label → Option State) : List Label → State → Option State
  | [], state => some state
  | label :: labels, state => (next state label).bind (follow next labels)

/-- A property of every state that labels lead to, the first and the last included. -/
def Throughout (step : State → Label → State → Prop) (property : State → Prop)
    (start : State) (labels : List Label) : Prop :=
  ∀ earlier later middle, labels = earlier ++ later → Run step start earlier middle →
    property middle

/-- Some step of a run brought something, and no later step dropped it. -/
def BroughtSince (step : State → Label → State → Prop) (brings drops : State → Label → Prop)
    (start : State) (labels : List Label) (finish : State) : Prop :=
  ∃ earlier label later before after, labels = earlier ++ label :: later ∧
    Run step start earlier before ∧ step before label after ∧ brings before label ∧
    Run (Guarded (fun state label => ¬ drops state label) step) after later finish

/-- Some step of a run starts in a state that meets a condition. -/
def Occurs (step : State → Label → State → Prop) (condition : State → Label → Prop)
    (start : State) (labels : List Label) (finish : State) : Prop :=
  ∃ earlier label later before after, labels = earlier ++ label :: later ∧
    Run step start earlier before ∧ step before label after ∧ condition before label ∧
    Run step after later finish

namespace Throughout

variable {step : State → Label → State → Prop} {property : State → Prop}
  {start next : State} {label : Label} {labels : List Label}

/-- What holds throughout holds at the start. -/
theorem here (throughout : Throughout step property start labels) : property start :=
  throughout [] labels start rfl (.nil start)

/-- What holds throughout holds throughout what follows the first step. -/
theorem tail (throughout : Throughout step property start (label :: labels))
    (head : step start label next) : Throughout step property next labels := by
  intro earlier later middle split reaches
  exact throughout (label :: earlier) later middle (by rw [split, List.cons_append])
    (.cons head reaches)

end Throughout

namespace Run

variable {step : State → Label → State → Prop}

/-- What holds at the start and is preserved by every step holds at the end. -/
theorem invariant {property : State → Prop} {start finish : State}
    {labels : List Label} (run : Run step start labels finish)
    (preserved : ∀ {before label after}, property before →
      step before label after → property after)
    (initial : property start) : property finish := by
  induction run with
  | nil => exact initial
  | cons first _ ih => exact ih (preserved initial first)

/-- What the steps preserve from states with a property holds at the end of a run that has
the property throughout. -/
theorem invariant_throughout {condition property : State → Prop} {start finish : State}
    {labels : List Label} (run : Run step start labels finish)
    (throughout : Throughout step condition start labels)
    (preserved : ∀ {before label after}, condition before → condition after →
      property before → step before label after → property after)
    (initial : property start) : property finish := by
  induction run with
  | nil => exact initial
  | @cons start next finish label labels head _ ih =>
      have later := throughout.tail head
      exact ih later (preserved throughout.here later.here initial head)

/-- Runs compose. -/
theorem append {start middle finish : State} {first second : List Label}
    (left : Run step start first middle) (right : Run step middle second finish) :
    Run step start (first ++ second) finish := by
  induction left with
  | nil => exact right
  | cons head _ ih => exact .cons head (ih right)

/-- A step at the end of a run extends it. -/
theorem snoc {start middle finish : State} {labels : List Label} {label : Label}
    (run : Run step start labels middle) (last : step middle label finish) :
    Run step start (labels ++ [label]) finish :=
  run.append (.cons last (.nil finish))

/-- The rule for invariants that also speak of the labels so far. -/
theorem invariant_of_labels {property : List Label → State → Prop} {start finish : State}
    {labels : List Label} (run : Run step start labels finish)
    (preserved : ∀ {earlier before label after}, Run step start earlier before →
      property earlier before → step before label after → property (earlier ++ [label]) after)
    (initial : property [] start) : property labels finish := by
  have extended : ∀ {labels middle finish}, Run step middle labels finish → ∀ earlier,
      Run step start earlier middle → property earlier middle →
        property (earlier ++ labels) finish := by
    intro labels middle finish run
    induction run with
    | nil =>
        intro earlier _ holds
        rwa [List.append_nil]
    | @cons middle next finish label labels first _ ih =>
        intro earlier reaches holds
        have further := ih (earlier ++ [label]) (reaches.snoc first)
          (preserved reaches holds first)
        rwa [List.append_assoc, List.singleton_append] at further
  exact extended run [] (.nil start) initial

/-- A run over a concatenation passes through an intermediate state. -/
theorem exists_of_append {start finish : State} {first second : List Label}
    (run : Run step start (first ++ second) finish) :
    ∃ middle, Run step start first middle ∧ Run step middle second finish := by
  induction first generalizing start with
  | nil => exact ⟨start, .nil start, run⟩
  | cons label labels ih =>
      cases run with
      | cons head rest =>
          obtain ⟨middle, left, right⟩ := ih rest
          exact ⟨middle, .cons head left, right⟩

/-- Runs of a smaller step relation are runs of a larger one. -/
theorem mono {larger : State → Label → State → Prop}
    (included : ∀ {before label after}, step before label after →
      larger before label after)
    {start finish : State} {labels : List Label}
    (run : Run step start labels finish) : Run larger start labels finish := by
  induction run with
  | nil state => exact .nil state
  | cons head _ ih => exact .cons (included head) ih

/-- A run is guarded by what each of its labels meets. -/
theorem guard {condition : Label → Prop} {start finish : State} {labels : List Label}
    (run : Run step start labels finish) (meets : ∀ label ∈ labels, condition label) :
    Run (Guarded (fun _ label => condition label) step) start labels finish := by
  induction run with
  | nil state => exact .nil state
  | cons head _ ih =>
      exact .cons ⟨meets _ (by simp), head⟩ (ih fun label member => meets label (by simp [member]))

/-- A run is guarded when each of its steps meets the condition. -/
theorem guarded_of_each {condition : State → Label → Prop} {start finish : State}
    {labels : List Label} (run : Run step start labels finish)
    (each : ∀ earlier label later before after, labels = earlier ++ label :: later →
      Run step start earlier before → step before label after → condition before label) :
    Run (Guarded condition step) start labels finish := by
  induction run with
  | nil state => exact .nil state
  | @cons start next finish label labels head _ ih =>
      refine .cons ⟨each [] label labels start next rfl (.nil start) head, head⟩ (ih ?_)
      intro earlier other later before after split reaches step
      exact each (label :: earlier) other later before after (by rw [split, List.cons_append])
        (.cons head reaches) step

/-- Where the steps are functional, labels lead to one state. -/
theorem eq_of_functional {start finish other : State} {labels : List Label}
    (run : Run step start labels finish)
    (functional : ∀ {before label left right}, step before label left →
      step before label right → left = right)
    (second : Run step start labels other) : finish = other := by
  induction run with
  | nil state =>
      cases second
      rfl
  | cons head _ ih =>
      cases second with
      | cons first rest =>
          cases functional head first
          exact ih rest

/-- Where the steps are functional, a guarded run passes through every state that its first
labels lead to. -/
theorem split_at {condition : State → Label → Prop} {start finish middle : State}
    {earlier later : List Label}
    (run : Run (Guarded condition step) start (earlier ++ later) finish)
    (functional : ∀ {before label left right}, step before label left →
      step before label right → left = right)
    (reaches : Run step start earlier middle) :
    Run (Guarded condition step) start earlier middle ∧
      Run (Guarded condition step) middle later finish := by
  obtain ⟨other, first, last⟩ := run.exists_of_append
  cases reaches.eq_of_functional functional (first.mono And.right)
  exact ⟨first, last⟩

/-- Where a step keeps a property exactly under a condition, the property holds throughout
a run exactly when all its steps meet the condition. -/
theorem throughout_iff_guarded {property : State → Prop} {condition : State → Label → Prop}
    {start finish : State} {labels : List Label} (run : Run step start labels finish)
    (functional : ∀ {before label left right}, step before label left →
      step before label right → left = right)
    (keeps : ∀ {before label after}, property before → step before label after →
      (property after ↔ condition before label))
    (initial : property start) :
    Throughout step property start labels ↔
      Run (Guarded condition step) start labels finish := by
  constructor
  · intro throughout
    induction run with
    | nil state => exact .nil state
    | cons head _ ih =>
        have later := throughout.tail head
        exact .cons ⟨(keeps initial head).mp later.here, head⟩ (ih later.here later)
  · intro guarded earlier later middle split reaches
    clear run
    subst split
    induction reaches with
    | nil => exact initial
    | cons head _ ih =>
        cases guarded with
        | cons first rest =>
            obtain ⟨meets, step⟩ := first
            cases functional head step
            exact ih ((keeps initial head).mpr meets) rest

/-- The same, where the steps keep the property under the condition only in states that
meet an invariant. -/
theorem throughout_iff_guarded_of_invariant {invariant property : State → Prop}
    {condition : State → Label → Prop} {start finish : State} {labels : List Label}
    (run : Run step start labels finish)
    (functional : ∀ {before label left right}, step before label left →
      step before label right → left = right)
    (preserved : ∀ {before label after}, invariant before → step before label after →
      invariant after)
    (keeps : ∀ {before label after}, invariant before → property before →
      step before label after → (property after ↔ condition before label))
    (sound : invariant start) (initial : property start) :
    Throughout step property start labels ↔
      Run (Guarded condition step) start labels finish := by
  have both : Throughout step (fun state => invariant state ∧ property state) start labels ↔
      Run (Guarded condition step) start labels finish :=
    run.throughout_iff_guarded functional (fun holds step => by
      rw [keeps holds.1 holds.2 step]
      exact and_iff_right (preserved holds.1 step)) ⟨sound, initial⟩
  rw [← both]
  constructor
  · intro throughout earlier later middle split reaches
    exact ⟨reaches.invariant preserved sound, throughout earlier later middle split reaches⟩
  · intro throughout earlier later middle split reaches
    exact (throughout earlier later middle split reaches).2

/-- Forward simulation: related states stay related along every run, and the
abstract system takes the same labels. -/
theorem simulate {abstractStep : Abstract → Label → Abstract → Prop}
    {related : State → Abstract → Prop}
    (simulated : ∀ {before label after image}, related before image →
      step before label after →
      ∃ next, abstractStep image label next ∧ related after next)
    {start finish : State} {labels : List Label} {image : Abstract}
    (run : Run step start labels finish) (initial : related start image) :
    ∃ last, Run abstractStep image labels last ∧ related finish last := by
  induction run generalizing image with
  | nil => exact ⟨image, .nil image, initial⟩
  | cons head _ ih =>
      obtain ⟨next, abstractHead, stillRelated⟩ := simulated initial head
      obtain ⟨last, abstractRest, finallyRelated⟩ := ih stillRelated
      exact ⟨last, .cons abstractHead abstractRest, finallyRelated⟩

/-- A run is a run of a second step relation when its steps are, given an invariant of
the states it passes through. -/
theorem refine_of_invariant {refined : State → Label → State → Prop}
    (property : State → Prop)
    (carried : ∀ {before label after}, property before → step before label after →
      refined before label after ∧ property after)
    {start finish : State} {labels : List Label}
    (run : Run step start labels finish) (initial : property start) :
    Run refined start labels finish := by
  induction run with
  | nil state => exact .nil state
  | cons head _ ih =>
      obtain ⟨refinedHead, next⟩ := carried initial head
      exact .cons refinedHead (ih next)

/-- Where a step has a property exactly under a condition, given an invariant that the steps
with the property preserve, the steps of a run all have the property exactly when they all
meet the condition. -/
theorem guarded_iff_of_invariant {invariant : State → Prop} {condition : State → Label → Prop}
    {property : State → Label → State → Prop} {start finish : State} {labels : List Label}
    (preserved : ∀ {before label after}, invariant before → step before label after →
      property before label after → invariant after)
    (meets : ∀ {before label after}, invariant before → step before label after →
      (property before label after ↔ condition before label))
    (initial : invariant start) :
    Run (fun before label after => step before label after ∧ property before label after)
        start labels finish ↔ Run (Guarded condition step) start labels finish := by
  constructor
  · intro run
    exact run.refine_of_invariant invariant (fun sound both =>
      ⟨⟨(meets sound both.1).mp both.2, both.1⟩, preserved sound both.1 both.2⟩) initial
  · intro run
    exact run.refine_of_invariant invariant (fun sound guarded =>
      have has := (meets sound guarded.2).mpr guarded.1
      ⟨⟨guarded.2, has⟩, preserved sound guarded.2 has⟩) initial

/-- Following labels is a run. -/
theorem of_follow {next : State → Label → Option State}
    (sound : ∀ {before label after}, next before label = some after →
      step before label after)
    {labels : List Label} {start finish : State}
    (followed : follow next labels start = some finish) : Run step start labels finish := by
  induction labels generalizing start with
  | nil =>
      cases followed
      exact .nil finish
  | cons label labels ih =>
      obtain ⟨middle, first, rest⟩ := Option.bind_eq_some_iff.mp followed
      exact .cons (sound first) (ih rest)

/-- Where a step brings or drops something, given an invariant that all steps preserve, it is
there at the end of a run exactly when it was there from the start or has been brought, and
was not dropped since. -/
theorem has_iff_of_invariant {invariant has : State → Prop} {brings drops : State → Label → Prop}
    {start finish : State} {labels : List Label} (run : Run step start labels finish)
    (preserved : ∀ {before label after}, invariant before → step before label after →
      invariant after)
    (change : ∀ {before label after}, invariant before → step before label after →
      (has after ↔ brings before label ∨ has before ∧ ¬ drops before label))
    (sound : invariant start) :
    has finish ↔
      has start ∧ Run (Guarded (fun state label => ¬ drops state label) step) start labels
        finish ∨ BroughtSince step brings drops start labels finish := by
  constructor
  · intro there
    induction run with
    | nil state => exact Or.inl ⟨there, .nil state⟩
    | @cons start next finish label labels head rest ih =>
        rcases ih (preserved sound head) there with ⟨kept, spared⟩ | ⟨earlier, other, later,
          before, after, split, first, middle, brings, spared⟩
        · rcases (change sound head).mp kept with brought | ⟨old, spares⟩
          · exact Or.inr ⟨[], label, labels, start, next, rfl, .nil start, head, brought, spared⟩
          · exact Or.inl ⟨old, .cons ⟨spares, head⟩ spared⟩
        · refine Or.inr ⟨label :: earlier, other, later, before, after, ?_, .cons head first,
            middle, brings, spared⟩
          rw [split, List.cons_append]
  · have stays : ∀ {middle last labels}, invariant middle → has middle →
        Run (Guarded (fun state label => ¬ drops state label) step) middle labels last →
        has last := by
      intro middle last labels holds there spared
      have both : ∀ {before label after}, invariant before ∧ has before →
          Guarded (fun state label => ¬ drops state label) step before label after →
          invariant after ∧ has after := fun held step => ⟨preserved held.1 step.2,
        (change held.1 step.2).mpr (Or.inr ⟨held.2, step.1⟩)⟩
      exact (spared.invariant both ⟨holds, there⟩).2
    rintro (⟨old, spared⟩ | ⟨_, _, _, _, _, _, first, middle, brings, spared⟩)
    · exact stays sound old spared
    · have reached := first.invariant preserved sound
      exact stays (preserved reached middle) ((change reached middle).mpr (Or.inl brings)) spared

/-- What no step drops is there at the end of a run exactly when it was there from the start, or
some step brought it. -/
theorem has_iff_of_gains {invariant has : State → Prop} {brings : State → Label → Prop}
    {start finish : State} {labels : List Label} (run : Run step start labels finish)
    (preserved : ∀ {before label after}, invariant before → step before label after →
      invariant after)
    (gains : ∀ {before label after}, invariant before → step before label after →
      (has after ↔ brings before label ∨ has before))
    (sound : invariant start) :
    has finish ↔ has start ∨ Occurs step brings start labels finish := by
  have change : ∀ {before label after}, invariant before → step before label after →
      (has after ↔ brings before label ∨ has before ∧ ¬ False) := by
    intro before label after holds happens
    rw [gains holds happens, not_false_eq_true, and_true]
  have spared : ∀ {start labels finish}, Run step start labels finish →
      Run (Guarded (fun _ _ => ¬ False) step) start labels finish :=
    fun run => run.mono fun step => ⟨id, step⟩
  rw [run.has_iff_of_invariant preserved change sound, and_iff_left (spared run)]
  refine or_congr_right ⟨?_, ?_⟩
  · rintro ⟨earlier, label, later, before, after, split, first, middle, brought, rest⟩
    exact ⟨earlier, label, later, before, after, split, first, middle, brought,
      rest.mono And.right⟩
  · rintro ⟨earlier, label, later, before, after, split, first, middle, brought, rest⟩
    exact ⟨earlier, label, later, before, after, split, first, middle, brought, spared rest⟩

/-- What was not there at the start of a run is there at its end exactly when it has been
brought and not dropped since. -/
theorem has_iff_broughtSince {has : State → Prop} {brings drops : State → Label → Prop}
    {start finish : State} {labels : List Label} (run : Run step start labels finish)
    (change : ∀ {before label after}, step before label after →
      (has after ↔ brings before label ∨ has before ∧ ¬ drops before label))
    (initial : ¬ has start) :
    has finish ↔ BroughtSince step brings drops start labels finish := by
  have always : ∀ {before label after}, True → step before label after → True :=
    fun _ _ => trivial
  rw [run.has_iff_of_invariant always (fun _ => change) trivial]
  exact or_iff_right fun old => initial old.1

end Run

end BleRepeater.Transition
