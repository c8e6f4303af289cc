/-!
Runs of an executable step function and the invariant rules for them. A run is a
list of events.
-/

namespace Transition

variable {State Event : Type}

def run (step : State → Event → State) (start : State) (events : List Event) : State :=
  events.foldl step start

def Admissible (step : State → Event → State) (Allowed : State → Event → Prop) : State → List Event → Prop
  | _, [] => True
  | state, event :: events => Allowed state event ∧ Admissible step Allowed (step state event) events

instance (step : State → Event → State) (Allowed : State → Event → Prop) [∀ state event, Decidable (Allowed state event)] :
    ∀ start events, Decidable (Admissible step Allowed start events)
  | _, [] => inferInstanceAs (Decidable True)
  | start, event :: events =>
    have := instDecidableAdmissible step Allowed (step start event) events
    inferInstanceAs (Decidable (_ ∧ _))

variable (step : State → Event → State)

@[simp] theorem run_nil (start : State) : run step start [] = start := rfl

@[simp] theorem run_cons (start : State) (event : Event) (events : List Event) :
    run step start (event :: events) = run step (step start event) events := rfl

theorem run_append {start : State} {first second : List Event} :
    run step start (first ++ second) = run step (run step start first) second := by
  simp only [run, List.foldl_append]

/-- An invariant that every allowed step keeps holds at the end of every admissible run. -/
theorem run_invariant_of_admissible (Allowed : State → Event → Prop) (Inv : State → Prop)
    (kept : ∀ state event, Allowed state event → Inv state → Inv (step state event)) :
    ∀ events start, Inv start → Admissible step Allowed start events → Inv (run step start events) := by
  intro events
  induction events with
  | nil => intro start initial _; exact initial
  | cons event events ih =>
    intro start initial admissible
    exact ih (step start event) (kept start event admissible.1 initial) admissible.2

theorem admissible_of_forall {Allowed : Event → Prop} :
    ∀ events start, (∀ event ∈ events, Allowed event) → Admissible step (fun _ event => Allowed event) start events := by
  intro events
  induction events with
  | nil => intro start _; trivial
  | cons event events ih =>
    intro start allowed
    exact ⟨allowed event List.mem_cons_self,
      ih (step start event) fun other member => allowed other (List.mem_cons_of_mem _ member)⟩

theorem Admissible.imp {First Second : State → Event → Prop}
    (weaker : ∀ state event, First state event → Second state event) :
    ∀ events start, Admissible step First start events → Admissible step Second start events := by
  intro events
  induction events with
  | nil => intro start _; trivial
  | cons event events ih =>
    intro start admissible
    exact ⟨weaker start event admissible.1, ih (step start event) admissible.2⟩

theorem run_invariant (Inv : State → Prop)
    (kept : ∀ state event, Inv state → Inv (step state event)) (start : State) (initial : Inv start)
    (events : List Event) : Inv (run step start events) := by
  refine run_invariant_of_admissible step (fun _ _ => True) Inv
    (fun state event _ => kept state event) events start initial ?_
  exact admissible_of_forall step events start (fun _ _ => trivial)

/-- Two step conditions admit the same runs when they agree wherever the invariant holds, and the
invariant is kept by the steps that meet them. `Subject` restricts the events of the runs compared. -/
theorem admissible_iff (First Second : State → Event → Prop) (Subject : Event → Prop) (Inv : State → Prop)
    (agree : ∀ state event, Subject event → Inv state → (First state event ↔ Second state event))
    (kept : ∀ state event, Subject event → Second state event → Inv state → Inv (step state event)) :
    ∀ events start, (∀ event ∈ events, Subject event) → Inv start →
      (Admissible step First start events ↔ Admissible step Second start events) := by
  intro events
  induction events with
  | nil => intro start _ _; exact Iff.rfl
  | cons event events ih =>
    intro start subject initial
    have here := agree start event (subject event List.mem_cons_self) initial
    have later : Second start event → (Admissible step First (step start event) events ↔
        Admissible step Second (step start event) events) := by
      intro second
      apply ih (step start event) (fun other member => subject other (List.mem_cons_of_mem _ member))
      exact kept start event (subject event List.mem_cons_self) second initial
    constructor
    · rintro ⟨first, rest⟩
      exact ⟨here.mp first, (later (here.mp first)).mp rest⟩
    · rintro ⟨second, rest⟩
      exact ⟨here.mpr second, (later second).mpr rest⟩

/-- Two systems that stay related step by step stay related over the same run. -/
theorem run_simulation {Abstract : Type} (abstractStep : Abstract → Event → Abstract)
    (Related : State → Abstract → Prop) (kept : ∀ state abstract event, Related state abstract →
      Related (step state event) (abstractStep abstract event)) : ∀ events state abstract, Related state abstract →
      Related (run step state events) (run abstractStep abstract events) := by
  intro events
  induction events with
  | nil => intro state abstract related; exact related
  | cons event events ih =>
    intro state abstract related
    exact ih _ _ (kept state abstract event related)

/-- A counting loop whose invariant speaks about the number of the next round. -/
theorem foldl_range'_invariant (body : State → Nat → State) (Inv : Nat → State → Prop) :
    ∀ count first state, Inv first state →
      (∀ index state, first ≤ index → index < first + count → Inv index state → Inv (index + 1) (body state index)) →
      Inv (first + count) ((List.range' first count).foldl body state) := by
  intro count
  induction count with
  | zero => intro first state initial _; exact initial
  | succ count ih =>
    intro first state initial kept
    rw [List.range'_succ, List.foldl_cons, show first + (count + 1) = first + 1 + count by omega]
    apply ih (first + 1)
    · exact kept first state (Nat.le_refl _) (by omega) initial
    · intro index state low high
      exact kept index state (by omega) (by omega)

end Transition
