import Mathlib.Data.List.Induction
import Mathlib.Order.Basic

/-! Runs of a system whose steps may be disabled, and what survives along them. -/

namespace Runs

open List Option

variable {State Label : Type*}

/-- The state a list of steps leads to, when each is enabled in turn. -/
def run (step : State → Label → Option State) : State → List Label → Option State
  | state, [] => some state
  | state, label :: rest => (step state label).bind fun next => run step next rest

/-- Every step is taken in a state where the condition on steps holds. -/
def Along (step : State → Label → Option State) (condition : State → Label → Prop) :
    State → List Label → Prop
  | _, [] => True
  | state, label :: rest =>
    condition state label ∧ ∀ next, step state label = some next → Along step condition next rest

variable {step : State → Label → Option State} {condition : State → Label → Prop}
  {Inv : State → Prop} {state : State} {label : Label} {labels rest : List Label}

/-- A condition along a run is one on its first step and what follows. -/
theorem Along.cons {next : State} (here : condition state label)
    (taken : step state label = some next) (later : Along step condition next rest) :
    Along step condition state (label :: rest) :=
  ⟨here, fun _ other => some.inj (taken.symm.trans other) ▸ later⟩

/-- Along a single step the condition has to hold there only. -/
theorem Along.last (here : condition state label) : Along step condition state [label] :=
  ⟨here, fun _ _ => trivial⟩

variable {last : State}

/-- A run takes its first step and then what follows. -/
theorem run_cons : run step state (label :: rest) = some last ↔
    ∃ next, step state label = some next ∧ run step next rest = some last :=
  bind_eq_some_iff

/-- Nothing is asked of any step. -/
theorem along_true : Along step (fun _ _ => True) state labels := by
  induction labels generalizing state with
  | nil => trivial
  | cons label rest ih => exact ⟨trivial, fun _ _ => ih⟩

/-- A condition on steps alone holds along every list of them. -/
theorem along_of_forall {condition : Label → Prop} (all : ∀ label ∈ labels, condition label) :
    Along step (fun _ label => condition label) state labels := by
  induction labels generalizing state with
  | nil => trivial
  | cons label rest ih =>
    rw [forall_mem_cons] at all
    exact ⟨all.1, fun _ _ => ih all.2⟩

/-- A run splits at any point into a run to that point and a run from it. -/
theorem run_append (step : State → Label → Option State) (state : State) (first rest : List Label) :
    run step state (first ++ rest) = (run step state first).bind fun mid => run step mid rest := by
  induction first generalizing state with
  | nil => rfl
  | cons label first ih =>
    cases taken : step state label with
    | none => simp [run, taken]
    | some next => simp [run, taken, ih]

/-- A condition along a run holds along both its parts. -/
theorem along_append {first : List Label} : Along step condition state (first ++ rest) ↔
    Along step condition state first ∧
      ∀ mid, run step state first = some mid → Along step condition mid rest := by
  induction first generalizing state with
  | nil => simp [Along, run]
  | cons label first ih =>
    constructor
    · rintro ⟨here, later⟩
      refine ⟨⟨here, fun next taken => (ih.mp (later next taken)).1⟩, ?_⟩
      intro mid reached
      obtain ⟨next, taken, reached⟩ := run_cons.mp reached
      exact (ih.mp (later next taken)).2 mid reached
    · rintro ⟨⟨here, early⟩, later⟩
      refine ⟨here, fun next taken => ih.mpr ⟨early next taken, ?_⟩⟩
      intro mid reached
      exact later mid (run_cons.mpr ⟨next, taken, reached⟩)

/-- A condition that fails along a run fails first at a step it reaches. -/
theorem exists_of_not_along (broken : ¬ Along step condition state labels) :
    ∃ first label rest mid, labels = first ++ label :: rest ∧ run step state first = some mid ∧
      Along step condition state first ∧ ¬ condition mid label := by
  induction labels generalizing state with
  | nil => exact absurd trivial broken
  | cons label rest ih =>
    by_cases here : condition state label
    · -- The first step meets the condition, so the failure lies behind it.
      have later : ∃ next, step state label = some next ∧ ¬ Along step condition next rest := by
        by_contra none
        refine broken ⟨here, fun next taken => ?_⟩
        by_contra behind
        exact none ⟨next, taken, behind⟩
      obtain ⟨next, taken, behind⟩ := later
      obtain ⟨first, failing, last, mid, same, reached, admitted, fails⟩ := ih behind
      exact ⟨label :: first, failing, last, mid, congrArg (label :: ·) same,
        run_cons.mpr ⟨next, taken, reached⟩, .cons here taken admitted, fails⟩
    · exact ⟨[], label, rest, state, rfl, rfl, trivial, here⟩

/-- What every admitted step keeps holds at the end of admitted runs. -/
theorem invariant
    (preserved : ∀ state label next, Inv state → condition state label →
      step state label = some next → Inv next)
    {state last : State} {labels : List Label} (start : Inv state)
    (admitted : Along step condition state labels) (reached : run step state labels = some last) :
    Inv last := by
  induction labels generalizing state with
  | nil => exact some.inj reached ▸ start
  | cons label rest ih =>
    obtain ⟨next, taken, reached⟩ := run_cons.mp reached
    exact ih (preserved _ _ _ start admitted.1 taken) (admitted.2 next taken) reached

/-- A quantity no admitted step lowers is not lowered by admitted runs. -/
theorem monotone {Value : Type*} [Preorder Value] {measure : State → Value}
    (preserved : ∀ state label next, Inv state → condition state label →
      step state label = some next → Inv next)
    (raised : ∀ state label next, Inv state → condition state label →
      step state label = some next → measure state ≤ measure next)
    {state last : State} {labels : List Label} (start : Inv state)
    (admitted : Along step condition state labels) (reached : run step state labels = some last) :
    measure state ≤ measure last := by
  -- Being no lower than at the beginning is one more invariant.
  have kept : ∀ mid label next, Inv mid ∧ measure state ≤ measure mid → condition mid label →
      step mid label = some next → Inv next ∧ measure state ≤ measure next :=
    fun mid label next before admits taken =>
      ⟨preserved mid label next before.1 admits taken,
        before.2.trans (raised mid label next before.1 admits taken)⟩
  exact (invariant kept ⟨start, le_refl _⟩ admitted reached).2

variable {fair : State → Label → Prop}

/-- A property holds all along admitted runs when every step meets a condition. -/
theorem always_iff_along {Holds : State → Prop}
    (taken : ∀ state label, Inv state → fair state label → ∃ next,
      step state label = some next ∧ Inv next ∧
        (Holds state → (Holds next ↔ condition state label))) (start : Inv state)
    (holds : Holds state) (admitted : Along step fair state labels) :
    (∀ first, first <+: labels → ∀ mid, run step state first = some mid → Holds mid) ↔
      Along step condition state labels := by
  induction labels generalizing state with
  | nil =>
    constructor
    · exact fun _ => trivial
    · intro _ first before mid reached
      rw [prefix_nil.mp before] at reached
      exact some.inj reached ▸ holds
  | cons label rest ih =>
    obtain ⟨next, moved, kept, decides⟩ := taken state label start admitted.1
    have later := admitted.2 next moved
    constructor
    · -- The state after the first step has the property, so the rest of the run can be asked.
      intro always
      have after : Holds next := always [label] ⟨rest, rfl⟩ next (run_cons.mpr ⟨next, moved, rfl⟩)
      refine .cons ((decides holds).mp after) moved ((ih kept after later).mp ?_)
      intro first before mid reached
      exact always (label :: first) (prefix_cons_inj label |>.mpr before) mid
        (run_cons.mpr ⟨next, moved, reached⟩)
    · intro along first before mid reached
      have after : Holds next := (decides holds).mpr along.1
      cases first with
      | nil => exact some.inj reached ▸ holds
      | cons head first =>
        obtain ⟨rfl, inner⟩ := cons_prefix_cons.mp before
        simp only [run, moved, bind_some] at reached
        exact (ih kept after later).mpr (along.2 next moved) first inner mid reached

/-- A run is taken to its end when every admitted step is enabled. -/
theorem run_enabled
    (taken : ∀ state label, Inv state → fair state label →
      ∃ next, step state label = some next ∧ Inv next) (start : Inv state)
    (admitted : Along step fair state labels) :
    ∃ last, run step state labels = some last ∧ Inv last := by
  induction labels generalizing state with
  | nil => exact ⟨state, rfl, start⟩
  | cons label rest ih =>
    obtain ⟨next, moved, kept⟩ := taken state label start admitted.1
    obtain ⟨last, reached, ended⟩ := ih kept (admitted.2 next moved)
    exact ⟨last, run_cons.mpr ⟨next, moved, reached⟩, ended⟩

/-- Steps that use something up are no more than there is of it. -/
theorem spent {measure : State → Nat} {uses : Label → Bool}
    (preserved : ∀ state label next, Inv state → condition state label →
      step state label = some next → Inv next)
    (falls : ∀ state label next, Inv state → condition state label → step state label = some next →
      measure next + (if uses label then 1 else 0) ≤ measure state) {last : State}
    (start : Inv state) (admitted : Along step condition state labels)
    (reached : run step state labels = some last) :
    measure last + (labels.filter uses).length ≤ measure state := by
  induction labels generalizing state with
  | nil => exact some.inj reached ▸ Nat.le_refl _
  | cons label rest ih =>
    obtain ⟨next, taken, reached⟩ := run_cons.mp reached
    have first := falls _ _ _ start admitted.1 taken
    have later := ih (preserved _ _ _ start admitted.1 taken) (admitted.2 next taken) reached
    rw [filter_cons]
    split
    · rename_i used
      rw [if_pos used] at first
      rw [length_cons]
      omega
    · rename_i unused
      omega

/-- A system that matches every step of another follows its runs. -/
theorem simulation {Other : Type*} {otherStep : Other → Label → Option Other}
    (Rel : State → Other → Prop)
    (matched : ∀ state label next other, Rel state other → step state label = some next →
      ∃ otherNext, otherStep other label = some otherNext ∧ Rel next otherNext)
    {state last : State} {other : Other} {labels : List Label} (start : Rel state other)
    (reached : run step state labels = some last) :
    ∃ otherLast, run otherStep other labels = some otherLast ∧ Rel last otherLast := by
  induction labels generalizing state other with
  | nil => exact ⟨other, rfl, some.inj reached ▸ start⟩
  | cons label rest ih =>
    obtain ⟨next, taken, reached⟩ := run_cons.mp reached
    obtain ⟨otherNext, moved, related⟩ := matched _ _ _ _ start taken
    obtain ⟨otherLast, followed, ended⟩ := ih related reached
    exact ⟨otherLast, run_cons.mpr ⟨otherNext, moved, followed⟩, ended⟩

/-- The steps that are visible in the states in which they are taken. -/
def purge (step : State → Label → Option State) (visible : State → Label → Bool) :
    State → List Label → List Label
  | _, [] => []
  | state, label :: rest =>
    let later := (step state label).elim [] fun next => purge step visible next rest
    if visible state label then label :: later else later

/-- A system that takes the visible steps only follows the whole. -/
theorem unwinding {Other : Type*} {visible : State → Label → Bool}
    {otherStep : Other → Label → Option Other} (Rel : State → Other → Prop)
    (seen : ∀ state label next other, Rel state other → condition state label →
      visible state label = true → step state label = some next →
      ∃ otherNext, otherStep other label = some otherNext ∧ Rel next otherNext)
    (unseen : ∀ state label next other, Rel state other → condition state label →
      visible state label = false → step state label = some next → Rel next other) {last : State}
    {other : Other} (start : Rel state other) (admitted : Along step condition state labels)
    (reached : run step state labels = some last) :
    ∃ otherLast, run otherStep other (purge step visible state labels) = some otherLast ∧
      Rel last otherLast := by
  -- The other system takes the step as well, or stays where it is.
  induction labels generalizing state other with
  | nil => exact ⟨other, rfl, some.inj reached ▸ start⟩
  | cons label rest ih =>
    obtain ⟨next, taken, reached⟩ := run_cons.mp reached
    simp only [purge, taken, elim_some]
    cases shown : visible state label with
    | true =>
      obtain ⟨otherNext, matched, related⟩ := seen _ _ _ _ start admitted.1 shown taken
      obtain ⟨otherLast, followed, ended⟩ := ih related (admitted.2 next taken) reached
      exact ⟨otherLast, run_cons.mpr ⟨otherNext, matched, followed⟩, ended⟩
    | false =>
      exact ih (unseen _ _ _ _ start admitted.1 shown taken) (admitted.2 next taken) reached

end Runs
