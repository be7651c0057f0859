import Mathlib.Data.Option.Basic
import Mathlib.Data.List.Basic
import Mathlib.Data.List.Induction

/-! # Labelled machines and their runs

A machine takes one labelled step at a time. The label resolves every choice
that is not the machine's own: the scheduler, the network, the environment. A
run is a list of labels, so that quantifying over runs is quantifying over all
interleavings.
-/

namespace Kapprofiler.Foundation

universe uState uLabel

/-- A step that is not enabled, or that kills the process, has no successor. -/
structure Machine (State : Type uState) (Label : Type uLabel) where
  init : State → Prop
  step : State → Label → Option State

namespace Machine

variable {State : Type uState} {Label : Type uLabel}

def run (machine : Machine State Label) : State → List Label → Option State
  | state, [] => some state
  | state, label :: rest => (machine.step state label).bind fun next => machine.run next rest

/-- Every step of the run, read with the state it is taken from, meets `meets`. -/
def Along (machine : Machine State Label) (meets : State → Label → Prop) :
    State → List Label → Prop
  | _, [] => True
  | state, label :: rest => meets state label ∧
      ∀ next, machine.step state label = some next → machine.Along meets next rest

variable (machine : Machine State Label)

/-- The states that some run from an initial state ends in. -/
def Reachable (state : State) : Prop :=
  ∃ start labels, machine.init start ∧ machine.run start labels = some state

@[simp] theorem run_nil (state : State) : machine.run state [] = some state := rfl

theorem run_cons {state last : State} {label : Label} {rest : List Label} :
    machine.run state (label :: rest) = some last ↔
      ∃ next, machine.step state label = some next ∧ machine.run next rest = some last :=
  Option.bind_eq_some_iff

theorem run_append {state last : State} {first second : List Label} :
    machine.run state (first ++ second) = some last ↔
      ∃ middle, machine.run state first = some middle ∧
        machine.run middle second = some last := by
  induction first generalizing state with
  | nil => simp
  | cons label rest ih =>
      simp only [List.cons_append, run_cons, ih]
      constructor
      · rintro ⟨next, hstep, middle, hfirst, hsecond⟩
        exact ⟨middle, ⟨next, hstep, hfirst⟩, hsecond⟩
      · rintro ⟨middle, ⟨next, hstep, hfirst⟩, hsecond⟩
        exact ⟨next, hstep, middle, hfirst, hsecond⟩

/-- A condition that can be decided for a step can be decided along a run. -/
instance decidableAlong {meets : State → Label → Prop}
    [∀ state label, Decidable (meets state label)] :
    ∀ state labels, Decidable (machine.Along meets state labels)
  | _, [] => isTrue trivial
  | state, label :: rest =>
      haveI : DecidablePred fun next => machine.Along meets next rest :=
        fun next => decidableAlong next rest
      inferInstanceAs (Decidable (meets state label ∧
        ∀ next ∈ machine.step state label, machine.Along meets next rest))

theorem along_and {first second : State → Label → Prop} {state : State}
    {labels : List Label} :
    machine.Along (fun s l => first s l ∧ second s l) state labels ↔
      machine.Along first state labels ∧ machine.Along second state labels := by
  induction labels generalizing state with
  | nil => simp [Along]
  | cons label rest ih =>
      simp only [Along, ih]
      constructor
      · rintro ⟨⟨hfirst, hsecond⟩, hrest⟩
        exact ⟨⟨hfirst, fun next hstep => (hrest next hstep).1⟩,
          hsecond, fun next hstep => (hrest next hstep).2⟩
      · rintro ⟨⟨hfirst, hfirstRest⟩, hsecond, hsecondRest⟩
        exact ⟨⟨hfirst, hsecond⟩, fun next hstep =>
          ⟨hfirstRest next hstep, hsecondRest next hstep⟩⟩

theorem along_append {meets : State → Label → Prop} {state : State}
    {first second : List Label} :
    machine.Along meets state (first ++ second) ↔
      machine.Along meets state first ∧
        ∀ middle, machine.run state first = some middle → machine.Along meets middle second := by
  induction first generalizing state with
  | nil => simp [Along]
  | cons label rest ih =>
      simp only [List.cons_append, Along, run_cons, ih]
      constructor
      · rintro ⟨hlabel, hrest⟩
        refine ⟨⟨hlabel, fun next hstep => (hrest next hstep).1⟩, ?_⟩
        rintro middle ⟨next, hstep, hrun⟩
        exact (hrest next hstep).2 middle hrun
      · rintro ⟨⟨hlabel, hrest⟩, hsecond⟩
        exact ⟨hlabel, fun next hstep => ⟨hrest next hstep,
          fun middle hrun => hsecond middle ⟨next, hstep, hrun⟩⟩⟩

/-- A property that every step meeting `meets` preserves holds at the end of
every run whose steps all meet it. -/
theorem run_invariant_along {meets : State → Label → Prop} {invariant : State → Prop}
    (hpreserve : ∀ state label next, invariant state → meets state label →
      machine.step state label = some next → invariant next)
    {state last : State} {labels : List Label} (hstart : invariant state)
    (halong : machine.Along meets state labels)
    (hrun : machine.run state labels = some last) : invariant last := by
  induction labels generalizing state with
  | nil => simpa using (Option.some.inj hrun) ▸ hstart
  | cons label rest ih =>
      obtain ⟨next, hstep, hrest⟩ := machine.run_cons.mp hrun
      exact ih (hpreserve state label next hstart halong.1 hstep) (halong.2 next hstep) hrest

theorem run_invariant {invariant : State → Prop}
    (hpreserve : ∀ state label next, invariant state →
      machine.step state label = some next → invariant next)
    {state last : State} {labels : List Label} (hstart : invariant state)
    (hrun : machine.run state labels = some last) : invariant last := by
  induction labels generalizing state with
  | nil => simpa using (Option.some.inj hrun) ▸ hstart
  | cons label rest ih =>
      obtain ⟨next, hstep, hrest⟩ := machine.run_cons.mp hrun
      exact ih (hpreserve state label next hstart hstep) hrest

/-- An invariant that may refer to the run so far. -/
theorem run_history_invariant {start : State} (invariant : List Label → State → Prop)
    (hstart : invariant [] start)
    (hpreserve : ∀ labels state label next, machine.run start labels = some state →
      invariant labels state → machine.step state label = some next →
      invariant (labels ++ [label]) next)
    {labels : List Label} {last : State} (hrun : machine.run start labels = some last) :
    invariant labels last := by
  induction labels using List.reverseRecOn generalizing last with
  | nil =>
      rw [run_nil, Option.some.injEq] at hrun
      exact hrun ▸ hstart
  | append_singleton labels label ih =>
      obtain ⟨state, hbefore, hlabel⟩ := machine.run_append.mp hrun
      obtain ⟨next, hstep, hlast⟩ := machine.run_cons.mp hlabel
      rw [run_nil, Option.some.injEq] at hlast
      exact hlast ▸ hpreserve labels state label next hbefore (ih hbefore) hstep

theorem along_of_forall_mem {meets : State → Label → Prop} {state : State}
    {labels : List Label} (hall : ∀ state, ∀ label ∈ labels, meets state label) :
    machine.Along meets state labels := by
  induction labels generalizing state with
  | nil => trivial
  | cons label rest ih =>
      exact ⟨hall state label List.mem_cons_self, fun next _ =>
        ih fun state label hmem => hall state label (List.mem_cons_of_mem _ hmem)⟩

/-- Meeting a condition along a run is meeting it at every step that the run takes. -/
theorem along_iff_forall_step {meets : State → Label → Prop} {start : State}
    {labels : List Label} :
    machine.Along meets start labels ↔
      ∀ before label after state, labels = before ++ label :: after →
        machine.run start before = some state → meets state label := by
  induction labels generalizing start with
  | nil => simp [Along]
  | cons head rest ih =>
      simp only [Along, ih]
      constructor
      · rintro ⟨hhead, hrest⟩ before label after state hlabels hbefore
        cases before with
        | nil =>
            obtain ⟨rfl, rfl⟩ := List.cons.inj hlabels
            rw [run_nil, Option.some.injEq] at hbefore
            exact hbefore ▸ hhead
        | cons first others =>
            obtain ⟨rfl, rfl⟩ := List.cons.inj hlabels
            obtain ⟨next, hstep, hothers⟩ := machine.run_cons.mp hbefore
            exact hrest next hstep others label after state rfl hothers
      · intro hall
        refine ⟨hall [] head rest start rfl rfl, ?_⟩
        intro next hstep before label after state hlabels hbefore
        apply hall (head :: before) label after state
        · rw [hlabels, List.cons_append]
        · exact machine.run_cons.mpr ⟨next, hstep, hbefore⟩

/-- Conditions that agree on every step meeting the assumption agree along a run. -/
theorem along_congr {assumes first second : State → Label → Prop} {start : State}
    {labels : List Label} (hassumes : machine.Along assumes start labels)
    (hcongr : ∀ state label, assumes state label → (first state label ↔ second state label)) :
    machine.Along first start labels ↔ machine.Along second start labels := by
  induction labels generalizing start with
  | nil => exact Iff.rfl
  | cons label rest ih =>
      exact and_congr (hcongr start label hassumes.1) (forall_congr' fun next =>
        forall_congr' fun hstep => ih (hassumes.2 next hstep))

/-- Conditions that agree on every step from a state with an invariant agree along a run. -/
theorem along_congr_of_run {side : State → Prop} {first second : State → Label → Prop}
    (hside : ∀ state label next, side state → machine.step state label = some next → side next)
    (hcongr : ∀ state label next, side state → machine.step state label = some next →
      (first state label ↔ second state label))
    {start last : State} {labels : List Label} (hstart : side start)
    (hrun : machine.run start labels = some last) :
    machine.Along first start labels ↔ machine.Along second start labels := by
  induction labels generalizing start with
  | nil => exact Iff.rfl
  | cons label rest ih =>
      obtain ⟨next, hstep, hrest⟩ := machine.run_cons.mp hrun
      apply and_congr (hcongr start label next hstart hstep)
      apply forall_congr'
      intro next'
      apply forall_congr'
      intro hstep'
      obtain rfl := Option.some.inj (hstep.symm.trans hstep')
      exact ih (hside start label next hstart hstep) hrest

/-- Where a step from a good state that meets the assumption ends in a good state exactly
if it meets the condition, all states of a run that meets the assumption are good exactly
if all its steps meet the condition. -/
theorem along_iff_forall_prefix_of_along {assumes meets : State → Label → Prop}
    {side good : State → Prop} {start last : State} {labels : List Label}
    (hside : ∀ state label next, side state → assumes state label →
      machine.step state label = some next → side next)
    (hexact : ∀ state label next, side state → good state → assumes state label →
      machine.step state label = some next → (meets state label ↔ good next))
    (hassumes : machine.Along assumes start labels) (hstart : side start)
    (hgood : good start) (hrun : machine.run start labels = some last) :
    machine.Along meets start labels ↔
      ∀ before state, before <+: labels → machine.run start before = some state →
        good state := by
  induction labels generalizing start with
  | nil =>
      refine iff_of_true trivial ?_
      intro before state hbefore hstate
      rw [List.prefix_nil.mp hbefore, run_nil, Option.some.injEq] at hstate
      exact hstate ▸ hgood
  | cons label rest ih =>
      obtain ⟨next, hstep, hrest⟩ := machine.run_cons.mp hrun
      obtain ⟨hassumed, hassumes⟩ := hassumes
      have hlabel := hexact start label next hstart hgood hassumed hstep
      -- By induction on the rest of the run, from the state after its first step.
      have hnext := fun hgoodNext => ih (hassumes next hstep)
        (hside start label next hstart hassumed hstep) hgoodNext hrest
      constructor
      · intro halong before state hbefore hstate
        have hgoodNext := hlabel.mp halong.1
        cases before with
        | nil =>
            rw [run_nil, Option.some.injEq] at hstate
            exact hstate ▸ hgood
        | cons first others =>
            obtain ⟨rfl, hothers⟩ := List.cons_prefix_cons.mp hbefore
            obtain ⟨next', hstep', hstate'⟩ := machine.run_cons.mp hstate
            obtain rfl := Option.some.inj (hstep.symm.trans hstep')
            exact (hnext hgoodNext).mp (halong.2 next hstep) others state hothers hstate'
      · intro hall
        have hgoodNext : good next :=
          hall [label] next (by simp) (machine.run_cons.mpr ⟨next, hstep, rfl⟩)
        refine ⟨hlabel.mpr hgoodNext, ?_⟩
        intro next' hstep'
        obtain rfl := Option.some.inj (hstep.symm.trans hstep')
        refine (hnext hgoodNext).mpr ?_
        intro before state hbefore hstate
        exact hall (label :: before) state (List.cons_prefix_cons.mpr ⟨rfl, hbefore⟩)
          (machine.run_cons.mpr ⟨next, hstep, hstate⟩)

/-- The same with nothing assumed but that the labels are those of the run. -/
theorem along_iff_forall_prefix {meets : State → Label → Prop} {side good : State → Prop}
    {start last : State} {labels : List Label}
    (hside : ∀ state label next, side state → machine.step state label = some next → side next)
    (hexact : ∀ state label next, side state → good state → label ∈ labels →
      machine.step state label = some next → (meets state label ↔ good next))
    (hstart : side start) (hgood : good start) (hrun : machine.run start labels = some last) :
    machine.Along meets start labels ↔
      ∀ before state, before <+: labels → machine.run start before = some state →
        good state := by
  have hassumes : machine.Along (fun _ label => label ∈ labels) start labels :=
    machine.along_of_forall_mem fun _ label hmem => hmem
  exact machine.along_iff_forall_prefix_of_along
    (fun state label next hstate _ => hside state label next hstate) hexact hassumes hstart
    hgood hrun

/-! ## What happens in a run -/

section Happens

variable {meets : State → Label → Prop} {start : State} {labels : List Label} {label : Label}

/-- Some step of the run meets `meets`, read with the state it is taken from. -/
def Happens (meets : State → Label → Prop) (start : State) (labels : List Label) : Prop :=
  ∃ before label after state, labels = before ++ label :: after ∧
    machine.run start before = some state ∧ meets state label

theorem Happens.concat (hhappens : machine.Happens meets start labels) :
    machine.Happens meets start (labels ++ [label]) := by
  obtain ⟨before, other, after, state, rfl, hrun, hmeets⟩ := hhappens
  refine ⟨before, other, after ++ [label], state, ?_, hrun, hmeets⟩
  rw [List.append_assoc, List.cons_append]

theorem happens_last {state : State} (hrun : machine.run start labels = some state)
    (hmeets : meets state label) : machine.Happens meets start (labels ++ [label]) :=
  ⟨labels, label, [], state, rfl, hrun, hmeets⟩

end Happens

/-! ## What a run emits -/

section Trace

universe uOutput

variable {Output : Type uOutput} {emit : State → Label → List Output}

/-- What the steps of a run emit, each read with the state it is taken from. -/
def trace (emit : State → Label → List Output) : State → List Label → List Output
  | _, [] => []
  | state, label :: rest => emit state label ++
      match machine.step state label with
      | some next => trace emit next rest
      | none => []

theorem trace_append {start state : State} {first second : List Label}
    (hrun : machine.run start first = some state) :
    machine.trace emit start (first ++ second) =
      machine.trace emit start first ++ machine.trace emit state second := by
  induction first generalizing start with
  | nil =>
      obtain rfl := Option.some.inj hrun
      rfl
  | cons label rest ih =>
      obtain ⟨next, hstep, hrest⟩ := machine.run_cons.mp hrun
      simp only [List.cons_append, trace, hstep]
      rw [ih hrest, List.append_assoc]

theorem trace_concat {start state : State} {labels : List Label} {label : Label}
    (hrun : machine.run start labels = some state) :
    machine.trace emit start (labels ++ [label]) =
      machine.trace emit start labels ++ emit state label := by
  rw [machine.trace_append hrun, trace]
  cases machine.step state label <;> simp [trace]

end Trace

/-- Where each step changes a view of the state by what its label carries, a run changes it
by what all its labels carry. -/
theorem run_foldl {View Output : Type*} {view : State → View} {carried : Label → List Output}
    {act : View → Output → View}
    (hstep : ∀ state label next, machine.step state label = some next →
      view next = (carried label).foldl act (view state))
    {start last : State} {labels : List Label} (hrun : machine.run start labels = some last) :
    view last = (labels.flatMap carried).foldl act (view start) := by
  induction labels generalizing start with
  | nil =>
      obtain rfl := Option.some.inj hrun
      rfl
  | cons label rest ih =>
      obtain ⟨next, hlabel, hrest⟩ := machine.run_cons.mp hrun
      rw [List.flatMap_cons, List.foldl_append, ih hrest, hstep start label next hlabel]

/-! ## A run as a run of another machine -/

section Translates

variable {State' Label' : Type*} {other : Machine State' Label'} {view : State → State'}
  {sees : State → Label → List Label' → Prop}

/-- A run, step by step with the labels of another machine that each step is seen as: these
take the view of the state before the step to the view of the state after it. -/
inductive Translates (other : Machine State' Label') (view : State → State')
    (sees : State → Label → List Label' → Prop) : State → List Label → List Label' → Prop
  | nil (state : State) : Translates other view sees state [] []
  | cons {state next : State} {label : Label} {rest : List Label} {own others : List Label'}
      (hstep : machine.step state label = some next) (hsees : sees state label own)
      (hown : other.run (view state) own = some (view next))
      (hrest : Translates other view sees next rest others) :
      Translates other view sees state (label :: rest) (own ++ others)

variable {machine}

/-- What a run is seen as is a run, from the view of its first state to the view of its last. -/
theorem Translates.run {start last : State} {labels : List Label} {own : List Label'}
    (htranslates : machine.Translates other view sees start labels own)
    (hrun : machine.run start labels = some last) :
    other.run (view start) own = some (view last) := by
  induction htranslates with
  | nil =>
      obtain rfl := Option.some.inj hrun
      rfl
  | cons hstep _ hown _ ih =>
      obtain ⟨next, hnext, hrest⟩ := machine.run_cons.mp hrun
      obtain rfl := Option.some.inj (hstep.symm.trans hnext)
      exact other.run_append.mpr ⟨_, hown, ih hrest⟩

variable (machine)

/-- Where each step is seen as a run of the other machine, so is a run. -/
theorem exists_translates {start last : State} {labels : List Label}
    (hstep : ∀ state, ∀ label ∈ labels, ∀ next, machine.step state label = some next →
      ∃ own, sees state label own ∧ other.run (view state) own = some (view next))
    (hrun : machine.run start labels = some last) :
    ∃ own, machine.Translates other view sees start labels own := by
  induction labels generalizing start with
  | nil => exact ⟨[], .nil start⟩
  | cons label rest ih =>
      obtain ⟨next, hlabel, hrest⟩ := machine.run_cons.mp hrun
      obtain ⟨own, hsees, hown⟩ := hstep start label List.mem_cons_self next hlabel
      obtain ⟨others, hothers⟩ :=
        ih (fun state label hmem => hstep state label (List.mem_cons_of_mem _ hmem)) hrest
      exact ⟨own ++ others, .cons hlabel hsees hown hothers⟩

/-- Where each step is, on a view of the state, a run of another machine, so is a run. -/
theorem exists_run_of_step {start last : State} {labels : List Label}
    (hstep : ∀ state, ∀ label ∈ labels, ∀ next, machine.step state label = some next →
      ∃ own, other.run (view state) own = some (view next))
    (hrun : machine.run start labels = some last) :
    ∃ own, other.run (view start) own = some (view last) := by
  have hseen : ∀ state, ∀ label ∈ labels, ∀ next, machine.step state label = some next →
      ∃ own, True ∧ other.run (view state) own = some (view next) := by
    intro state label hmem next hlabel
    obtain ⟨own, hown⟩ := hstep state label hmem next hlabel
    exact ⟨own, trivial, hown⟩
  obtain ⟨own, htranslates⟩ := machine.exists_translates hseen hrun
  exact ⟨own, htranslates.run hrun⟩

end Translates

/-- Two machines whose steps keep a relation, or are both not enabled, do so over whole
runs. -/
theorem run_rel {State' : Type*} {other : Machine State' Label} {related : State → State' → Prop}
    (hstep : ∀ state state' label, related state state' →
      Option.Rel related (machine.step state label) (other.step state' label))
    {state : State} {state' : State'} (hstart : related state state') (labels : List Label) :
    Option.Rel related (machine.run state labels) (other.run state' labels) := by
  induction labels generalizing state state' with
  | nil => exact .some hstart
  | cons label rest ih =>
      have hlabel := hstep state state' label hstart
      unfold run
      generalize machine.step state label = next, other.step state' label = next' at hlabel ⊢
      cases hlabel with
      | none => exact .none
      | some hnext => exact ih hnext

/-! ## What a run can spend -/

/-- Where the steps of the one kind take something out of a purse and only those of the other
kind put something in, a run takes no more than was there and is put in. -/
theorem run_purse {side : State → Prop} {meets : Label → Prop} (purse : State → Nat)
    (taken paid : Label → Bool)
    (hstep : ∀ state label next, side state → meets label →
      machine.step state label = some next → side next ∧
        purse next + (if taken label then 1 else 0) ≤
          purse state + (if paid label then 1 else 0))
    {start last : State} {labels : List Label} (hstart : side start)
    (hmeets : ∀ label ∈ labels, meets label) (hrun : machine.run start labels = some last) :
    side last ∧ purse last + labels.countP taken ≤ purse start + labels.countP paid := by
  induction labels generalizing start with
  | nil =>
      obtain rfl := Option.some.inj hrun
      exact ⟨hstart, Nat.le_refl _⟩
  | cons label rest ih =>
      obtain ⟨next, hlabel, hrest⟩ := machine.run_cons.mp hrun
      obtain ⟨hnext, hpurse⟩ :=
        hstep start label next hstart (hmeets label List.mem_cons_self) hlabel
      obtain ⟨hlast, htotal⟩ :=
        ih hnext (fun other hother => hmeets other (List.mem_cons_of_mem _ hother)) hrest
      refine ⟨hlast, ?_⟩
      rw [List.countP_cons, List.countP_cons]
      omega

/-! ## Termination -/

/-- However the run goes on, a step of `own` is enabled until the state is final, and no
more than `bound` of them are taken. -/
def EndsWithin (own : Label → Bool) (final : State → Prop) (bound : Nat) (state : State) : Prop :=
  ∀ labels last, machine.run state labels = some last →
    labels.countP own ≤ bound ∧
      (¬ final last → ∃ label, own label = true ∧ (machine.step last label).isSome)

/-- A rank that no step raises, and that the steps of `own` lower, bounds their number. -/
theorem endsWithin_rank {own : Label → Bool} {final side : State → Prop} (rank : State → Nat)
    (hstep : ∀ state label next, side state → machine.step state label = some next →
      side next ∧ rank next + (if own label then 1 else 0) ≤ rank state)
    (hlive : ∀ state, side state → ¬ final state →
      ∃ label, own label = true ∧ (machine.step state label).isSome)
    {state : State} (hstart : side state) :
    machine.EndsWithin own final (rank state) state := by
  have hranked : ∀ labels state last, side state → machine.run state labels = some last →
      side last ∧ rank last + labels.countP own ≤ rank state := by
    intro labels
    induction labels with
    | nil =>
        intro state last hside hrun
        obtain rfl := Option.some.inj hrun
        exact ⟨hside, by simp⟩
    | cons label rest ih =>
        intro state last hside hrun
        obtain ⟨next, hlabel, hrest⟩ := machine.run_cons.mp hrun
        obtain ⟨hnext, hlower⟩ := hstep state label next hside hlabel
        obtain ⟨hlast, hcount⟩ := ih next last hnext hrest
        refine ⟨hlast, ?_⟩
        rw [List.countP_cons]
        omega
  intro labels last hrun
  obtain ⟨hlast, hcount⟩ := hranked labels state last hstart hrun
  exact ⟨by omega, hlive last hlast⟩

/-- The induction over whole runs behind every safety result. -/
theorem Reachable.invariant {machine : Machine State Label} {invariant : State → Prop}
    (hinit : ∀ state, machine.init state → invariant state)
    (hpreserve : ∀ state label next, invariant state →
      machine.step state label = some next → invariant next)
    {state : State} (hreach : machine.Reachable state) : invariant state := by
  obtain ⟨start, labels, hstart, hrun⟩ := hreach
  exact machine.run_invariant hpreserve (hinit start hstart) hrun

end Machine

end Kapprofiler.Foundation
