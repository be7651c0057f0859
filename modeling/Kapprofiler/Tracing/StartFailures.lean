import Mathlib.Data.Finset.Card
import Kapprofiler.Foundation.Machine
import Kapprofiler.Tracing.Events

/-! # When a start fails

`Tracer.Start` sets up the container collection and then starts one tracer after the other.
Where one of these steps fails it closes the collection and returns the error. The tracers
that it has started run on: `Stop` does nothing for a tracer that is not running, and the
next `Start` puts its own tracers in their place.
-/

namespace Kapprofiler.Tracing

open Foundation

/-- The order in which `startAppBehaviorTracing` starts the tracers. -/
def startOrder (amd64 : Bool) : List EventType :=
  [.execveEventType, .syscallEventType, .openEventType, .capabilitiesEventType, .dnsEventType,
    .networkEventType] ++ if amd64 then [.randomXEventType] else []

/-- The order in which `stopAppBehaviorTracing` stops them. -/
def stopOrder : List EventType :=
  [.execveEventType, .syscallEventType, .openEventType, .capabilitiesEventType, .dnsEventType,
    .networkEventType, .randomXEventType]

/-- A tracer that was created: its event type and a number of its own. -/
abbrev Created := EventType × Nat

/-- How far `Start` has come. `own` are the tracers that it has started. -/
inductive StartPhase
  | idle
  | collecting
  | tracing (own : List Created) (rest : List EventType)

/-- `tracingState` is the table that `Stop` goes by and `live` what really runs.
`abandoned` are the tracers that were started by a `Start` that returned an error. -/
structure Lifecycle where
  running : Bool
  collecting : Bool
  tracingState : EventType → Option Nat
  phase : StartPhase
  live : EventType → Finset Nat
  next : Nat
  abandoned : List Created

/-- What becomes of starting one tracer. Where its filter map cannot be created it has no
`NewTracer` either; `NewTracer` of the network tracer may succeed before `RunWorkaround`
fails. -/
inductive StartOutcome
  | started
  | newTracerFails
  | runWorkaroundFails
  deriving DecidableEq

inductive LifecycleLabel
  | start
  | setupContainerCollection (succeeds : Bool)
  | startTracing (outcome : StartOutcome)
  | setRunning
  | stop
  deriving DecidableEq

namespace Lifecycle

/-- The tracer as `NewTracer` returns it. -/
def initial : Lifecycle where
  running := false
  collecting := false
  tracingState _ := none
  phase := .idle
  live _ := ∅
  next := 0
  abandoned := []

/-- A tracer runs from its creation on. -/
def create (state : Lifecycle) (eventType : EventType) : Lifecycle :=
  { state with
    live := Function.update state.live eventType (insert state.next (state.live eventType))
    next := state.next + 1 }

/-- The error branch of `Start`. -/
def fail (state : Lifecycle) (own : List Created) : Lifecycle :=
  { state with collecting := false, phase := .idle, abandoned := state.abandoned ++ own }

/-- One of the functions that `startAppBehaviorTracing` calls. -/
def startTracing (state : Lifecycle) (outcome : StartOutcome) : Option Lifecycle :=
  match state.phase, outcome with
  | .tracing own (eventType :: rest), .started =>
      some { state.create eventType with
        tracingState := Function.update state.tracingState eventType (some state.next)
        phase := .tracing (own ++ [(eventType, state.next)]) rest }
  | .tracing own (_ :: _), .newTracerFails => some (state.fail own)
  | .tracing own (.networkEventType :: _), .runWorkaroundFails =>
      some ((state.create .networkEventType).fail (own ++ [(.networkEventType, state.next)]))
  | _, _ => none

/-- One of the functions that `stopAppBehaviorTracing` calls: the table keeps its entry. -/
def stopTracing (state : Lifecycle) (eventType : EventType) : Lifecycle :=
  match state.tracingState eventType with
  | some handle =>
      { state with
        live := Function.update state.live eventType ((state.live eventType).erase handle) }
  | none => state

def stopAppBehaviorTracing (state : Lifecycle) : Lifecycle := stopOrder.foldl stopTracing state

def step (amd64 : Bool) (state : Lifecycle) : LifecycleLabel → Option Lifecycle
  | .start =>
      match state.phase with
      | .idle => some (if state.running then state else { state with phase := .collecting })
      | .collecting | .tracing .. => none
  | .setupContainerCollection succeeds =>
      match state.phase with
      | .collecting =>
          some (if succeeds then
            { state with collecting := true, phase := .tracing [] (startOrder amd64) }
          else { state with phase := .idle })
      | .idle | .tracing .. => none
  | .startTracing outcome => state.startTracing outcome
  | .setRunning =>
      match state.phase with
      | .tracing _ [] => some { state with running := true, phase := .idle }
      | .idle | .collecting | .tracing _ (_ :: _) => none
  | .stop =>
      match state.phase with
      | .idle =>
          some (if state.running then
            { stopAppBehaviorTracing { state with collecting := false } with running := false }
          else state)
      | .collecting | .tracing .. => none

/-- What one step of a call can be. -/
inductive Stepped (amd64 : Bool) (state : Lifecycle) : LifecycleLabel → Lifecycle → Prop
  | startIgnored (hphase : state.phase = .idle) (hrunning : state.running = true) :
      Stepped amd64 state .start state
  | startCalled (hphase : state.phase = .idle) (hrunning : state.running = false) :
      Stepped amd64 state .start { state with phase := .collecting }
  | setUp (hphase : state.phase = .collecting) :
      Stepped amd64 state (.setupContainerCollection true)
        { state with collecting := true, phase := .tracing [] (startOrder amd64) }
  | setUpFailed (hphase : state.phase = .collecting) :
      Stepped amd64 state (.setupContainerCollection false) { state with phase := .idle }
  | started (own : List Created) (eventType : EventType) (rest : List EventType)
      (hphase : state.phase = .tracing own (eventType :: rest)) :
      Stepped amd64 state (.startTracing .started)
        { state.create eventType with
          tracingState := Function.update state.tracingState eventType (some state.next)
          phase := .tracing (own ++ [(eventType, state.next)]) rest }
  | newTracerFailed (own : List Created) (eventType : EventType) (rest : List EventType)
      (hphase : state.phase = .tracing own (eventType :: rest)) :
      Stepped amd64 state (.startTracing .newTracerFails) (state.fail own)
  | runWorkaroundFailed (own : List Created) (rest : List EventType)
      (hphase : state.phase = .tracing own (.networkEventType :: rest)) :
      Stepped amd64 state (.startTracing .runWorkaroundFails)
        ((state.create .networkEventType).fail (own ++ [(.networkEventType, state.next)]))
  | nowRunning (own : List Created) (hphase : state.phase = .tracing own []) :
      Stepped amd64 state .setRunning { state with running := true, phase := .idle }
  | stopped (hphase : state.phase = .idle) (hrunning : state.running = true) :
      Stepped amd64 state .stop
        { stopAppBehaviorTracing { state with collecting := false } with running := false }
  | stopIgnored (hphase : state.phase = .idle) (hrunning : state.running = false) :
      Stepped amd64 state .stop state

theorem step_cases {amd64 : Bool} {state next : Lifecycle} {label : LifecycleLabel}
    (hstep : state.step amd64 label = some next) : Stepped amd64 state label next := by
  cases label with
  | start =>
      rw [step] at hstep
      split at hstep
      next hphase =>
        obtain rfl := Option.some.inj hstep
        split
        next hrunning => exact .startIgnored hphase hrunning
        next hrunning => exact .startCalled hphase (Bool.eq_false_of_not_eq_true hrunning)
      next => cases hstep
      next => cases hstep
  | setupContainerCollection succeeds =>
      rw [step] at hstep
      split at hstep
      next hphase =>
        obtain rfl := Option.some.inj hstep
        cases succeeds with
        | true => exact .setUp hphase
        | false => exact .setUpFailed hphase
      next => cases hstep
      next => cases hstep
  | startTracing outcome =>
      rw [step] at hstep
      unfold startTracing at hstep
      split at hstep
      next own eventType rest hphase =>
        obtain rfl := Option.some.inj hstep
        exact .started own eventType rest hphase
      next own eventType rest hphase =>
        obtain rfl := Option.some.inj hstep
        exact .newTracerFailed own eventType rest hphase
      next own rest hphase =>
        obtain rfl := Option.some.inj hstep
        exact .runWorkaroundFailed own rest hphase
      next => cases hstep
  | setRunning =>
      rw [step] at hstep
      split at hstep
      next own hphase =>
        obtain rfl := Option.some.inj hstep
        exact .nowRunning own hphase
      next => cases hstep
      next => cases hstep
      next => cases hstep
  | stop =>
      rw [step] at hstep
      split at hstep
      next hphase =>
        obtain rfl := Option.some.inj hstep
        split
        next hrunning => exact .stopped hphase hrunning
        next hrunning => exact .stopIgnored hphase (Bool.eq_false_of_not_eq_true hrunning)
      next => cases hstep
      next => cases hstep

end Lifecycle

/-- `Start` and `Stop` are called one after the other, and each step of a `Start` may fail. -/
def lifecycleMachine (amd64 : Bool) : Machine Lifecycle LifecycleLabel where
  init state := state = .initial
  step := Lifecycle.step amd64

namespace Lifecycle

/-- What a `Start` that failed has started does not run. -/
def Undone (state : Lifecycle) : Prop :=
  ∀ created ∈ state.abandoned, created.2 ∉ state.live created.1

def OnePerType (state : Lifecycle) : Prop :=
  ∀ eventType, (state.live eventType).card ≤ 1

/-- The event type that `Start` starts the tracer of next. -/
def upNext (state : Lifecycle) : Option EventType :=
  match state.phase with
  | .tracing _ rest => rest.head?
  | .idle | .collecting => none

/-- If a tracer fails to start, it is the exec tracer, the first of them. -/
def FailsFirst (state : Lifecycle) : LifecycleLabel → Prop
  | .startTracing outcome => outcome = .started ∨
      outcome = .newTracerFails ∧ state.upNext = some .execveEventType
  | .start | .setupContainerCollection _ | .setRunning | .stop => True

instance (state : Lifecycle) : (label : LifecycleLabel) → Decidable (state.FailsFirst label)
  | .startTracing outcome => inferInstanceAs (Decidable (outcome = .started ∨
      outcome = .newTracerFails ∧ state.upNext = some .execveEventType))
  | .start | .setupContainerCollection _ | .setRunning | .stop => isTrue trivial

/-- What the `Start` under way has started. -/
def own (state : Lifecycle) : List Created :=
  match state.phase with
  | .tracing own _ => own
  | .idle | .collecting => []

/-- The tracers that `Start` has started and has still to start are those of its order. -/
def InOrder (amd64 : Bool) (state : Lifecycle) : Prop :=
  match state.phase with
  | .idle => True
  | .collecting => state.running = false
  | .tracing own rest =>
      state.running = false ∧ own.map Prod.fst ++ rest = startOrder amd64

/-- What runs belongs to a `Start` that failed, to the one under way, or to the tracer that
is running, and the table knows the last two. -/
structure Sound (amd64 : Bool) (state : Lifecycle) : Prop where
  inOrder : state.InOrder amd64
  own_live : ∀ created ∈ state.own,
    state.tracingState created.1 = some created.2 ∧ created.2 ∈ state.live created.1
  stops : ∀ eventType handle, state.tracingState eventType = some handle → eventType ∈ stopOrder
  fresh : ∀ created ∈ state.abandoned ++ state.own, created.2 < state.next
  live_known : ∀ eventType, ∀ handle ∈ state.live eventType,
    (eventType, handle) ∈ state.abandoned ∨ (eventType, handle) ∈ state.own ∨
      state.running = true ∧ state.tracingState eventType = some handle

/-- No tracer runs that a failed `Start` left, and none beside another of its type. -/
def Clean (state : Lifecycle) : Prop := state.Undone ∧ state.OnePerType

/-! ## Stopping -/

/-- What still runs of an event type after its tracer in the table was stopped. -/
def remaining (state : Lifecycle) (eventType : EventType) : Finset Nat :=
  match state.tracingState eventType with
  | some handle => (state.live eventType).erase handle
  | none => state.live eventType

section Stopping

variable {state : Lifecycle} {eventType : EventType}

theorem stopTracing_eq (state : Lifecycle) (eventType : EventType) :
    state.stopTracing eventType = { state with
      live := Function.update state.live eventType (state.remaining eventType) } := by
  rw [stopTracing, remaining]
  split
  · rfl
  · rw [Function.update_eq_self]

theorem foldl_stopTracing (types : List EventType) (state : Lifecycle) :
    types.foldl stopTracing state = { state with
      live := fun eventType =>
        if eventType ∈ types then state.remaining eventType else state.live eventType } := by
  induction types generalizing state with
  | nil => simp
  | cons head rest ih =>
      rw [List.foldl_cons, ih, stopTracing_eq]
      congr 1
      funext eventType
      by_cases heq : eventType = head
      · subst heq
        simp only [remaining, Function.update_self, List.mem_cons, true_or, if_true]
        split
        · split
          · rw [Finset.erase_idem]
          · rfl
        · rfl
      · simp [remaining, heq]

theorem remaining_subset (state : Lifecycle) (eventType : EventType) :
    state.remaining eventType ⊆ state.live eventType := by
  rw [remaining]
  split
  · exact Finset.erase_subset _ _
  · exact Finset.Subset.refl _

theorem stop_live_subset (state : Lifecycle) (eventType : EventType) :
    state.stopAppBehaviorTracing.live eventType ⊆ state.live eventType := by
  rw [stopAppBehaviorTracing, foldl_stopTracing]
  dsimp only
  split
  · exact remaining_subset state eventType
  · exact Finset.Subset.refl _

/-- Nothing that the table knows runs after a stop. -/
theorem notMem_stop_live {handle : Nat} (hmem : eventType ∈ stopOrder)
    (hstate : state.tracingState eventType = some handle) :
    handle ∉ state.stopAppBehaviorTracing.live eventType := by
  rw [stopAppBehaviorTracing, foldl_stopTracing]
  simp only [if_pos hmem, remaining, hstate]
  exact Finset.notMem_erase _ _

end Stopping

/-! ## Steps -/

section Steps

variable {amd64 : Bool} {state next : Lifecycle} {label : LifecycleLabel}

theorem Clean.of_subset (hclean : state.Clean) (habandoned : next.abandoned = state.abandoned)
    (hlive : ∀ eventType, next.live eventType ⊆ state.live eventType) : next.Clean := by
  refine ⟨?_, ?_⟩
  · intro created hmem hrunning
    rw [habandoned] at hmem
    exact hclean.1 created hmem (hlive _ hrunning)
  · intro eventType
    exact (Finset.card_le_card (hlive eventType)).trans (hclean.2 eventType)

theorem mem_stopOrder_of_startOrder {eventType : EventType}
    (hmem : eventType ∈ startOrder amd64) : eventType ∈ stopOrder := by
  revert hmem
  cases amd64 <;> cases eventType <;> decide

theorem startOrder_nodup (amd64 : Bool) : (startOrder amd64).Nodup := by
  cases amd64 <;> decide

theorem sound_initial (amd64 : Bool) : initial.Sound amd64 where
  inOrder := trivial
  own_live _ hmem := nomatch hmem
  stops _ _ hstate := nomatch hstate
  fresh _ hmem := nomatch hmem
  live_known _ _ hmem := nomatch hmem

/-- What runs while a `Start` is under way is left from earlier ones or its own. -/
theorem Sound.live_known_tracing {own : List Created} {rest : List EventType}
    (hsound : state.Sound amd64) (hphase : state.phase = .tracing own rest)
    {eventType : EventType} {handle : Nat} (hlive : handle ∈ state.live eventType) :
    (eventType, handle) ∈ state.abandoned ++ own := by
  have hinOrder := hsound.inOrder
  rw [InOrder, hphase] at hinOrder
  rcases hsound.live_known eventType handle hlive with habandoned | hmine | hrunning
  · exact List.mem_append_left _ habandoned
  · rw [Lifecycle.own, hphase] at hmine
    exact List.mem_append_right _ hmine
  · exact absurd hrunning.1 (by rw [hinOrder.1]; exact Bool.false_ne_true)

theorem Sound.fresh_tracing {own : List Created} {rest : List EventType}
    (hsound : state.Sound amd64) (hphase : state.phase = .tracing own rest)
    {created : Created} (hmem : created ∈ state.abandoned ++ own) : created.2 < state.next := by
  apply hsound.fresh created
  rwa [Lifecycle.own, hphase]

/-- The next tracer is not of the type of one that `Start` has started. -/
theorem Sound.ne_upNext {own : List Created} {eventType : EventType} {rest : List EventType}
    (hsound : state.Sound amd64) (hphase : state.phase = .tracing own (eventType :: rest))
    {created : Created} (hmem : created ∈ own) : created.1 ≠ eventType := by
  have hinOrder := hsound.inOrder
  rw [InOrder, hphase] at hinOrder
  have hnodup := startOrder_nodup amd64
  rw [← hinOrder.2] at hnodup
  intro heq
  -- the type would stand in the order twice, before this tracer and as its own
  exact (List.disjoint_of_nodup_append hnodup) (List.mem_map_of_mem hmem)
    (heq ▸ List.mem_cons_self)

theorem mem_create_live {eventType other : EventType} {handle : Nat} :
    handle ∈ (state.create eventType).live other ↔
      (other, handle) = (eventType, state.next) ∨ handle ∈ state.live other := by
  dsimp only [create]
  by_cases heq : other = eventType
  · subst heq
    rw [Function.update_self, Finset.mem_insert, Prod.mk.injEq, and_iff_right rfl]
  · rw [Function.update_of_ne heq, Prod.mk.injEq, or_iff_right fun h => heq h.1]

/-- A tracer that was started is in the table, and belongs to the `Start` under way. -/
theorem Sound.started {own : List Created} {eventType : EventType} {rest : List EventType}
    (hsound : state.Sound amd64) (hphase : state.phase = .tracing own (eventType :: rest)) :
    Sound amd64 { state.create eventType with
      tracingState := Function.update state.tracingState eventType (some state.next)
      phase := .tracing (own ++ [(eventType, state.next)]) rest } := by
  have horder := hsound.inOrder
  rw [InOrder, hphase] at horder
  constructor
  case inOrder =>
    refine ⟨horder.1, ?_⟩
    rw [List.map_append, List.append_assoc]
    exact horder.2
  case own_live =>
    intro created hmem
    rcases List.mem_append.mp hmem with hbefore | hlast
    · have hmine : created ∈ state.own := by rwa [Lifecycle.own, hphase]
      obtain ⟨hstate, hlive⟩ := hsound.own_live created hmine
      refine ⟨?_, mem_create_live.mpr (Or.inr hlive)⟩
      dsimp only
      rw [Function.update_of_ne (hsound.ne_upNext hphase hbefore)]
      exact hstate
    -- The tracer just created is live and in the table.
    · obtain rfl := List.mem_singleton.mp hlast
      exact ⟨Function.update_self .., mem_create_live.mpr (Or.inl rfl)⟩
  case stops =>
    intro other handle hstate
    dsimp only at hstate
    by_cases heq : other = eventType
    · have hmem : other ∈ startOrder amd64 := by
        rw [← horder.2, heq]
        exact List.mem_append_right _ List.mem_cons_self
      exact mem_stopOrder_of_startOrder hmem
    · rw [Function.update_of_ne heq] at hstate
      exact hsound.stops other handle hstate
  case fresh =>
    intro created hmem
    rw [Lifecycle.own, ← List.append_assoc, List.mem_append] at hmem
    rcases hmem with hbefore | hlast
    · exact Nat.lt_succ_of_lt (hsound.fresh_tracing hphase hbefore)
    · rw [List.mem_singleton.mp hlast]
      exact Nat.lt_succ_self _
  case live_known =>
    intro other handle hlive
    rcases mem_create_live.mp hlive with heq | hbefore
    · exact Or.inr (Or.inl (List.mem_append_right _ (List.mem_singleton.mpr heq)))
    · rcases List.mem_append.mp (hsound.live_known_tracing hphase hbefore) with hleft | hmine
      · exact Or.inl hleft
      · exact Or.inr (Or.inl (List.mem_append_left _ hmine))

theorem sound_fail {own : List Created}
    (hstops : ∀ eventType handle, state.tracingState eventType = some handle →
      eventType ∈ stopOrder)
    (hfresh : ∀ created ∈ state.abandoned ++ own, created.2 < state.next)
    (hknown : ∀ eventType, ∀ handle ∈ state.live eventType,
      (eventType, handle) ∈ state.abandoned ++ own) :
    (state.fail own).Sound amd64 where
  inOrder := trivial
  own_live _ hmem := nomatch hmem
  stops := hstops
  fresh created hmem := by
    rw [Lifecycle.own, fail, List.append_nil] at hmem
    exact hfresh created hmem
  live_known eventType handle hlive := Or.inl (hknown eventType handle hlive)

theorem Sound.newTracerFails {own : List Created} {rest : List EventType}
    (hsound : state.Sound amd64) (hphase : state.phase = .tracing own rest) :
    (state.fail own).Sound amd64 :=
  sound_fail hsound.stops (fun _ hmem => hsound.fresh_tracing hphase hmem)
    (fun _ _ hlive => hsound.live_known_tracing hphase hlive)

theorem Sound.runWorkaroundFails {own : List Created} {rest : List EventType}
    {eventType : EventType} (hsound : state.Sound amd64)
    (hphase : state.phase = .tracing own rest) :
    ((state.create eventType).fail (own ++ [(eventType, state.next)])).Sound amd64 := by
  have hstops : ∀ other handle, (state.create eventType).tracingState other = some handle →
      other ∈ stopOrder := hsound.stops
  apply sound_fail hstops
  · intro created hmem
    rw [← List.append_assoc, List.mem_append] at hmem
    rcases hmem with hbefore | hlast
    · exact Nat.lt_succ_of_lt (hsound.fresh_tracing hphase hbefore)
    · rw [List.mem_singleton.mp hlast]
      exact Nat.lt_succ_self _
  · intro other handle hlive
    rw [← List.append_assoc, List.mem_append]
    rcases mem_create_live.mp hlive with heq | hbefore
    · exact Or.inr (List.mem_singleton.mpr heq)
    · exact Or.inl (hsound.live_known_tracing hphase hbefore)

/-- Once all have started, what the `Start` has started is what the table has. -/
theorem Sound.setRunning {own : List Created} (hsound : state.Sound amd64)
    (hphase : state.phase = .tracing own []) :
    Sound amd64 { state with running := true, phase := .idle } where
  inOrder := trivial
  own_live _ hmem := nomatch hmem
  stops := hsound.stops
  fresh created hmem := by
    rw [Lifecycle.own, List.append_nil] at hmem
    exact hsound.fresh created (List.mem_append_left _ hmem)
  live_known eventType handle hlive := by
    rcases List.mem_append.mp (hsound.live_known_tracing hphase hlive) with hleft | hmine
    · exact Or.inl hleft
    · have hown : (eventType, handle) ∈ state.own := by rwa [Lifecycle.own, hphase]
      exact Or.inr (Or.inr ⟨rfl, (hsound.own_live _ hown).1⟩)

/-- After `Stop` only what failed starts have left runs on. -/
theorem Sound.stop (hsound : state.Sound amd64) (hphase : state.phase = .idle) :
    Sound amd64 { stopAppBehaviorTracing { state with collecting := false } with
      running := false } := by
  have hidle : Lifecycle.own state = [] := by rw [Lifecycle.own, hphase]
  have hknown : ∀ eventType, ∀ handle ∈
      (stopAppBehaviorTracing { state with collecting := false }).live eventType,
      (eventType, handle) ∈ state.abandoned := by
    intro eventType handle hlive
    have hbefore : handle ∈ state.live eventType :=
      stop_live_subset { state with collecting := false } eventType hlive
    rcases hsound.live_known eventType handle hbefore with hleft | hmine | ⟨-, hstate⟩
    · exact hleft
    · rw [hidle] at hmine
      exact nomatch hmine
    -- what the table has is stopped
    · exact absurd hlive (notMem_stop_live (hsound.stops eventType handle hstate) hstate)
  rw [stopAppBehaviorTracing, foldl_stopTracing] at hknown ⊢
  constructor
  case inOrder =>
    rw [InOrder, hphase]
    trivial
  case own_live =>
    intro created hmem
    rw [Lifecycle.own, hphase] at hmem
    exact nomatch hmem
  case stops => exact hsound.stops
  case fresh =>
    intro created hmem
    apply hsound.fresh created
    rwa [Lifecycle.own, hphase] at hmem ⊢
  case live_known =>
    intro eventType handle hlive
    exact Or.inl (hknown eventType handle hlive)

/-- Where neither the phase before nor the one after has started a tracer. -/
theorem Sound.moved {collecting : Bool} {phase : StartPhase} (hsound : state.Sound amd64)
    (hbefore : state.own = []) (hafter : Lifecycle.own { state with phase := phase } = [])
    (hinOrder : InOrder amd64 { state with phase := phase }) :
    Sound amd64 { state with collecting := collecting, phase := phase } where
  inOrder := hinOrder
  own_live created hmem := by
    have hnone : created ∈ Lifecycle.own { state with phase := phase } := hmem
    rw [hafter] at hnone
    exact nomatch hnone
  stops := hsound.stops
  fresh created hmem := by
    have hsame : created ∈ state.abandoned ++ Lifecycle.own { state with phase := phase } := hmem
    rw [hafter, List.append_nil] at hsame
    exact hsound.fresh created (List.mem_append_left _ hsame)
  live_known eventType handle hlive := by
    rcases hsound.live_known eventType handle hlive with hleft | hmine | hrunning
    · exact Or.inl hleft
    · rw [hbefore] at hmine
      exact nomatch hmine
    · exact Or.inr (Or.inr hrunning)

theorem Sound.step (hsound : state.Sound amd64) (hstep : state.step amd64 label = some next) :
    next.Sound amd64 := by
  have hinOrder := hsound.inOrder
  unfold InOrder at hinOrder
  cases step_cases hstep with
  | startIgnored => exact hsound
  | startCalled hphase hrunning =>
      refine hsound.moved ?_ rfl hrunning
      rw [Lifecycle.own, hphase]
  | setUp hphase =>
      rw [hphase] at hinOrder
      refine hsound.moved ?_ rfl ⟨hinOrder, rfl⟩
      rw [Lifecycle.own, hphase]
  | setUpFailed hphase =>
      refine hsound.moved ?_ rfl trivial
      rw [Lifecycle.own, hphase]
  | started own eventType rest hphase => exact hsound.started hphase
  | newTracerFailed own eventType rest hphase => exact hsound.newTracerFails hphase
  | runWorkaroundFailed own rest hphase => exact hsound.runWorkaroundFails hphase
  | nowRunning own hphase => exact hsound.setRunning hphase
  | stopped hphase => exact hsound.stop hphase
  | stopIgnored => exact hsound

theorem Clean.started {own : List Created} {eventType : EventType} {rest : List EventType}
    (hclean : state.Clean) (hsound : state.Sound amd64)
    (hphase : state.phase = .tracing own (eventType :: rest)) :
    (state.create eventType).Clean := by
  have hundone := hclean.1
  refine ⟨?_, ?_⟩
  · intro created hmem hlive
    rcases mem_create_live.mp hlive with heq | hbefore
    · have hfresh := hsound.fresh created (List.mem_append_left _ hmem)
      rw [(Prod.mk.inj heq).2] at hfresh
      exact absurd hfresh (lt_irrefl _)
    · exact hundone created hmem hbefore
  · intro other
    by_cases heq : other = eventType
    · subst heq
      have hempty : state.live other = ∅ := by
        apply Finset.eq_empty_of_forall_notMem
        intro handle hlive
        rcases List.mem_append.mp (hsound.live_known_tracing hphase hlive) with hleft | hmine
        · exact hundone _ hleft hlive
        · exact hsound.ne_upNext hphase hmine rfl
      dsimp only [create]
      rw [Function.update_self, hempty, Finset.card_insert_of_notMem
        (Finset.notMem_empty _), Finset.card_empty]
    · dsimp only [create]
      rw [Function.update_of_ne heq]
      exact hclean.2 other

/-- The exec tracer comes first, so that a `Start` which is to start it has started none. -/
theorem Sound.own_eq_nil_iff {own : List Created} {eventType : EventType} {rest : List EventType}
    (hsound : state.Sound amd64) (hphase : state.phase = .tracing own (eventType :: rest)) :
    eventType = .execveEventType ↔ own = [] := by
  have hinOrder := hsound.inOrder
  rw [InOrder, hphase] at hinOrder
  have hfirst : (startOrder amd64).head? = some .execveEventType := rfl
  rw [← hinOrder.2] at hfirst
  cases own with
  | nil => exact iff_of_true (Option.some.inj hfirst) rfl
  | cons created others =>
      refine iff_of_false ?_ (List.cons_ne_nil _ _)
      intro heq
      exact hsound.ne_upNext hphase List.mem_cons_self ((Option.some.inj hfirst).trans heq.symm)

/-- A `Start` that fails leaves nothing behind exactly if it has started nothing. -/
theorem Clean.fail_iff {own : List Created} {rest : List EventType} (hclean : state.Clean)
    (hsound : state.Sound amd64) (hphase : state.phase = .tracing own rest) :
    own = [] ↔ (state.fail own).Clean := by
  constructor
  · intro hnone
    subst hnone
    exact hclean.of_subset (List.append_nil _) fun _ => Finset.Subset.refl _
  · intro hafter
    cases own with
    | nil => rfl
    | cons created others =>
        have hmine : created ∈ state.own := by
          rw [Lifecycle.own, hphase]
          exact List.mem_cons_self
        exact absurd (hsound.own_live created hmine).2
          (hafter.1 created (List.mem_append_right _ List.mem_cons_self))

/-- A step leaves the tracers clean unless a tracer other than exec's fails to start. -/
theorem Sound.failsFirst_iff (hsound : state.Sound amd64) (hclean : state.Clean)
    (hstep : state.step amd64 label = some next) : state.FailsFirst label ↔ next.Clean := by
  cases step_cases hstep with
  | startIgnored => exact iff_of_true trivial hclean
  | startCalled => exact iff_of_true trivial hclean
  | setUp => exact iff_of_true trivial hclean
  | setUpFailed => exact iff_of_true trivial hclean
  | started own eventType rest hphase =>
      exact iff_of_true (Or.inl rfl) (hclean.started hsound hphase)
  | newTracerFailed own eventType rest hphase =>
      rw [← hclean.fail_iff hsound hphase, ← hsound.own_eq_nil_iff hphase]
      simp [FailsFirst, upNext, hphase]
  | runWorkaroundFailed own rest hphase =>
      -- the network tracer that was created is in no table, so that nothing stops it
      refine iff_of_false (by simp [FailsFirst]) ?_
      intro hafter
      refine hafter.1 (.networkEventType, state.next) ?_ (mem_create_live.mpr (Or.inl rfl))
      exact List.mem_append_right _ (List.mem_append_right _ (List.mem_singleton.mpr rfl))
  | nowRunning => exact iff_of_true trivial hclean
  | stopped =>
      refine iff_of_true trivial (hclean.of_subset ?_
        (stop_live_subset { state with collecting := false }))
      rw [stopAppBehaviorTracing, foldl_stopTracing]
  | stopIgnored => exact iff_of_true trivial hclean

end Steps

/-! ## Runs -/

theorem clean_initial : initial.Clean :=
  ⟨fun _ hmem => (nomatch hmem), fun _ => Nat.zero_le 1⟩

/-- In every state of a run what a failed `Start` has started is stopped, and no two tracers
of a type run, if and only if every `Start` that fails does so at the container collection or
at the exec tracer. -/
theorem undone_iff (amd64 : Bool) (labels : List LifecycleLabel) (last : Lifecycle)
    (hrun : (lifecycleMachine amd64).run .initial labels = some last) :
    (∀ before state, before <+: labels →
        (lifecycleMachine amd64).run .initial before = some state →
        state.Undone ∧ state.OnePerType) ↔
      (lifecycleMachine amd64).Along FailsFirst .initial labels := by
  symm
  refine Machine.along_iff_forall_prefix (lifecycleMachine amd64) ?_ ?_ (sound_initial amd64)
    clean_initial hrun
  · intro state label next hsound hstep
    exact hsound.step hstep
  · intro state label next hsound hclean _ hstep
    exact hsound.failsFirst_iff hclean hstep

/-- The collection is not set up, and the next `Start`, which sets it up, fails at the exec
tracer. -/
def startedAgain : List LifecycleLabel :=
  [.start, .setupContainerCollection false, .start, .setupContainerCollection true,
    .startTracing .newTracerFails]

theorem startedAgain_undone : ∃ last,
    (lifecycleMachine true).run .initial startedAgain = some last ∧
      ∀ before state, before <+: startedAgain →
        (lifecycleMachine true).run .initial before = some state →
        state.Undone ∧ state.OnePerType := by
  refine ⟨_, rfl, ?_⟩
  exact (undone_iff true startedAgain _ rfl).mpr (by decide)

/-- The seccomp tracer fails to start, and the exec tracer runs on. The next `Start` puts
another one beside it. -/
theorem failed_start_leaves_tracer :
    (¬ ∀ (amd64 : Bool) (labels : List LifecycleLabel) (last : Lifecycle),
      (lifecycleMachine amd64).run .initial labels = some last → last.Undone) ∧
    ¬ ∀ (amd64 : Bool) (labels : List LifecycleLabel) (last : Lifecycle),
      (lifecycleMachine amd64).run .initial labels = some last → last.OnePerType := by
  constructor
  · intro hclaim
    have hundone := hclaim true [.start, .setupContainerCollection true, .startTracing .started,
      .startTracing .newTracerFails] _ rfl
    exact hundone (.execveEventType, 0) (by decide) (by decide)
  · intro hclaim
    have hone := hclaim true [.start, .setupContainerCollection true, .startTracing .started,
      .startTracing .newTracerFails, .start, .setupContainerCollection true,
      .startTracing .started] _ rfl
    exact absurd (hone .execveEventType) (by decide)

/-! ## What a failed start does release -/

/-- The collection is open exactly while `Start` starts the tracers, and while they run. -/
def ClosesCollection (state : Lifecycle) : Prop :=
  state.collecting = true ↔ state.running = true ∨ ∃ own rest, state.phase = .tracing own rest

theorem ClosesCollection.step {amd64 : Bool} {state next : Lifecycle} {label : LifecycleLabel}
    (hcloses : state.ClosesCollection) (hsound : state.Sound amd64)
    (hstep : state.step amd64 label = some next) : next.ClosesCollection := by
  have hinOrder := hsound.inOrder
  unfold InOrder at hinOrder
  unfold ClosesCollection at hcloses ⊢
  cases step_cases hstep with
  | startIgnored => exact hcloses
  | startCalled hphase => simpa [hphase] using hcloses
  | setUp => simp
  | setUpFailed hphase => simpa [hphase] using hcloses
  | started own eventType rest hphase => simpa [create, hphase] using hcloses
  | newTracerFailed own eventType rest hphase =>
      rw [hphase] at hinOrder
      simp [fail, hinOrder.1]
  | runWorkaroundFailed own rest hphase =>
      rw [hphase] at hinOrder
      simp [fail, create, hinOrder.1]
  | nowRunning own hphase => simpa [hphase] using hcloses
  | stopped hphase => simp [stopAppBehaviorTracing, foldl_stopTracing, hphase]
  | stopIgnored => exact hcloses

/-- A failed `Start` does close the collection. -/
theorem closesCollection_of_run {amd64 : Bool} {labels : List LifecycleLabel} {last : Lifecycle}
    (hrun : (lifecycleMachine amd64).run .initial labels = some last) :
    last.ClosesCollection := by
  have hboth : last.Sound amd64 ∧ last.ClosesCollection := by
    refine (lifecycleMachine amd64).run_history_invariant
      (fun _ state => state.Sound amd64 ∧ state.ClosesCollection) ?_ ?_ hrun
    · exact ⟨sound_initial amd64, by simp [ClosesCollection, initial]⟩
    · intro labels state label next _ hstate hstep
      exact ⟨hstate.1.step hstep, hstate.2.step hstate.1 hstep⟩
  exact hboth.2

end Lifecycle

end Kapprofiler.Tracing
