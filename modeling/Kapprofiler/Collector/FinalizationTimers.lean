import Kapprofiler.Collector.Steps

/-! # The timers of the finalizer

A timer finalizes the profile of the pod it was started for, unless it is stopped
before it expires. Only the timers that the table points to can be stopped: those
that `handlePodAddEvent` and `MarkPodRecording` start are not stored there. Once a
timer has expired, nothing calls off the patch that its goroutine is about to make.
-/

namespace Kapprofiler.Collector

open Foundation

/-- What happens to a finalizer. `MarkPodRecording` looks the pod up before it takes
the lock, so that anything may happen between its two parts. A timer expires when its
goroutine receives from it; the patch comes later. -/
inductive FinalizerCall
  | handlePodAddEvent (pod : Pod)
  | handlePodUpdateEvent (pod : Pod)
  | handlePodDeleteEvent (pod : Pod)
  | markAttachedPod (pod : Pod)
  | setRecording (name nameSpace : String)
  | markPodNotRecording (name nameSpace : String)
  | timerExpired (timer : Nat)

/-- The first part of `MarkPodRecording` for an attached container, with the pod found. -/
def Finalizer.markAttachedPod (config : CollectorManagerConfig) (finalizer : Finalizer)
    (pod : Pod) : Option Finalizer :=
  if pod.ready then (finalizer.startFinalizationTimer config pod).map (·.2) else some finalizer

def FinalizerCall.on (config : CollectorManagerConfig) (finalizer : Finalizer) :
    FinalizerCall → Option Finalizer
  | .handlePodAddEvent pod => finalizer.handlePodAddEvent config pod
  | .handlePodUpdateEvent pod => finalizer.handlePodUpdateEvent config pod
  | .handlePodDeleteEvent pod => some (finalizer.stopTimer pod.name pod.nameSpace)
  | .markAttachedPod pod => finalizer.markAttachedPod config pod
  | .setRecording name nameSpace => some (finalizer.setRecording name nameSpace)
  | .markPodNotRecording name nameSpace => some (finalizer.markPodNotRecording name nameSpace)
  | .timerExpired timer => (finalizer.timers timer).map fun _ => finalizer.expire timer

/-- The machine of the finalizer of a manager with the given configuration. -/
def finalizerMachine (config : CollectorManagerConfig) : Machine Finalizer FinalizerCall where
  init finalizer := finalizer = .empty
  step finalizer call := call.on config finalizer

/-- The finalizer, and the pods of the goroutines that have received from their timer and have
not patched the profile yet. -/
structure Finalization where
  finalizer : Finalizer
  patching : Nat → Option Pod

/-- A call of the finalizer, or the patch after a timer has expired. -/
inductive FinalizationStep
  | call (call : FinalizerCall)
  | finalizePodProfile (timer : Nat)

namespace Finalization

def empty : Finalization := ⟨.empty, fun _ => none⟩

/-- The goroutines that are about to patch, after a call: the one whose timer expires is, too. -/
def patchingAfter (finalization : Finalization) : FinalizerCall → Nat → Option Pod
  | .timerExpired timer =>
      Function.update finalization.patching timer (finalization.finalizer.timers timer)
  | _ => finalization.patching

def step (config : CollectorManagerConfig) (finalization : Finalization) :
    FinalizationStep → Option Finalization
  | .call call => (call.on config finalization.finalizer).map fun next =>
      ⟨next, finalization.patchingAfter call⟩
  | .finalizePodProfile timer => (finalization.patching timer).map fun _ =>
      { finalization with patching := Function.update finalization.patching timer none }

/-- The timer is armed, or it has expired and its goroutine is about to patch. -/
def Pending (finalization : Finalization) (timer : Nat) (pod : Pod) : Prop :=
  finalization.finalizer.timers timer = some pod ∨ finalization.patching timer = some pod

end Finalization

/-- The machine of the finalizer and its goroutines. -/
def finalizationMachine (config : CollectorManagerConfig) :
    Machine Finalization FinalizationStep where
  init finalization := finalization = .empty
  step finalization step := finalization.step config step

/-- The call reports that the pod of this name is not ready, or gone. -/
def FinalizerCall.Disturbs (name nameSpace : String) : FinalizerCall → Prop
  | .handlePodUpdateEvent pod =>
      (pod.name = name ∧ pod.nameSpace = nameSpace) ∧ pod.ready = false
  | .handlePodDeleteEvent pod => pod.name = name ∧ pod.nameSpace = nameSpace
  | _ => False

def FinalizationStep.Disturbs (name nameSpace : String) : FinalizationStep → Prop
  | .call made => made.Disturbs name nameSpace
  | .finalizePodProfile _ => False

/-- No step after the one that started the timer disturbed the pod. -/
def StayedReady (config : CollectorManagerConfig) (steps : List FinalizationStep) (timer : Nat)
    (pod : Pod) : Prop :=
  ∀ before step after finalization, steps = before ++ step :: after →
    (finalizationMachine config).run .empty before = some finalization →
    timer < finalization.finalizer.nextTimer → ¬ step.Disturbs pod.name pod.nameSpace

/-- Whichever goroutine patches next, at once or when its timer has expired, the pod stayed ready
since the timer was started. -/
def PatchesOnlyReady (config : CollectorManagerConfig) (steps : List FinalizationStep)
    (finalization : Finalization) : Prop :=
  ∀ timer pod, finalization.Pending timer pod → StayedReady config steps timer pod

/-- The call stops every timer of a pod that it disturbs: the table points to each of
them, and an update finds the pod recorded. -/
def FinalizerCall.StopsTimers (finalizer : Finalizer) : FinalizerCall → Prop
  | .handlePodUpdateEvent pod => pod.ready = false → ∀ timer armed,
      finalizer.timers timer = some armed →
      armed.name = pod.name ∧ armed.nameSpace = pod.nameSpace →
      ∃ state, finalizer.podFinalizerState.lookup (generateTableKey pod.name pod.nameSpace) =
        some state ∧ state.recording = true ∧ state.finalizationTimer = some timer
  | .handlePodDeleteEvent pod => ∀ timer armed, finalizer.timers timer = some armed →
      armed.name = pod.name ∧ armed.nameSpace = pod.nameSpace →
      ∃ state, finalizer.podFinalizerState.lookup (generateTableKey pod.name pod.nameSpace) =
        some state ∧ state.finalizationTimer = some timer
  | _ => True

/-- The call stops every timer of a pod that it disturbs, and none of them has expired without
its patch. -/
def FinalizationStep.StopsTimers (finalization : Finalization) : FinalizationStep → Prop
  | .call made => made.StopsTimers finalization.finalizer ∧
      ∀ timer pod, finalization.patching timer = some pod → ¬ made.Disturbs pod.name pod.nameSpace
  | .finalizePodProfile _ => True

variable {config : CollectorManagerConfig} {finalizer next : Finalizer}

/-! ## One call -/

namespace Finalizer

/-- A stop disarms the timer that the table points to. -/
theorem stopTimer_timers {name nameSpace : String} {timer : Nat} {pod : Pod} :
    (finalizer.stopTimer name nameSpace).timers timer = some pod ↔
      finalizer.timers timer = some pod ∧
        ∀ state, finalizer.podFinalizerState.lookup (generateTableKey name nameSpace) =
          some state → state.finalizationTimer ≠ some timer := by
  unfold stopTimer
  split
  next hmissing => simp [hmissing]
  next state hstate =>
    cases htimer : state.finalizationTimer with
    | none => simp [hstate, htimer]
    | some stored =>
        simp only [hstate, Option.some.injEq, forall_eq', htimer, Function.update_apply]
        by_cases heq : timer = stored
        · simp [heq]
        · simp [heq, Ne.symm heq]

theorem stopTimer_nextTimer (name nameSpace : String) :
    (finalizer.stopTimer name nameSpace).nextTimer = finalizer.nextTimer := by
  unfold stopTimer
  split
  · rfl
  · split <;> rfl

theorem setRecording_timers (name nameSpace : String) :
    (finalizer.setRecording name nameSpace).timers = finalizer.timers ∧
      (finalizer.setRecording name nameSpace).nextTimer = finalizer.nextTimer := by
  unfold setRecording
  split <;> exact ⟨rfl, rfl⟩

theorem markPodNotRecording_timers (name nameSpace : String) :
    (finalizer.markPodNotRecording name nameSpace).timers = finalizer.timers ∧
      (finalizer.markPodNotRecording name nameSpace).nextTimer = finalizer.nextTimer := by
  unfold markPodNotRecording
  split <;> exact ⟨rfl, rfl⟩

/-- An update to not ready stops the stored timer of a recorded pod. -/
theorem handlePodUpdateEvent_timers {pod : Pod} (hready : pod.ready = false)
    (hupdate : finalizer.handlePodUpdateEvent config pod = some next) {timer : Nat}
    {armed : Pod} :
    next.timers timer = some armed ↔ finalizer.timers timer = some armed ∧
      ∀ state, finalizer.podFinalizerState.lookup (generateTableKey pod.name pod.nameSpace) =
        some state → state.recording = true → state.finalizationTimer ≠ some timer := by
  cases handlePodUpdateEvent_cases hupdate with
  | notRecording hrecording =>
      refine (and_iff_left ?_).symm
      intro state hstate hrecorded
      rw [hrecording state hstate] at hrecorded
      cases hrecorded
  | timerRunning hready' | started hready' =>
      rw [hready] at hready'
      cases hready'
  | stopped hstate hrecording =>
      rw [stopTimer_timers]
      simp [hstate, hrecording]

/-- A timer that fires leaves the others armed. -/
theorem armed_of_expire {expired timer : Nat} {armed : Pod}
    (harmed : (finalizer.expire expired).timers timer = some armed) :
    finalizer.timers timer = some armed := by
  simp only [expire, Function.update_apply] at harmed
  split at harmed
  · cases harmed
  · exact harmed

/-- The call arms no timer, or the next one in a call that disturbs no pod. -/
inductive TimersChange (finalizer next : Finalizer) (call : FinalizerCall) : Prop
  | kept (htimers : ∀ timer pod, next.timers timer = some pod → finalizer.timers timer = some pod)
      (hnext : next.nextTimer = finalizer.nextTimer)
  | started (pod : Pod)
      (htimers : next.timers = Function.update finalizer.timers finalizer.nextTimer (some pod))
      (hnext : next.nextTimer = finalizer.nextTimer + 1)
      (hquiet : ∀ name nameSpace, ¬ call.Disturbs name nameSpace)

theorem TimersChange.of_eq {call : FinalizerCall} (htimers : next.timers = finalizer.timers)
    (hnext : next.nextTimer = finalizer.nextTimer) : TimersChange finalizer next call :=
  .kept (fun _ _ harmed => by rwa [htimers] at harmed) hnext

theorem TimersChange.of_stop {call : FinalizerCall} (name nameSpace : String) :
    TimersChange finalizer (finalizer.stopTimer name nameSpace) call :=
  .kept (fun _ _ harmed => (stopTimer_timers.mp harmed).1)
    (stopTimer_nextTimer name nameSpace)

end Finalizer

open Finalizer in
theorem FinalizerCall.on_timers {call : FinalizerCall}
    (hcall : call.on config finalizer = some next) : TimersChange finalizer next call := by
  cases call with
  | handlePodAddEvent pod =>
      simp only [FinalizerCall.on, Finalizer.handlePodAddEvent] at hcall
      split at hcall
      · cases hcall
        exact .of_eq rfl rfl
      · split at hcall
        · obtain ⟨started, hstarted, rfl⟩ := Option.map_eq_some_iff.mp hcall
          rw [startFinalizationTimer_eq hstarted]
          exact .started pod rfl rfl fun _ _ h => h
        · cases hcall
          exact .of_eq rfl rfl
  | handlePodUpdateEvent pod =>
      cases handlePodUpdateEvent_cases hcall with
      | notRecording | timerRunning => exact .of_eq rfl rfl
      | started hready hstate hstart =>
          rw [startFinalizationTimer_eq hstart]
          refine .started pod rfl rfl ?_
          intro name nameSpace ⟨_, hnotReady⟩
          rw [hready] at hnotReady
          cases hnotReady
      | stopped => exact .of_stop pod.name pod.nameSpace
  | handlePodDeleteEvent pod =>
      cases hcall
      exact .of_stop pod.name pod.nameSpace
  | markAttachedPod pod =>
      simp only [FinalizerCall.on, Finalizer.markAttachedPod] at hcall
      split at hcall
      · obtain ⟨started, hstarted, rfl⟩ := Option.map_eq_some_iff.mp hcall
        rw [startFinalizationTimer_eq hstarted]
        exact .started pod rfl rfl fun _ _ h => h
      · cases hcall
        exact .of_eq rfl rfl
  | setRecording name nameSpace =>
      cases hcall
      exact .of_eq (setRecording_timers name nameSpace).1 (setRecording_timers name nameSpace).2
  | markPodNotRecording name nameSpace =>
      cases hcall
      exact .of_eq (markPodNotRecording_timers name nameSpace).1
        (markPodNotRecording_timers name nameSpace).2
  | timerExpired timer =>
      obtain ⟨pod, _, rfl⟩ := Option.map_eq_some_iff.mp hcall
      exact .kept (fun _ _ harmed => armed_of_expire harmed) rfl

open Finalizer in
/-- After the call no armed timer is one of a pod that it disturbed, exactly if the call
stops all of them. -/
theorem FinalizerCall.stopsTimers_iff {call : FinalizerCall}
    (hcall : call.on config finalizer = some next) :
    call.StopsTimers finalizer ↔ ∀ timer pod, next.timers timer = some pod →
      ¬ call.Disturbs pod.name pod.nameSpace := by
  cases call with
  | handlePodUpdateEvent pod =>
      constructor
      · rintro hstops timer armed harmed ⟨⟨hname, hnameSpace⟩, hready⟩
        obtain ⟨harmed, hnot⟩ := (handlePodUpdateEvent_timers hready hcall).mp harmed
        obtain ⟨state, hstate, hrecording, htimer⟩ :=
          hstops hready timer armed harmed ⟨hname.symm, hnameSpace.symm⟩
        exact hnot state hstate hrecording htimer
      · rintro hquiet hready timer armed harmed ⟨hname, hnameSpace⟩
        by_contra hmissing
        refine hquiet timer armed ((handlePodUpdateEvent_timers hready hcall).mpr ⟨harmed, ?_⟩)
          ⟨⟨hname.symm, hnameSpace.symm⟩, hready⟩
        intro state hstate hrecording htimer
        exact hmissing ⟨state, hstate, hrecording, htimer⟩
  | handlePodDeleteEvent pod =>
      cases hcall
      constructor
      · rintro hstops timer armed harmed ⟨hname, hnameSpace⟩
        obtain ⟨harmed, hnot⟩ := stopTimer_timers.mp harmed
        obtain ⟨state, hstate, htimer⟩ := hstops timer armed harmed ⟨hname.symm, hnameSpace.symm⟩
        exact hnot state hstate htimer
      · rintro hquiet timer armed harmed ⟨hname, hnameSpace⟩
        by_contra hmissing
        refine hquiet timer armed (stopTimer_timers.mpr ⟨harmed, ?_⟩)
          ⟨hname.symm, hnameSpace.symm⟩
        intro state hstate htimer
        exact hmissing ⟨state, hstate, htimer⟩
  | _ => exact iff_of_true trivial fun _ _ _ h => h

/-- A call that panics reports a pod that is ready, and no deletion. -/
theorem FinalizerCall.not_disturbs_of_panic {call : FinalizerCall}
    (hpanic : call.on config finalizer = none) (name nameSpace : String) :
    ¬ call.Disturbs name nameSpace := by
  cases call with
  | handlePodUpdateEvent pod =>
      rintro ⟨_, hready⟩
      simp only [FinalizerCall.on, Finalizer.handlePodUpdateEvent, hready] at hpanic
      split at hpanic
      · cases hpanic
      · split at hpanic <;> cases hpanic
  | handlePodDeleteEvent pod => cases hpanic
  | _ => exact id

theorem FinalizerCall.stopsTimers_of_panic {call : FinalizerCall}
    (hpanic : call.on config finalizer = none) : call.StopsTimers finalizer := by
  cases call with
  | handlePodUpdateEvent pod =>
      intro hready
      exact absurd ⟨⟨rfl, rfl⟩, hready⟩ (not_disturbs_of_panic hpanic pod.name pod.nameSpace)
  | handlePodDeleteEvent pod => cases hpanic
  | _ => trivial

/-! ## One step of the finalizer and its goroutines -/

section Finalization

variable {finalization after : Finalization} {step : FinalizationStep}

theorem Finalization.step_call {call : FinalizerCall}
    (hstep : finalization.step config (.call call) = some after) :
    call.on config finalization.finalizer = some after.finalizer ∧
      after.patching = finalization.patchingAfter call := by
  obtain ⟨next, hcall, rfl⟩ := Option.map_eq_some_iff.mp hstep
  exact ⟨hcall, rfl⟩

theorem Finalization.step_patch {timer : Nat}
    (hstep : finalization.step config (.finalizePodProfile timer) = some after) :
    after.finalizer = finalization.finalizer ∧
      after.patching = Function.update finalization.patching timer none := by
  obtain ⟨pod, _, rfl⟩ := Option.map_eq_some_iff.mp hstep
  exact ⟨rfl, rfl⟩

theorem Finalization.step_expire {timer : Nat} {pod : Pod}
    (harmed : finalization.finalizer.timers timer = some pod) :
    finalization.step config (.call (.timerExpired timer)) =
      some ⟨finalization.finalizer.expire timer,
        finalization.patchingAfter (.timerExpired timer)⟩ := by
  simp only [Finalization.step, FinalizerCall.on, harmed, Option.map_some]

theorem Finalization.step_finalize {timer : Nat} {pod : Pod}
    (hpatching : finalization.patching timer = some pod) :
    finalization.step config (.finalizePodProfile timer) =
      some { finalization with patching := Function.update finalization.patching timer none } := by
  simp only [Finalization.step, hpatching, Option.map_some]

/-- A goroutine that is about to patch was so before the call, or its timer expires in it. -/
theorem Finalization.patchingAfter_cases {call : FinalizerCall} {timer : Nat} {pod : Pod}
    (hpatching : finalization.patchingAfter call timer = some pod) :
    finalization.patching timer = some pod ∨
      call = .timerExpired timer ∧ finalization.finalizer.timers timer = some pod := by
  cases call with
  | timerExpired expired =>
      simp only [patchingAfter, Function.update_apply] at hpatching
      split at hpatching
      next htimer => exact .inr ⟨by rw [htimer], htimer ▸ hpatching⟩
      next => exact .inl hpatching
  | _ => exact .inl hpatching

/-- What is pending after a step was pending before it, or the step started its timer and
disturbs no pod. -/
theorem FinalizationStep.pending_cases (hstep : finalization.step config step = some after)
    {timer : Nat} {pod : Pod} (hpending : after.Pending timer pod) :
    finalization.Pending timer pod ∨ timer = finalization.finalizer.nextTimer ∧
      after.finalizer.nextTimer = finalization.finalizer.nextTimer + 1 ∧
      ∀ name nameSpace, ¬ step.Disturbs name nameSpace := by
  cases step with
  | call call =>
      obtain ⟨hcall, hpatching⟩ := Finalization.step_call hstep
      rcases hpending with harmed | hexpired
      · cases FinalizerCall.on_timers hcall with
        | kept htimers _ => exact .inl (.inl (htimers timer pod harmed))
        | started started htimers hnext hquiet =>
            rw [htimers, Function.update_apply] at harmed
            split at harmed
            next htimer => exact .inr ⟨htimer, hnext, hquiet⟩
            next => exact .inl (.inl harmed)
      · rw [hpatching] at hexpired
        rcases Finalization.patchingAfter_cases hexpired with hold | ⟨_, harmed⟩
        · exact .inl (.inr hold)
        · exact .inl (.inl harmed)
  | finalizePodProfile patched =>
      obtain ⟨hfinalizer, hpatching⟩ := Finalization.step_patch hstep
      rcases hpending with harmed | hexpired
      · exact .inl (.inl (hfinalizer ▸ harmed))
      · rw [hpatching, Function.update_apply] at hexpired
        split at hexpired
        · cases hexpired
        · exact .inl (.inr hexpired)

/-- After the step nothing is pending for a pod that it disturbed, exactly if it stops all timers
of the pod and no patch is to come for it. -/
theorem FinalizationStep.stopsTimers_iff (hstep : finalization.step config step = some after) :
    step.StopsTimers finalization ↔
      ∀ timer pod, after.Pending timer pod → ¬ step.Disturbs pod.name pod.nameSpace := by
  cases step with
  | call call =>
      obtain ⟨hcall, hpatching⟩ := Finalization.step_call hstep
      have htimers := call.stopsTimers_iff hcall
      constructor
      · rintro ⟨hstops, hnone⟩ timer pod (harmed | hexpired)
        · exact htimers.mp hstops timer pod harmed
        · rw [hpatching] at hexpired
          rcases Finalization.patchingAfter_cases hexpired with hold | ⟨rfl, _⟩
          · exact hnone timer pod hold
          · exact id
      · intro hquiet
        refine ⟨htimers.mpr fun timer pod harmed => hquiet timer pod (.inl harmed), ?_⟩
        intro timer pod hexpired hdisturbs
        refine hquiet timer pod (.inr ?_) hdisturbs
        rw [hpatching]
        -- A call that disturbs a pod lets no timer expire.
        cases call with
        | timerExpired => cases hdisturbs
        | _ => exact hexpired
  | finalizePodProfile timer => exact iff_of_true trivial fun _ _ _ => id

theorem FinalizationStep.stopsTimers_of_panic (hpanic : finalization.step config step = none) :
    step.StopsTimers finalization := by
  cases step with
  | call call =>
      have hcall := Option.map_eq_none_iff.mp hpanic
      exact ⟨FinalizerCall.stopsTimers_of_panic hcall,
        fun _ _ _ => FinalizerCall.not_disturbs_of_panic hcall _ _⟩
  | finalizePodProfile timer => trivial

end Finalization

/-! ## Runs -/

section Runs

variable {finalization after : Finalization} {step : FinalizationStep}
  {steps : List FinalizationStep}

theorem FinalizationStep.nextTimer_le (hstep : finalization.step config step = some after) :
    finalization.finalizer.nextTimer ≤ after.finalizer.nextTimer := by
  cases step with
  | call call =>
      cases FinalizerCall.on_timers (Finalization.step_call hstep).1 with
      | kept _ hnext => rw [hnext]
      | started _ _ hnext _ =>
          rw [hnext]
          exact Nat.le_succ _
  | finalizePodProfile timer => rw [(Finalization.step_patch hstep).1]

theorem nextTimer_le_of_run
    (hrun : (finalizationMachine config).run finalization steps = some after) :
    finalization.finalizer.nextTimer ≤ after.finalizer.nextTimer := by
  have hpreserve : ∀ state step next,
      finalization.finalizer.nextTimer ≤ state.finalizer.nextTimer →
      (finalizationMachine config).step state step = some next →
      finalization.finalizer.nextTimer ≤ next.finalizer.nextTimer :=
    fun state step next hle hstep => hle.trans (FinalizationStep.nextTimer_le hstep)
  exact (finalizationMachine config).run_invariant hpreserve (le_refl _) hrun

/-- A step that leaves nothing pending that it disturbed, in a run that left nothing pending that
was disturbed. -/
theorem PatchesOnlyReady.concat
    (hrun : (finalizationMachine config).run .empty steps = some finalization)
    (hready : PatchesOnlyReady config steps finalization)
    (hstep : finalization.step config step = some after)
    (hstops : step.StopsTimers finalization) :
    PatchesOnlyReady config (steps ++ [step]) after := by
  intro timer pod hpending before other later middle hsteps hbefore hstarted
  rcases List.eq_nil_or_concat later with rfl | ⟨later, last, rfl⟩
  · obtain ⟨rfl, heq⟩ := List.append_inj' hsteps rfl
    obtain rfl := (List.cons.inj heq).1
    exact (step.stopsTimers_iff hstep).mp hstops timer pod hpending
  · rw [List.concat_eq_append, ← List.cons_append, ← List.append_assoc] at hsteps
    obtain ⟨rfl, -⟩ := List.append_inj' hsteps rfl
    obtain ⟨middle', hmiddle, hafter⟩ := (finalizationMachine config).run_append.mp hrun
    obtain rfl := Option.some.inj (hbefore.symm.trans hmiddle)
    have hle := nextTimer_le_of_run hafter
    rcases step.pending_cases hstep hpending with hold | ⟨htimer, _⟩
    · exact hready timer pod hold before other later middle rfl hbefore hstarted
    · omega

/-- What is pending has been started. -/
theorem timer_lt_of_run {timer : Nat} {pod : Pod}
    (hrun : (finalizationMachine config).run .empty steps = some finalization)
    (hpending : finalization.Pending timer pod) : timer < finalization.finalizer.nextTimer := by
  have hpreserve : ∀ state step next,
      (∀ timer pod, state.Pending timer pod → timer < state.finalizer.nextTimer) →
      (finalizationMachine config).step state step = some next →
      ∀ timer pod, next.Pending timer pod → timer < next.finalizer.nextTimer := by
    intro state step next hlt hstep timer pod hpending
    rcases step.pending_cases hstep hpending with hold | ⟨rfl, hnext, _⟩
    · exact (hlt timer pod hold).trans_le (step.nextTimer_le hstep)
    · rw [hnext]
      exact Nat.lt_succ_self _
  have hempty : ∀ timer pod, Finalization.empty.Pending timer pod →
      timer < Finalization.empty.finalizer.nextTimer := by
    rintro timer pod (harmed | hexpired)
    · cases harmed
    · cases hexpired
  exact (finalizationMachine config).run_invariant hpreserve hempty hrun timer pod hpending

/-- In every state of a run whichever goroutine patches next finalizes a pod that stayed ready
since the timer was started, exactly if every call that reports a pod not ready or gone stops
all timers of the pod and finds none of them expired without its patch. -/
theorem patchesOnlyReady_iff_stopsTimers (config : CollectorManagerConfig)
    (steps : List FinalizationStep) :
    (finalizationMachine config).Along (fun finalization step => step.StopsTimers finalization)
        .empty steps ↔
      ∀ before finalization, before <+: steps →
        (finalizationMachine config).run .empty before = some finalization →
        PatchesOnlyReady config before finalization := by
  rw [(finalizationMachine config).along_iff_forall_step]
  constructor
  · intro hstops before
    -- By induction on the run up to there, extended by one step at its end.
    induction before using List.reverseRecOn with
    | nil =>
        intro finalization _ _ timer pod _ before step after _ hsteps
        exact absurd hsteps (by simp)
    | append_singleton before step ih =>
        intro next hprefix hrun
        obtain ⟨after, hsteps⟩ := hprefix
        rw [List.append_assoc] at hsteps
        obtain ⟨finalization, hbefore, hlast⟩ := (finalizationMachine config).run_append.mp hrun
        obtain ⟨last, hstep, hnil⟩ := (finalizationMachine config).run_cons.mp hlast
        obtain rfl := Option.some.inj hnil
        exact (ih finalization ⟨_, hsteps⟩ hbefore).concat hbefore hstep
          (hstops before step after finalization hsteps.symm hbefore)
  · intro hready before step after finalization hsteps hbefore
    cases hstep : finalization.step config step with
    | none => exact FinalizationStep.stopsTimers_of_panic hstep
    | some next =>
        refine (step.stopsTimers_iff hstep).mpr ?_
        intro timer pod hpending hdisturbs
        have hrun : (finalizationMachine config).run .empty (before ++ [step]) = some next :=
          (finalizationMachine config).run_append.mpr ⟨finalization, hbefore,
            (finalizationMachine config).run_cons.mpr ⟨next, hstep, rfl⟩⟩
        have hprefix : before ++ [step] <+: steps := ⟨after, by simp [hsteps]⟩
        have hold : finalization.Pending timer pod :=
          (step.pending_cases hstep hpending).resolve_right fun hnew => hnew.2.2 _ _ hdisturbs
        exact hready _ next hprefix hrun timer pod hpending before step [] finalization rfl hbefore
          (timer_lt_of_run hbefore hold) hdisturbs

end Runs

def watchedPod (ready : Bool) : Pod where
  name := "nginx"
  nameSpace := "default"
  conditions := [⟨"Ready", if ready then "True" else "False"⟩]

/-- A recorded pod is added again while it is ready, as after a restart of the watch, and
then becomes not ready. -/
def readdedPod : List FinalizerCall :=
  [.handlePodAddEvent (watchedPod false), .setRecording "nginx" "default",
    .handlePodAddEvent (watchedPod true), .handlePodUpdateEvent (watchedPod false)]

/-- The timer of the second addition expires nevertheless, and its patch is to come. -/
theorem notReady_pod_finalized :
    ¬ ∀ (config : CollectorManagerConfig) (steps : List FinalizationStep)
      (finalization : Finalization),
      (finalizationMachine config).run .empty steps = some finalization →
      PatchesOnlyReady config steps finalization := by
  intro hclaim
  exact hclaim mainConfig ((readdedPod ++ [FinalizerCall.timerExpired 0]).map .call) _ rfl 0
    (watchedPod true) (.inr rfl)
    [.call (.handlePodAddEvent (watchedPod false)), .call (.setRecording "nginx" "default"),
      .call (.handlePodAddEvent (watchedPod true))]
    (.call (.handlePodUpdateEvent (watchedPod false))) [.call (.timerExpired 0)] _ rfl rfl
    (by decide) ⟨⟨rfl, rfl⟩, by decide⟩

/-! ## The finalizer of a running collector -/

/-- What a step of a call does to the finalizer. -/
def Call.finalizerCalls (answers : Answers) : Call → List FinalizerCall
  | .containerStarted id true .markRecording =>
      match answers.cluster.pods id.nameSpace id.podName with
      | some pod => [.markAttachedPod pod]
      | none => []
  | .containerStarted id _ .setRecording => [.setRecording id.podName id.nameSpace]
  | .collectContainerEvents id (.markNotRecording _) =>
      [.markPodNotRecording id.podName id.nameSpace]
  | _ => []

def Label.finalizerCalls (system : System) : Label → List FinalizerCall
  | .containerStopped id =>
      if id ∈ system.world.containers then [.markPodNotRecording id.podName id.nameSpace] else []
  | .advance call answers =>
      match system.calls[call]? with
      | some current => current.finalizerCalls answers
      | none => []
  | .podAdded pod => [.handlePodAddEvent pod]
  | .podUpdated pod => [.handlePodUpdateEvent pod]
  | .podDeleted pod => [.handlePodDeleteEvent pod]
  | .finalizationTimerExpired timer => [.timerExpired timer]
  | .containerStarted .. | .timerExpired _ | .sink _ | .finalizeApplicationProfile _ => []

theorem FinalizerCall.run_single {call : FinalizerCall}
    (hcall : call.on config finalizer = some next) :
    (finalizerMachine config).run finalizer [call] = some next :=
  (finalizerMachine config).run_cons.mpr ⟨next, hcall, rfl⟩

theorem startStep_finalizer {world : World} {id : ContainerId} {attach : Bool}
    {answers : Answers} {state : StartState} {started : StartState × World}
    (hstep : startStep config id attach answers world state = some started) :
    (finalizerMachine config).run world.finalizer
        (Call.finalizerCalls answers (.containerStarted id attach state)) =
      some started.2.finalizer := by
  cases startStep_change hstep with
  | podMissing hattach hmissing =>
      subst hattach
      simp only [Call.finalizerCalls, hmissing]
      rfl
  | finalizationTimer hattach hpod hready hstart =>
      subst hattach
      simp only [Call.finalizerCalls, hpod]
      apply FinalizerCall.run_single
      rw [FinalizerCall.on, Finalizer.markAttachedPod, if_pos hready]
      exact Option.map_eq_some_iff.mpr ⟨_, hstart, rfl⟩
  | noFinalizationTimer hready =>
      cases attach with
      | false => rfl
      | true =>
          obtain ⟨pod, hpod, hnotReady⟩ := hready rfl
          simp only [Call.finalizerCalls, hpod]
          apply FinalizerCall.run_single
          rw [FinalizerCall.on, Finalizer.markAttachedPod, if_neg (by rw [hnotReady]; decide)]
  | _ => cases attach <;> rfl

theorem collectStep_finalizer {world : World} {id : ContainerId} {answers : Answers}
    {state : PassState} :
    (finalizerMachine config).run world.finalizer
        (Call.finalizerCalls answers (.collectContainerEvents id state)) =
      some (collectStep config id answers world state).2.finalizer := by
  by_cases hmark : ∃ exit, state = .markNotRecording exit
  · obtain ⟨exit, rfl⟩ := hmark
    rfl
  · have hcalls : Call.finalizerCalls answers (.collectContainerEvents id state) = [] := by
      cases state with
      | markNotRecording exit => exact absurd ⟨exit, rfl⟩ hmark
      | _ => rfl
    have hchange := collectStep_change config id answers world state
    rw [hcalls, Machine.run_nil]
    generalize (collectStep config id answers world state).2 = after at hchange ⊢
    cases hchange with
    | markNotRecording => exact absurd ⟨_, rfl⟩ hmark
    | _ => rfl

theorem containerStopped_finalizer {world : World} {id : ContainerId} :
    (containerStopped world id).finalizer =
      if id ∈ world.containers then world.finalizer.markPodNotRecording id.podName id.nameSpace
      else world.finalizer := by
  unfold containerStopped
  split
  · obtain ⟨cache, heq⟩ := dropPodMounts_eq
      ((((world.markPodNotRecording id).stopTraceContainer id).removeFilter id).untrack id) id
    rw [heq]
    rfl
  · rfl

/-- A step of the collector is at most one call of its finalizer. -/
theorem step_finalizer {system after : System} {label : Label}
    (hstep : step config system label = some after) :
    (finalizerMachine config).run system.world.finalizer (label.finalizerCalls system) =
      some after.world.finalizer := by
  cases label with
  | advance call answers =>
      obtain ⟨current, advanced, hcurrent, hcall, _⟩ := step_advance hstep
      simp only [Label.finalizerCalls, hcurrent]
      rcases Call.step_cases hcall with
        ⟨id, attach, state, started, rfl, hstarted, _, hworld⟩ | ⟨id, state, rfl, _, _, hworld⟩ |
        ⟨nameSpace, podName, rfl, _, hworld⟩ | ⟨nameSpace, podName, rfl, _, hworld⟩
      · rw [hworld]
        exact startStep_finalizer hstarted
      · rw [hworld]
        exact collectStep_finalizer
      · obtain ⟨profiles, heq⟩ := finalizeProfile_eq config answers system.world nameSpace podName
        rw [hworld, heq]
        rfl
      · obtain ⟨profiles, heq⟩ := deleteProfile_eq config answers system.world nameSpace podName
        rw [hworld, heq]
        rfl
  | containerStopped id =>
      cases hstep
      simp only [Label.finalizerCalls, System.launch, containerStopped_finalizer]
      split
      · exact FinalizerCall.run_single rfl
      · rfl
  | podAdded pod =>
      obtain ⟨finalizer, hfinalizer, rfl⟩ := Option.map_eq_some_iff.mp hstep
      exact FinalizerCall.run_single hfinalizer
  | podUpdated pod =>
      obtain ⟨finalizer, hfinalizer, rfl⟩ := Option.map_eq_some_iff.mp hstep
      exact FinalizerCall.run_single hfinalizer
  | podDeleted pod =>
      cases hstep
      exact FinalizerCall.run_single rfl
  | finalizationTimerExpired timer =>
      obtain ⟨pod, hpod, rfl⟩ := Option.map_eq_some_iff.mp hstep
      refine FinalizerCall.run_single ?_
      rw [FinalizerCall.on, hpod]
      rfl
  | containerStarted id attach =>
      cases hstep
      rfl
  | timerExpired id =>
      simp only [step] at hstep
      split at hstep
      · cases hstep
        rfl
      · cases hstep
  | sink op =>
      obtain ⟨sink, _, rfl⟩ := Option.map_eq_some_iff.mp hstep
      rfl
  | finalizeApplicationProfile id =>
      simp only [step] at hstep
      split at hstep <;> cases hstep <;> rfl

/-- Every run of the collector is a run of its finalizer. -/
theorem exists_finalizer_run {system last : System} {labels : List Label}
    (hrun : (machine config).run system labels = some last) :
    ∃ calls, (finalizerMachine config).run system.world.finalizer calls =
      some last.world.finalizer := by
  apply (machine config).exists_run_of_step _ hrun
  intro state label _ next hstep
  exact ⟨label.finalizerCalls state, step_finalizer hstep⟩

/-- The goroutine of every expired timer that has not patched yet is a call of its own, at the
given place, whose request is still to be made. -/
structure Finalization.Follows (place : Nat → Nat) (finalization : Finalization)
    (system : System) : Prop where
  finalizer : finalization.finalizer = system.world.finalizer
  call : ∀ timer pod, finalization.patching timer = some pod →
    system.calls[place timer]? = some (.finalizeProfile pod.nameSpace pod.name false)
  distinct : ∀ first second pod other, finalization.patching first = some pod →
    finalization.patching second = some other → place first = place second → first = second

/-- What a step does to the finalizer and its goroutines: it is the patch of a goroutine, if it
makes the request of its call, and otherwise what it does to the finalizer. -/
def Label.IsSteps (place : Nat → Nat) (finalization : Finalization) (system : System)
    (label : Label) (steps : List FinalizationStep) : Prop :=
  (∃ timer pod answers, finalization.patching timer = some pod ∧
    label = .advance (place timer) answers ∧ steps = [.finalizePodProfile timer]) ∨
  (∀ timer pod answers, finalization.patching timer = some pod →
    label ≠ .advance (place timer) answers) ∧ steps = (label.finalizerCalls system).map .call

theorem Call.finalizerCalls_not_expired {call : Call} {answers : Answers} (timer : Nat) :
    FinalizerCall.timerExpired timer ∉ call.finalizerCalls answers := by
  unfold Call.finalizerCalls
  split
  · split <;> simp
  all_goals simp

theorem Label.finalizerCalls_not_expired {system : System} {label : Label}
    (hlabel : ∀ timer, label ≠ .finalizationTimerExpired timer) (timer : Nat) :
    FinalizerCall.timerExpired timer ∉ label.finalizerCalls system := by
  cases label with
  | advance call answers =>
      simp only [Label.finalizerCalls]
      split
      · exact Call.finalizerCalls_not_expired timer
      · simp
  | containerStopped id =>
      simp only [Label.finalizerCalls]
      split <;> simp
  | finalizationTimerExpired expired => exact absurd rfl (hlabel expired)
  | _ => simp [Label.finalizerCalls]

/-- Calls among which no timer expires leave the goroutines alone. -/
theorem Finalization.run_calls {calls : List FinalizerCall} (patching : Nat → Option Pod)
    (hcalls : ∀ timer, FinalizerCall.timerExpired timer ∉ calls)
    (hrun : (finalizerMachine config).run finalizer calls = some next) :
    (finalizationMachine config).run ⟨finalizer, patching⟩ (calls.map .call) =
      some ⟨next, patching⟩ := by
  induction calls generalizing finalizer with
  | nil =>
      obtain rfl := Option.some.inj hrun
      rfl
  | cons call rest ih =>
      obtain ⟨middle, hcall, hrest⟩ := (finalizerMachine config).run_cons.mp hrun
      have hkept : Finalization.patchingAfter ⟨finalizer, patching⟩ call = patching := by
        cases call with
        | timerExpired timer => exact absurd List.mem_cons_self (hcalls timer)
        | _ => rfl
      refine (finalizationMachine config).run_cons.mpr ⟨⟨middle, patching⟩, ?_, ?_⟩
      · refine Option.map_eq_some_iff.mpr ⟨middle, hcall, ?_⟩
        rw [hkept]
      · exact ih (fun timer hmem => hcalls timer (List.mem_cons_of_mem _ hmem)) hrest

section Follows

variable {system after : System} {label : Label} {place : Nat → Nat} {finalization : Finalization}

namespace Finalization.Follows

/-- The request of a goroutine. -/
theorem patch {timer : Nat} {pod : Pod} {answers : Answers}
    (hfollows : finalization.Follows place system)
    (hpatching : finalization.patching timer = some pod)
    (hstep : Collector.step config system (.advance (place timer) answers) = some after) :
    Finalization.Follows place { finalization with
      patching := Function.update finalization.patching timer none } after := by
  have hother : ∀ other found, Function.update finalization.patching timer none other =
      some found → finalization.patching other = some found ∧ place timer ≠ place other := by
    intro other found hfound
    rw [Function.update_apply] at hfound
    split at hfound
    · cases hfound
    next hne =>
      exact ⟨hfound, fun heq => hne (hfollows.distinct _ _ _ _ hfound hpatching heq.symm)⟩
  constructor
  · have hrun := step_finalizer hstep
    rw [Label.finalizerCalls, hfollows.call timer pod hpatching] at hrun
    exact hfollows.finalizer.trans (Option.some.inj hrun)
  · intro other found hfound
    obtain ⟨hfound, hne⟩ := hother other found hfound
    refine step_keeps_call (hfollows.call other found hfound) ?_ hstep
    rintro _ hadvance
    exact hne (Label.advance.inj hadvance).1
  · intro first second found found' hfirst hsecond
    exact hfollows.distinct first second found found' (hother first found hfirst).1
      (hother second found' hsecond).1

/-- A timer expires, and the call of its goroutine is launched. -/
theorem expired {timer : Nat} (hfollows : finalization.Follows place system)
    (hstep : Collector.step config system (.finalizationTimerExpired timer) = some after) :
    ∃ next, finalization.step config (.call (.timerExpired timer)) = some next ∧
      next.Follows (Function.update place timer system.calls.length) after := by
  obtain ⟨pod, hpod, rfl⟩ := Option.map_eq_some_iff.mp hstep
  rw [← hfollows.finalizer] at hpod
  refine ⟨_, Finalization.step_expire hpod, ?_, ?_, ?_⟩
  · exact congrArg (·.expire timer) hfollows.finalizer
  · intro other found hfound
    simp only [Finalization.patchingAfter] at hfound
    by_cases heq : other = timer
    · subst heq
      rw [Function.update_self, hpod, Option.some.injEq] at hfound
      rw [Function.update_self, hfound]
      exact List.getElem?_concat_length
    · rw [Function.update_of_ne heq] at hfound ⊢
      have hcall := hfollows.call other found hfound
      rw [← hcall]
      exact List.getElem?_append_left (List.getElem?_eq_some_iff.mp hcall).1
  · -- The place of the launched call is none of the others'.
    have hlt : ∀ other found, other ≠ timer →
        finalization.patchingAfter (.timerExpired timer) other = some found →
        finalization.patching other = some found ∧ place other ≠ system.calls.length := by
      intro other found hne hfound
      rw [Finalization.patchingAfter, Function.update_of_ne hne] at hfound
      exact ⟨hfound,
        (List.getElem?_eq_some_iff.mp (hfollows.call other found hfound)).1.ne⟩
    intro first second found found' hfirst hsecond hplace
    by_cases hone : first = timer <;> by_cases htwo : second = timer
    · rw [hone, htwo]
    · subst hone
      rw [Function.update_self, Function.update_of_ne htwo] at hplace
      exact absurd hplace.symm (hlt second found' htwo hsecond).2
    · subst htwo
      rw [Function.update_self, Function.update_of_ne hone] at hplace
      exact absurd hplace (hlt first found hone hfirst).2
    · rw [Function.update_of_ne hone, Function.update_of_ne htwo] at hplace
      exact hfollows.distinct first second found found' (hlt first found hone hfirst).1
        (hlt second found' htwo hsecond).1 hplace

/-- Any other step. -/
theorem calls (hfollows : finalization.Follows place system)
    (hexpired : ∀ timer, label ≠ .finalizationTimerExpired timer)
    (hpatch : ∀ timer pod answers, finalization.patching timer = some pod →
      label ≠ .advance (place timer) answers)
    (hstep : Collector.step config system label = some after) :
    (finalizationMachine config).run finalization ((label.finalizerCalls system).map .call) =
        some ⟨after.world.finalizer, finalization.patching⟩ ∧
      Follows place ⟨after.world.finalizer, finalization.patching⟩ after := by
  constructor
  · refine Finalization.run_calls finalization.patching
      (Label.finalizerCalls_not_expired hexpired) ?_
    rw [hfollows.finalizer]
    exact step_finalizer hstep
  · exact ⟨rfl, fun timer pod hpatching => step_keeps_call (hfollows.call timer pod hpatching)
      (fun answers => hpatch timer pod answers hpatching) hstep, hfollows.distinct⟩

end Finalization.Follows

/-- A step of the collector is a step of its finalizer and goroutines. -/
theorem step_finalization (hfollows : finalization.Follows place system)
    (hstep : step config system label = some after) :
    ∃ steps next place', label.IsSteps place finalization system steps ∧
      (finalizationMachine config).run finalization steps = some next ∧
      next.Follows place' after := by
  by_cases hpatch : ∃ timer pod answers, finalization.patching timer = some pod ∧
      label = .advance (place timer) answers
  · obtain ⟨timer, pod, answers, hpatching, rfl⟩ := hpatch
    have hpatched : finalization.step config (.finalizePodProfile timer) = some _ :=
      Finalization.step_finalize hpatching
    exact ⟨_, _, place, .inl ⟨timer, pod, answers, hpatching, rfl, rfl⟩,
      (finalizationMachine config).run_cons.mpr ⟨_, hpatched, rfl⟩,
      hfollows.patch hpatching hstep⟩
  · have hpatch : ∀ timer pod answers, finalization.patching timer = some pod →
        label ≠ .advance (place timer) answers :=
      fun timer pod answers hpatching heq => hpatch ⟨timer, pod, answers, hpatching, heq⟩
    by_cases hexpired : ∃ timer, label = .finalizationTimerExpired timer
    · obtain ⟨timer, rfl⟩ := hexpired
      obtain ⟨next, hnext, hfollows'⟩ := hfollows.expired hstep
      exact ⟨_, next, _, .inr ⟨hpatch, rfl⟩,
        (finalizationMachine config).run_cons.mpr ⟨next, hnext, rfl⟩, hfollows'⟩
    · have hexpired : ∀ timer, label ≠ .finalizationTimerExpired timer :=
        fun timer heq => hexpired ⟨timer, heq⟩
      obtain ⟨hrun, hfollows'⟩ := hfollows.calls hexpired hpatch hstep
      exact ⟨_, _, place, .inr ⟨hpatch, rfl⟩, hrun, hfollows'⟩

/-- Every run of a collector is a run of its finalizer and goroutines. -/
theorem exists_finalization_run {labels : List Label} (hinitial : Initial system)
    (hrun : (machine config).run system labels = some after) :
    ∃ steps finalization place, (finalizationMachine config).run .empty steps =
      some finalization ∧ finalization.Follows place after := by
  have hpreserve : ∀ state label next,
      (∃ steps finalization place, (finalizationMachine config).run .empty steps =
        some finalization ∧ finalization.Follows place state) →
      (machine config).step state label = some next →
      ∃ steps finalization place, (finalizationMachine config).run .empty steps =
        some finalization ∧ finalization.Follows place next := by
    rintro state label next ⟨steps, finalization, place, hsteps, hfollows⟩ hstep
    obtain ⟨more, last, place', _, hmore, hfollows'⟩ := step_finalization hfollows hstep
    exact ⟨steps ++ more, last, place',
      (finalizationMachine config).run_append.mpr ⟨finalization, hsteps, hmore⟩, hfollows'⟩
  exact (machine config).run_invariant hpreserve
    ⟨[], .empty, id, rfl, hinitial.2.2.2.1.symm, nofun, nofun⟩ hrun

end Follows

end Kapprofiler.Collector
