import Kapprofiler.Collector.PodTables

/-! # The finalizer after a deletion

A deletion stops the timer that the table points to and keeps the entry. A new pod of the
same name then meets the entry of the deleted one, the timers that the entry does not point
to and the patches of those that have expired, unless there is none of them.
-/

namespace Kapprofiler.Collector

open Foundation

variable {config : CollectorManagerConfig} {pod : String × String}

/-! ## What is observed -/

/-- The recording flag of the pod. -/
def Finalizer.recordingOf (finalizer : Finalizer) (pod : String × String) : Bool :=
  (finalizer.podFinalizerState.lookup (podKey pod)).any (·.recording)

/-- A call about the pod, with whether it starts a timer, or the patch of the pod's profile by
the goroutine of a timer; and the recording flag after it. -/
inductive Observation
  | handled (call : FinalizerCall) (started recording : Bool)
  | finalized (recording : Bool)

/-- Some sequence of events of the pod shows these observations. That a timer expires is not
observed, but that its goroutine patches the profile. -/
inductive Shows (config : CollectorManagerConfig) (pod : String × String) :
    Finalization → List Observation → Prop
  | nil (finalization : Finalization) : Shows config pod finalization []
  | handled {finalization next : Finalization} {call : FinalizerCall} {started recording : Bool}
      {rest : List Observation} (habout : call.about = some pod)
      (hstep : finalization.step config (.call call) = some next)
      (hstarted : started = true ↔ next.finalizer.nextTimer ≠ finalization.finalizer.nextTimer)
      (hrecording : recording = next.finalizer.recordingOf pod)
      (hrest : Shows config pod next rest) :
      Shows config pod finalization (.handled call started recording :: rest)
  | expired {finalization next : Finalization} {timer : Nat} {armed : Pod}
      {observations : List Observation}
      (harmed : finalization.finalizer.timers timer = some armed)
      (hpod : (armed.name, armed.nameSpace) = pod)
      (hstep : finalization.step config (.call (.timerExpired timer)) = some next)
      (hrest : Shows config pod next observations) : Shows config pod finalization observations
  | finalized {finalization next : Finalization} {timer : Nat} {armed : Pod} {recording : Bool}
      {rest : List Observation} (hpatching : finalization.patching timer = some armed)
      (hpod : (armed.name, armed.nameSpace) = pod)
      (hstep : finalization.step config (.finalizePodProfile timer) = some next)
      (hrecording : recording = next.finalizer.recordingOf pod)
      (hrest : Shows config pod next rest) :
      Shows config pod finalization (.finalized recording :: rest)

/-- Events of the pod cannot tell the two apart. -/
def BehavesLike (config : CollectorManagerConfig) (pod : String × String)
    (first second : Finalization) : Prop :=
  ∀ observations, Shows config pod first observations ↔ Shows config pod second observations

/-! ## Finalizers that behave alike -/

def PodProfileFinalizerState.shift (state : PodProfileFinalizerState) (shift : Nat) :
    PodProfileFinalizerState :=
  { state with finalizationTimer := state.finalizationTimer.map (· + shift) }

/-- What the first finalizer has for the pod is what the second has, with later timers. -/
structure Shifted (pod : String × String) (shift : Nat) (first second : Finalizer) : Prop where
  entry : first.podFinalizerState.lookup (podKey pod) =
    (second.podFinalizerState.lookup (podKey pod)).map (·.shift shift)
  timers : ∀ timer armed, (armed.name, armed.nameSpace) = pod →
    (first.timers (timer + shift) = some armed ↔ second.timers timer = some armed)
  older : ∀ timer armed, first.timers timer = some armed →
    (armed.name, armed.nameSpace) = pod → shift ≤ timer
  nextTimer : first.nextTimer = second.nextTimer + shift

variable {shift : Nat} {first second : Finalizer}

theorem Shifted.recordingOf (hshifted : Shifted pod shift first second) :
    first.recordingOf pod = second.recordingOf pod := by
  rw [Finalizer.recordingOf, hshifted.entry, Finalizer.recordingOf, Option.any_map]
  rfl

/-- What the first has for the pod is what the second has, with later timers. -/
structure ShiftedFinalization (pod : String × String) (shift : Nat)
    (first second : Finalization) : Prop where
  finalizer : Shifted pod shift first.finalizer second.finalizer
  patching : ∀ timer armed, (armed.name, armed.nameSpace) = pod →
    (first.patching (timer + shift) = some armed ↔ second.patching timer = some armed)
  older : ∀ timer armed, first.patching timer = some armed →
    (armed.name, armed.nameSpace) = pod → shift ≤ timer

/-- Nothing is left for the pod. -/
theorem shifted_empty {finalization : Finalization}
    (hentry : finalization.finalizer.podFinalizerState.lookup (podKey pod) = none)
    (hnone : ∀ timer armed, finalization.Pending timer armed →
      (armed.name, armed.nameSpace) ≠ pod) :
    ShiftedFinalization pod finalization.finalizer.nextTimer finalization .empty where
  finalizer := {
    entry := by
      rw [hentry]
      rfl
    timers := by
      intro timer armed hpod
      exact iff_of_false (fun harmed => hnone _ armed (.inl harmed) hpod) nofun
    older := fun timer armed harmed hpod => absurd hpod (hnone timer armed (.inl harmed))
    nextTimer := (Nat.zero_add _).symm }
  patching := by
    intro timer armed hpod
    exact iff_of_false (fun hpatching => hnone _ armed (.inr hpatching) hpod) nofun
  older := fun timer armed hpatching hpod => absurd hpod (hnone timer armed (.inr hpatching))

/-! ## One call to both -/

namespace Shifted

theorem lookup (hshifted : Shifted pod shift first second) :
    first.podFinalizerState.lookup (generateTableKey pod.1 pod.2) =
      (second.podFinalizerState.lookup (generateTableKey pod.1 pod.2)).map (·.shift shift) :=
  hshifted.entry

theorem setState (hshifted : Shifted pod shift first second)
    (state : PodProfileFinalizerState) :
    Shifted pod shift (first.setState (podKey pod) (state.shift shift))
      (second.setState (podKey pod) state) where
  entry := by
    simp [Finalizer.setState]
  timers := hshifted.timers
  older := hshifted.older
  nextTimer := hshifted.nextTimer

theorem arm (hshifted : Shifted pod shift first second) (armed : Pod) :
    Shifted pod shift (first.arm armed) (second.arm armed) where
  entry := hshifted.entry
  timers := by
    intro timer found hfound
    simp only [Finalizer.arm, Function.update_apply, hshifted.nextTimer, Nat.add_right_cancel_iff]
    split
    next => exact Iff.rfl
    next => exact hshifted.timers timer found hfound
  older := by
    intro timer found hfound hpod
    rcases Finalizer.armed_of_arm hfound with hbefore | ⟨rfl, _⟩
    · exact hshifted.older timer found hbefore hpod
    · rw [hshifted.nextTimer]
      exact Nat.le_add_left _ _
  nextTimer := by
    simp only [Finalizer.arm, hshifted.nextTimer]
    omega

theorem disarm (hshifted : Shifted pod shift first second) (timer : Nat) :
    Shifted pod shift (first.expire (timer + shift)) (second.expire timer) where
  entry := hshifted.entry
  timers := by
    intro other found hfound
    simp only [Finalizer.expire, Function.update_apply, Nat.add_right_cancel_iff]
    split
    next => exact Iff.rfl
    next => exact hshifted.timers other found hfound
  older := fun other found hfound => hshifted.older other found (Finalizer.armed_of_expire hfound)
  nextTimer := hshifted.nextTimer

/-- Both start a timer, or `rand.Intn` panics for both. -/
theorem startFinalizationTimer {armed : Pod} {firstAfter secondAfter : Nat × Finalizer → Finalizer}
    (hafter : Shifted pod shift (firstAfter (first.nextTimer, first.arm armed))
      (secondAfter (second.nextTimer, second.arm armed))) :
    Option.Rel (Shifted pod shift)
      ((first.startFinalizationTimer config armed).map firstAfter)
      ((second.startFinalizationTimer config armed).map secondAfter) := by
  unfold Finalizer.startFinalizationTimer
  split
  · exact .some hafter
  · exact .none

theorem stopTimer (hshifted : Shifted pod shift first second) :
    Shifted pod shift (first.stopTimer pod.1 pod.2) (second.stopTimer pod.1 pod.2) := by
  unfold Finalizer.stopTimer
  rw [hshifted.lookup]
  cases second.podFinalizerState.lookup (generateTableKey pod.1 pod.2) with
  | none => exact hshifted
  | some state =>
      simp only [Option.map_some, PodProfileFinalizerState.shift]
      cases state.finalizationTimer with
      | none => exact hshifted
      | some timer =>
          exact (hshifted.setState { state with finalizationTimer := none }).disarm timer

theorem setRecording (hshifted : Shifted pod shift first second) :
    Shifted pod shift (first.setRecording pod.1 pod.2) (second.setRecording pod.1 pod.2) := by
  unfold Finalizer.setRecording
  rw [hshifted.lookup]
  cases second.podFinalizerState.lookup (generateTableKey pod.1 pod.2) with
  | none =>
      exact hshifted.setState { podName := pod.1, nameSpace := pod.2, recording := true }
  | some state => exact hshifted.setState { state with recording := true }

theorem markPodNotRecording (hshifted : Shifted pod shift first second) :
    Shifted pod shift (first.markPodNotRecording pod.1 pod.2)
      (second.markPodNotRecording pod.1 pod.2) := by
  unfold Finalizer.markPodNotRecording
  rw [hshifted.lookup]
  cases second.podFinalizerState.lookup (generateTableKey pod.1 pod.2) with
  | none => exact hshifted
  | some state => exact hshifted.setState { state with recording := false }

theorem handlePodAddEvent {added : Pod}
    (hshifted : Shifted (added.name, added.nameSpace) shift first second) :
    Option.Rel (Shifted (added.name, added.nameSpace) shift)
      (first.handlePodAddEvent config added) (second.handlePodAddEvent config added) := by
  unfold Finalizer.handlePodAddEvent
  rw [hshifted.lookup]
  cases second.podFinalizerState.lookup (generateTableKey added.name added.nameSpace) with
  | none =>
      exact .some (hshifted.setState { podName := added.name, nameSpace := added.nameSpace })
  | some state =>
      simp only [Option.map_some]
      split
      · exact startFinalizationTimer (hshifted.arm added)
      · exact .some hshifted

theorem handlePodUpdateEvent {updated : Pod}
    (hshifted : Shifted (updated.name, updated.nameSpace) shift first second) :
    Option.Rel (Shifted (updated.name, updated.nameSpace) shift)
      (first.handlePodUpdateEvent config updated)
      (second.handlePodUpdateEvent config updated) := by
  unfold Finalizer.handlePodUpdateEvent
  rw [hshifted.lookup]
  cases second.podFinalizerState.lookup (generateTableKey updated.name updated.nameSpace) with
  | none => exact .some hshifted
  | some state =>
      simp only [Option.map_some, PodProfileFinalizerState.shift, Option.isSome_map]
      split
      · split
        · split
          · exact .some hshifted
          · apply startFinalizationTimer
            rw [hshifted.nextTimer]
            exact (hshifted.arm updated).setState
              { state with finalizationTimer := some second.nextTimer }
        · exact .some hshifted.stopTimer
      · exact .some hshifted

/-- A call about the pod. -/
theorem on {call : FinalizerCall} (hshifted : Shifted pod shift first second)
    (habout : call.about = some pod) :
    Option.Rel (Shifted pod shift) (call.on config first) (call.on config second) := by
  cases call with
  | handlePodAddEvent added =>
      obtain rfl := Option.some.inj habout
      exact hshifted.handlePodAddEvent
  | handlePodUpdateEvent updated =>
      obtain rfl := Option.some.inj habout
      exact hshifted.handlePodUpdateEvent
  | handlePodDeleteEvent deleted =>
      obtain rfl := Option.some.inj habout
      exact .some hshifted.stopTimer
  | markAttachedPod attached =>
      simp only [FinalizerCall.on, Finalizer.markAttachedPod]
      split
      · exact startFinalizationTimer (hshifted.arm attached)
      · exact .some hshifted
  | setRecording name nameSpace =>
      obtain rfl := Option.some.inj habout
      exact .some hshifted.setRecording
  | markPodNotRecording name nameSpace =>
      obtain rfl := Option.some.inj habout
      exact .some hshifted.markPodNotRecording
  | timerExpired timer => cases habout

/-- Where one of the two returns, the other one does, too. -/
theorem exists_on {call : FinalizerCall} (hshifted : Shifted pod shift first second)
    (habout : call.about = some pod) :
    (∀ firstNext, call.on config first = some firstNext → ∃ secondNext,
      call.on config second = some secondNext ∧ Shifted pod shift firstNext secondNext) ∧
    (∀ secondNext, call.on config second = some secondNext → ∃ firstNext,
      call.on config first = some firstNext ∧ Shifted pod shift firstNext secondNext) := by
  have hrel : Option.Rel (Shifted pod shift) (call.on config first) (call.on config second) :=
    hshifted.on habout
  generalize call.on config first = firstAnswer at hrel
  generalize call.on config second = secondAnswer at hrel
  cases hrel with
  | none => exact ⟨nofun, nofun⟩
  | some hnext =>
      constructor
      · rintro _ ⟨⟩
        exact ⟨_, rfl, hnext⟩
      · rintro _ ⟨⟩
        exact ⟨_, rfl, hnext⟩

theorem started_iff {firstNext secondNext : Finalizer} (hshifted : Shifted pod shift first second)
    (hnext : Shifted pod shift firstNext secondNext) :
    firstNext.nextTimer ≠ first.nextTimer ↔ secondNext.nextTimer ≠ second.nextTimer := by
  rw [hshifted.nextTimer, hnext.nextTimer, Ne, Nat.add_right_cancel_iff]

end Shifted

/-! ## Sequences of events -/

namespace ShiftedFinalization

variable {first second : Finalization} {timer : Nat} {armed : Pod}

/-- A timer of the pod expires for both. -/
theorem expire (hshifted : ShiftedFinalization pod shift first second) (timer : Nat) :
    ShiftedFinalization pod shift
      ⟨first.finalizer.expire (timer + shift),
        first.patchingAfter (.timerExpired (timer + shift))⟩
      ⟨second.finalizer.expire timer, second.patchingAfter (.timerExpired timer)⟩ where
  finalizer := hshifted.finalizer.disarm timer
  patching := by
    intro other found hfound
    simp only [Finalization.patchingAfter, Function.update_apply, Nat.add_right_cancel_iff]
    split
    next => exact hshifted.finalizer.timers timer found hfound
    next => exact hshifted.patching other found hfound
  older := by
    intro other found hpatching hfound
    have hcases : first.patching other = some found ∨ FinalizerCall.timerExpired (timer + shift) =
        .timerExpired other ∧ first.finalizer.timers other = some found :=
      Finalization.patchingAfter_cases hpatching
    rcases hcases with hold | ⟨heq, _⟩
    · exact hshifted.older other found hold hfound
    · rw [← FinalizerCall.timerExpired.inj heq]
      exact Nat.le_add_left _ _

/-- The goroutine of an expired timer patches for both. -/
theorem patch (hshifted : ShiftedFinalization pod shift first second) (timer : Nat) :
    ShiftedFinalization pod shift
      { first with patching := Function.update first.patching (timer + shift) none }
      { second with patching := Function.update second.patching timer none } where
  finalizer := hshifted.finalizer
  patching := by
    intro other found hfound
    simp only [Function.update_apply, Nat.add_right_cancel_iff]
    split
    next => exact Iff.rfl
    next => exact hshifted.patching other found hfound
  older := by
    intro other found hpatching hfound
    simp only [Function.update_apply] at hpatching
    split at hpatching
    · cases hpatching
    · exact hshifted.older other found hpatching hfound

/-- Where one of the two returns from a call, the other one does, too. -/
theorem exists_call {call : FinalizerCall} (hshifted : ShiftedFinalization pod shift first second)
    (habout : call.about = some pod) :
    (∀ firstNext, first.step config (.call call) = some firstNext → ∃ secondNext,
      second.step config (.call call) = some secondNext ∧
        ShiftedFinalization pod shift firstNext secondNext) ∧
    (∀ secondNext, second.step config (.call call) = some secondNext → ∃ firstNext,
      first.step config (.call call) = some firstNext ∧
        ShiftedFinalization pod shift firstNext secondNext) := by
  -- No timer expires in a call about the pod.
  have hkept : ∀ finalization : Finalization,
      finalization.patchingAfter call = finalization.patching := by
    intro finalization
    cases call with
    | timerExpired timer => cases habout
    | _ => rfl
  have hboth : ∀ firstNext secondNext, Shifted pod shift firstNext secondNext →
      ShiftedFinalization pod shift ⟨firstNext, first.patchingAfter call⟩
        ⟨secondNext, second.patchingAfter call⟩ := by
    intro firstNext secondNext hnext
    rw [hkept, hkept]
    exact ⟨hnext, hshifted.patching, hshifted.older⟩
  constructor
  · intro firstNext hstep
    obtain ⟨after, hcall, rfl⟩ := Option.map_eq_some_iff.mp hstep
    obtain ⟨other, hother, hnext⟩ := (hshifted.finalizer.exists_on habout).1 after hcall
    exact ⟨_, Option.map_eq_some_iff.mpr ⟨other, hother, rfl⟩, hboth after other hnext⟩
  · intro secondNext hstep
    obtain ⟨after, hcall, rfl⟩ := Option.map_eq_some_iff.mp hstep
    obtain ⟨other, hother, hnext⟩ := (hshifted.finalizer.exists_on habout).2 after hcall
    exact ⟨_, Option.map_eq_some_iff.mpr ⟨other, hother, rfl⟩, hboth other after hnext⟩

theorem shows_second (hshifted : ShiftedFinalization pod shift first second)
    {observations : List Observation} (hshows : Shows config pod first observations) :
    Shows config pod second observations := by
  induction hshows generalizing second with
  | nil => exact .nil second
  | handled habout hstep hstarted hrecording _ ih =>
      obtain ⟨after, hafter, hnext⟩ := (hshifted.exists_call habout).1 _ hstep
      exact .handled habout hafter
        (hstarted.trans (hshifted.finalizer.started_iff hnext.finalizer))
        (hrecording.trans hnext.finalizer.recordingOf) (ih hnext)
  | @expired first next timer armed observations harmed hpod hstep _ ih =>
      obtain ⟨earlier, rfl⟩ :=
        Nat.exists_eq_add_of_le' (hshifted.finalizer.older timer armed harmed hpod)
      have harmed' := (hshifted.finalizer.timers earlier armed hpod).mp harmed
      obtain rfl := Option.some.inj ((Finalization.step_expire harmed).symm.trans hstep)
      exact .expired harmed' hpod (Finalization.step_expire harmed') (ih (hshifted.expire earlier))
  | @finalized first next timer armed recording rest hpatching hpod hstep hrecording _ ih =>
      obtain ⟨earlier, rfl⟩ :=
        Nat.exists_eq_add_of_le' (hshifted.older timer armed hpatching hpod)
      have hpatching' := (hshifted.patching earlier armed hpod).mp hpatching
      obtain rfl := Option.some.inj ((Finalization.step_finalize hpatching).symm.trans hstep)
      exact .finalized hpatching' hpod (Finalization.step_finalize hpatching')
        (hrecording.trans hshifted.finalizer.recordingOf) (ih (hshifted.patch earlier))

theorem shows_first (hshifted : ShiftedFinalization pod shift first second)
    {observations : List Observation} (hshows : Shows config pod second observations) :
    Shows config pod first observations := by
  induction hshows generalizing first with
  | nil => exact .nil first
  | handled habout hstep hstarted hrecording _ ih =>
      obtain ⟨before, hbefore, hnext⟩ := (hshifted.exists_call habout).2 _ hstep
      exact .handled habout hbefore
        (hstarted.trans (hshifted.finalizer.started_iff hnext.finalizer).symm)
        (hrecording.trans hnext.finalizer.recordingOf.symm) (ih hnext)
  | @expired second next timer armed observations harmed hpod hstep _ ih =>
      have harmed' := (hshifted.finalizer.timers timer armed hpod).mpr harmed
      obtain rfl := Option.some.inj ((Finalization.step_expire harmed).symm.trans hstep)
      exact .expired harmed' hpod (Finalization.step_expire harmed') (ih (hshifted.expire timer))
  | @finalized second next timer armed recording rest hpatching hpod hstep hrecording _ ih =>
      have hpatching' := (hshifted.patching timer armed hpod).mpr hpatching
      obtain rfl := Option.some.inj ((Finalization.step_finalize hpatching).symm.trans hstep)
      exact .finalized hpatching' hpod (Finalization.step_finalize hpatching')
        (hrecording.trans hshifted.finalizer.recordingOf.symm) (ih (hshifted.patch timer))

theorem behavesLike (hshifted : ShiftedFinalization pod shift first second) :
    BehavesLike config pod first second :=
  fun _ => ⟨hshifted.shows_second, hshifted.shows_first⟩

end ShiftedFinalization

/-! ## What a deletion leaves behind -/

/-- A ready pod of the given name and namespace. -/
def readyPod (pod : String × String) : Pod :=
  { watchedPod true with name := pod.1, nameSpace := pod.2 }

theorem add_of_entry {finalizer next : Finalizer} {state : PodProfileFinalizerState}
    (hentry : finalizer.podFinalizerState.lookup (podKey pod) = some state)
    (hadd : finalizer.handlePodAddEvent config (readyPod pod) = some next) :
    next.nextTimer = finalizer.nextTimer + 1 := by
  have hready : (readyPod pod).ready = true := rfl
  have hentry : finalizer.podFinalizerState.lookup
    (generateTableKey (readyPod pod).name (readyPod pod).nameSpace) = some state := hentry
  simp only [Finalizer.handlePodAddEvent, hentry, hready, if_true] at hadd
  obtain ⟨started, hstart, rfl⟩ := Option.map_eq_some_iff.mp hadd
  rw [Finalizer.startFinalizationTimer_eq hstart]

/-- No timer that expires in between keeps the addition of a ready pod from starting one. -/
theorem not_shows_of_entry {finalization : Finalization} {observations rest : List Observation}
    {recording : Bool} (hshows : Shows config pod finalization observations)
    (hadded : observations = .handled (.handlePodAddEvent (readyPod pod)) false recording :: rest) :
    ∀ state, finalization.finalizer.podFinalizerState.lookup (podKey pod) ≠ some state := by
  induction hshows with
  | nil => cases hadded
  | handled habout hstep hstarted =>
      rintro state hentry
      obtain ⟨rfl, rfl, _⟩ := Observation.handled.inj (List.cons.inj hadded).1
      refine Bool.false_ne_true (hstarted.mpr ?_)
      rw [add_of_entry hentry (Finalization.step_call hstep).1]
      exact Nat.succ_ne_self _
  | expired harmed hpod hstep _ ih =>
      obtain rfl := Option.some.inj ((Finalization.step_expire harmed).symm.trans hstep)
      exact ih hadded
  | finalized => cases hadded

/-- The addition of a ready pod to an entry that was left behind starts a timer. -/
theorem not_behavesLike_of_entry {finalization : Finalization} {state : PodProfileFinalizerState}
    (hentry : finalization.finalizer.podFinalizerState.lookup (podKey pod) = some state) :
    ¬ BehavesLike config pod finalization .empty := by
  intro hlike
  have hadd : Finalization.empty.step config (.call (.handlePodAddEvent (readyPod pod))) = some
      ⟨Finalizer.empty.setState (podKey pod) { podName := pod.1, nameSpace := pod.2 },
        fun _ => none⟩ := by
    simp [Finalization.step, FinalizerCall.on, Finalizer.handlePodAddEvent, Finalization.empty,
      Finalization.patchingAfter, Finalizer.empty, podKey, readyPod]
  have hunstarted : false = true ↔ (Finalizer.empty.setState (podKey pod)
      { podName := pod.1, nameSpace := pod.2 }).nextTimer ≠ Finalizer.empty.nextTimer :=
    iff_of_false Bool.false_ne_true fun hne => hne rfl
  have hshown := (hlike _).mpr (.handled rfl hadd hunstarted rfl (.nil _))
  exact not_shows_of_entry hshown rfl state hentry

/-- Nothing is patched from the empty table. -/
theorem not_shows_finalized {recording : Bool} {rest : List Observation} :
    ¬ Shows config pod .empty (.finalized recording :: rest) := by
  intro hshows
  cases hshows with
  | expired harmed => cases harmed
  | finalized hpatching => cases hpatching

/-- A patch that is left to do is done. -/
theorem shows_of_patching {finalization : Finalization} {timer : Nat} {armed : Pod}
    (hpatching : finalization.patching timer = some armed)
    (hpod : (armed.name, armed.nameSpace) = pod) :
    Shows config pod finalization [.finalized (finalization.finalizer.recordingOf pod)] :=
  .finalized hpatching hpod (Option.map_eq_some_iff.mpr ⟨armed, hpatching, rfl⟩) rfl (.nil _)

/-- A timer that was left behind expires, if it has not, and its goroutine patches. -/
theorem not_behavesLike_of_pending {finalization : Finalization} {timer : Nat} {armed : Pod}
    (hpending : finalization.Pending timer armed) (hpod : (armed.name, armed.nameSpace) = pod) :
    ¬ BehavesLike config pod finalization .empty := by
  intro hlike
  rcases hpending with harmed | hpatching
  · have hpatching : finalization.patchingAfter (.timerExpired timer) timer = some armed := by
      rw [Finalization.patchingAfter, Function.update_self, harmed]
    have hshown : Shows config pod ⟨finalization.finalizer.expire timer,
        finalization.patchingAfter (.timerExpired timer)⟩ _ :=
      shows_of_patching hpatching hpod
    exact not_shows_finalized
      ((hlike _).mp (.expired harmed hpod (Finalization.step_expire harmed) hshown))
  · exact not_shows_finalized ((hlike _).mp (shows_of_patching hpatching hpod))

namespace Finalizer

variable {finalizer : Finalizer} {key : String}

theorem lookup_setState_eq_none {other : String} {state : PodProfileFinalizerState} :
    (finalizer.setState other state).podFinalizerState.lookup key = none ↔
      finalizer.podFinalizerState.lookup key = none ∧ other ≠ key := by
  by_cases hkey : key = other
  · rw [hkey]
    simp [setState]
  · simp [setState, Finmap.lookup_insert_of_ne _ hkey, Ne.symm hkey]

/-- An entry that is replaced. -/
theorem lookup_setState_of_entry {other : String} {before state : PodProfileFinalizerState}
    (hentry : finalizer.podFinalizerState.lookup other = some before) :
    (finalizer.setState other state).podFinalizerState.lookup key = none ↔
      finalizer.podFinalizerState.lookup key = none := by
  rw [lookup_setState_eq_none]
  refine and_iff_left_of_imp ?_
  rintro hmissing rfl
  rw [hmissing] at hentry
  cases hentry

theorem stopTimer_of_missing {name nameSpace : String}
    (hmissing : finalizer.podFinalizerState.lookup (generateTableKey name nameSpace) = none) :
    finalizer.stopTimer name nameSpace = finalizer := by
  simp only [stopTimer, hmissing]

/-- A stop does not remove the entry of the pod. -/
theorem lookup_stopTimer_eq_none {name nameSpace : String} :
    (finalizer.stopTimer name nameSpace).podFinalizerState.lookup key = none ↔
      finalizer.podFinalizerState.lookup key = none := by
  unfold stopTimer
  split
  next => exact Iff.rfl
  next state hstate =>
    split
    next => exact Iff.rfl
    next => exact lookup_setState_of_entry hstate

end Finalizer

theorem Finalization.behavesLike_stopTimer_iff {finalization : Finalization} :
    BehavesLike config pod
        { finalization with finalizer := finalization.finalizer.stopTimer pod.1 pod.2 } .empty ↔
      finalization.finalizer.podFinalizerState.lookup (podKey pod) = none ∧
        ∀ timer armed, finalization.Pending timer armed → (armed.name, armed.nameSpace) ≠ pod := by
  constructor
  · intro hlike
    have hentry : finalization.finalizer.podFinalizerState.lookup (podKey pod) = none := by
      by_contra hfound
      rw [← Finalizer.lookup_stopTimer_eq_none, ← ne_eq, Option.ne_none_iff_exists'] at hfound
      obtain ⟨state, hstate⟩ := hfound
      exact not_behavesLike_of_entry hstate hlike
    rw [Finalizer.stopTimer_of_missing hentry] at hlike
    refine ⟨hentry, ?_⟩
    intro timer armed hpending hpod
    exact not_behavesLike_of_pending hpending hpod hlike
  · rintro ⟨hentry, hnone⟩
    rw [Finalizer.stopTimer_of_missing hentry]
    exact (shifted_empty hentry hnone).behavesLike

/-! ## Histories -/

/-- The call makes an entry under the key if there is none. -/
def FinalizerCall.Enters (key : String) : FinalizerCall → Prop
  | .handlePodAddEvent pod => generateTableKey pod.name pod.nameSpace = key
  | .setRecording name nameSpace => generateTableKey name nameSpace = key
  | _ => False

open Finalizer in
theorem FinalizerCall.on_lookup {call : FinalizerCall} {key : String} {finalizer next : Finalizer}
    (hcall : call.on config finalizer = some next) :
    next.podFinalizerState.lookup key = none ↔
      finalizer.podFinalizerState.lookup key = none ∧ ¬ call.Enters key := by
  cases call with
  | handlePodAddEvent pod =>
      simp only [FinalizerCall.on, Finalizer.handlePodAddEvent] at hcall
      split at hcall
      next =>
        cases hcall
        exact lookup_setState_eq_none
      next state hstate =>
        -- A pod that has an entry does not enter again.
        have hkept : finalizer.podFinalizerState.lookup key = none →
            ¬ generateTableKey pod.name pod.nameSpace = key := by
          rintro hmissing rfl
          rw [hmissing] at hstate
          cases hstate
        refine Iff.trans ?_ (and_iff_left_of_imp hkept).symm
        split at hcall
        · obtain ⟨started, hstart, rfl⟩ := Option.map_eq_some_iff.mp hcall
          rw [startFinalizationTimer_eq hstart]
        · cases hcall
          exact Iff.rfl
  | handlePodUpdateEvent pod =>
      simp only [FinalizerCall.Enters, not_false_eq_true, and_true]
      cases handlePodUpdateEvent_cases hcall with
      | notRecording | timerRunning => exact Iff.rfl
      | started _ hstate hstart =>
          rw [startFinalizationTimer_eq hstart]
          exact lookup_setState_of_entry hstate
      | stopped => exact lookup_stopTimer_eq_none
  | handlePodDeleteEvent pod =>
      simp only [FinalizerCall.Enters, not_false_eq_true, and_true]
      cases hcall
      exact lookup_stopTimer_eq_none
  | markAttachedPod pod =>
      simp only [FinalizerCall.Enters, not_false_eq_true, and_true]
      simp only [FinalizerCall.on, Finalizer.markAttachedPod] at hcall
      split at hcall
      · obtain ⟨started, hstart, rfl⟩ := Option.map_eq_some_iff.mp hcall
        rw [startFinalizationTimer_eq hstart]
      · cases hcall
        exact Iff.rfl
  | setRecording name nameSpace =>
      cases hcall
      unfold Finalizer.setRecording
      split <;> exact lookup_setState_eq_none
  | markPodNotRecording name nameSpace =>
      simp only [FinalizerCall.Enters, not_false_eq_true, and_true]
      cases hcall
      unfold Finalizer.markPodNotRecording
      split
      next => exact Iff.rfl
      next state hstate => exact lookup_setState_of_entry hstate
  | timerExpired timer =>
      simp only [FinalizerCall.Enters, not_false_eq_true, and_true]
      obtain ⟨_, _, rfl⟩ := Option.map_eq_some_iff.mp hcall
      exact Iff.rfl

/-- An entry comes from a call that makes one, and stays. -/
theorem lookup_eq_none_iff {history : List FinalizationStep} {key : String}
    {finalization : Finalization}
    (hrun : (finalizationMachine config).run .empty history = some finalization) :
    finalization.finalizer.podFinalizerState.lookup key = none ↔
      ∀ call, .call call ∈ history → ¬ call.Enters key := by
  refine (finalizationMachine config).run_history_invariant (fun history finalization =>
    finalization.finalizer.podFinalizerState.lookup key = none ↔
      ∀ call, .call call ∈ history → ¬ call.Enters key) ?_ ?_ hrun
  · exact iff_of_true (Finmap.lookup_empty key) nofun
  · intro history before step after _ hbefore hstep
    cases step with
    | call made =>
        rw [FinalizerCall.on_lookup (Finalization.step_call hstep).1, hbefore]
        simp only [List.mem_append, List.mem_singleton, or_imp, forall_and,
          FinalizationStep.call.injEq, forall_eq]
    | finalizePodProfile timer =>
        obtain ⟨_, _, rfl⟩ := Option.map_eq_some_iff.mp hstep
        rw [hbefore]
        simp

/-- After the deletion of a pod the finalizer treats a new pod of that name like the first
one, exactly if it has never heard of a pod of that key, no timer is armed for it, and no
expired timer of it has its patch still to come. -/
theorem behavesLike_empty_iff {history : List FinalizationStep}
    {finalization deleted : Finalization} {gone : Pod}
    (hrun : (finalizationMachine config).run .empty history = some finalization)
    (hdelete : finalization.step config (.call (.handlePodDeleteEvent gone)) = some deleted) :
    BehavesLike config (gone.name, gone.nameSpace) deleted .empty ↔
      (∀ call, .call call ∈ history →
        ¬ call.Enters (generateTableKey gone.name gone.nameSpace)) ∧
      ∀ timer armed, finalization.Pending timer armed →
        (armed.name, armed.nameSpace) ≠ (gone.name, gone.nameSpace) := by
  obtain rfl := Option.some.inj hdelete
  rw [← lookup_eq_none_iff hrun]
  exact Finalization.behavesLike_stopTimer_iff

/-- Another pod is recorded and finalized, and the update and the deletion of nginx are all that
is heard of it. -/
def unknownPod : List FinalizationStep :=
  [.call (.handlePodAddEvent (readyPod ("redis", "default"))),
    .call (.setRecording "redis" "default"),
    .call (.handlePodUpdateEvent (readyPod ("redis", "default"))),
    .call (.handlePodUpdateEvent (watchedPod true)), .call (.timerExpired 0),
    .finalizePodProfile 0]

theorem unknownPod_behavesLike_empty :
    ∃ finalization deleted,
      (finalizationMachine mainConfig).run .empty unknownPod = some finalization ∧
      finalization.step mainConfig (.call (.handlePodDeleteEvent (watchedPod true))) =
        some deleted ∧
      BehavesLike mainConfig ("nginx", "default") deleted .empty := by
  refine ⟨_, _, rfl, rfl,
    (@behavesLike_empty_iff mainConfig unknownPod _ _ (watchedPod true) rfl rfl).mpr ⟨?_, ?_⟩⟩
  · simp [unknownPod, FinalizerCall.Enters, readyPod, watchedPod, generateTableKey]
  · -- The timer of the other pod has expired, and its goroutine has patched.
    rintro (_ | timer) armed (harmed | hpatching)
    · cases harmed
    · cases hpatching
    · cases harmed
    · cases hpatching

/-- The pod was added once, and its entry makes the next addition start a timer. -/
theorem nginx_entry_left_behind :
    ¬ ∀ (config : CollectorManagerConfig) (history : List FinalizationStep)
      (finalization deleted : Finalization) (gone : Pod),
      (∀ call, .call call ∈ history → ∀ pod, call.about = some pod →
        pod = (gone.name, gone.nameSpace)) →
      (finalizationMachine config).run .empty history = some finalization →
      finalization.step config (.call (.handlePodDeleteEvent gone)) = some deleted →
      BehavesLike config (gone.name, gone.nameSpace) deleted .empty := by
  intro hclaim
  have hlike := hclaim mainConfig [.call (.handlePodAddEvent (watchedPod false))] _ _
    (watchedPod false) ?_ rfl rfl
  · exact @not_behavesLike_of_entry _ _ _ { podName := "nginx", nameSpace := "default" } rfl hlike
  · intro call hcall pod habout
    obtain rfl := FinalizationStep.call.inj (List.mem_singleton.mp hcall)
    exact (Option.some.inj habout).symm

end Kapprofiler.Collector
