import Kapprofiler.Collector.MountCache
import Kapprofiler.Collector.SingleTimer
import Kapprofiler.Foundation.Segments

/-! # The table entries of two pods

The table of the finalizer and the cache of mounts know a pod by its name and namespace,
joined by a hyphen. Both may contain hyphens too, so the calls for one pod leave the other
pod's entries alone exactly when their names do not have the same segments in the same
order.
-/

namespace Kapprofiler.Collector

open Foundation

/-- The key of a pod, given by name and namespace, in both tables. -/
def podKey (pod : String × String) : String := generateTableKey pod.1 pod.2

/-- The parts of name and namespace between their hyphens, one after the other. -/
def podSegments (pod : String × String) : List (List Char) :=
  segments '-' pod.1 ++ segments '-' pod.2

theorem podKey_eq_iff {pod other : String × String} :
    podKey pod = podKey other ↔ podSegments pod = podSegments other := by
  have hhyphen : "-" = String.singleton '-' := rfl
  unfold podKey podSegments generateTableKey
  rw [← segments_inj '-', hhyphen, segments_join, segments_join]

/-! ## The calls for one pod -/

/-- What happens to a manager, or one more call to its finalizer. -/
inductive PodLabel
  | step (label : Label)
  | call (call : FinalizerCall)

def podStep (config : CollectorManagerConfig) (system : System) : PodLabel → Option System
  | .step label => Collector.step config system label
  | .call call => (call.on config system.world.finalizer).map system.withFinalizer

/-- The machine of a manager whose `MarkPodRecording` and `MarkPodNotRecording` may be
called from outside. -/
def podMachine (config : CollectorManagerConfig) : Machine System PodLabel where
  init := Initial
  step := podStep config

def Call.pod : Call → String × String
  | .containerStarted id _ _ | .collectContainerEvents id _ => (id.podName, id.nameSpace)
  | .finalizeProfile nameSpace podName _ | .deleteProfile nameSpace podName _ =>
      (podName, nameSpace)

/-- The step belongs to a pod event or a start or stop of a container of the pod. A start
that asks the cluster for the pod is answered with that pod. -/
def Label.About (pod : String × String) (system : System) : Label → Prop
  | .containerStarted id _ | .containerStopped id => (id.podName, id.nameSpace) = pod
  | .podAdded added | .podUpdated added | .podDeleted added => (added.name, added.nameSpace) = pod
  | .advance call answers => (∀ current ∈ system.calls[call]?, current.pod = pod) ∧
      ∀ found ∈ answers.cluster.pods pod.2 pod.1, (found.name, found.nameSpace) = pod
  | .timerExpired _ | .sink _ | .finalizationTimerExpired _ | .finalizeApplicationProfile _ =>
      False

def PodLabel.About (pod : String × String) (system : System) : PodLabel → Prop
  | .step label => label.About pod system
  | .call made => made.about = some pod

/-! ## What is seen for a pod -/

variable {config : CollectorManagerConfig} {pod other : String × String}

/-- The finalizer has the same entry and the same timers for the pod. -/
structure Finalizer.SameEntry (pod : String × String) (before after : Finalizer) : Prop where
  state : after.podFinalizerState.lookup (podKey pod) =
    before.podFinalizerState.lookup (podKey pod)
  timers : ∀ timer armed, (armed.name, armed.nameSpace) = pod →
    (after.timers timer = some armed ↔ before.timers timer = some armed)

namespace Finalizer

variable {finalizer next after : Finalizer}

theorem SameEntry.refl (pod : String × String) (finalizer : Finalizer) :
    SameEntry pod finalizer finalizer :=
  ⟨rfl, fun _ _ _ => Iff.rfl⟩

theorem SameEntry.trans (hfirst : SameEntry pod finalizer next)
    (hsecond : SameEntry pod next after) : SameEntry pod finalizer after where
  state := hsecond.state.trans hfirst.state
  timers := fun timer armed harmed =>
    (hsecond.timers timer armed harmed).trans (hfirst.timers timer armed harmed)

end Finalizer

/-- The mounts of the pod are cached as before, too. -/
structure SameView (pod : String × String) (before after : System) : Prop where
  entry : Finalizer.SameEntry pod before.world.finalizer after.world.finalizer
  mounts : after.world.podMountCache.lookup (podKey pod) =
    before.world.podMountCache.lookup (podKey pod)

theorem SameView.refl (pod : String × String) (system : System) : SameView pod system system :=
  ⟨.refl pod _, rfl⟩

theorem SameView.trans {before middle after : System} (hfirst : SameView pod before middle)
    (hsecond : SameView pod middle after) : SameView pod before after where
  entry := hfirst.entry.trans hsecond.entry
  mounts := hsecond.mounts.trans hfirst.mounts

/-- No sequence of calls for the first pod changes what is seen for the second. -/
def Isolated (config : CollectorManagerConfig) (pod other : String × String) : Prop :=
  ∀ before labels after, (podMachine config).Reachable before →
    (podMachine config).Along (fun system label => label.About pod system) before labels →
    (podMachine config).run before labels = some after → SameView other before after

/-! ## The entries of the finalizer -/

namespace Finalizer

variable {finalizer next : Finalizer}

/-- Every timer has been started, and an entry does not point to a timer of a pod with
another key. -/
structure OwnTimers (finalizer : Finalizer) : Prop where
  started : finalizer.Started Set.univ
  stored : ∀ key timer, finalizer.storedTimer key = some timer → timer < finalizer.nextTimer ∧
    ∀ armed, finalizer.timers timer = some armed →
      generateTableKey armed.name armed.nameSpace = key

theorem ownTimers_empty : empty.OwnTimers := by
  constructor
  · exact nofun
  · intro key timer hstored
    simp [storedTimer, empty] at hstored

theorem sameEntry_setState {key : String} (hkey : podKey pod ≠ key)
    (state : PodProfileFinalizerState) :
    SameEntry pod finalizer (finalizer.setState key state) where
  state := Finmap.lookup_insert_of_ne _ hkey
  timers := fun _ _ _ => Iff.rfl

theorem sameEntry_arm (hstarted : finalizer.Started Set.univ) {armed : Pod}
    (hother : (armed.name, armed.nameSpace) ≠ pod) :
    SameEntry pod finalizer (finalizer.arm armed) where
  state := rfl
  timers := by
    intro timer found hfound
    constructor
    · intro hafter
      refine (armed_of_arm hafter).resolve_right ?_
      rintro ⟨_, rfl⟩
      exact hother hfound
    · intro hbefore
      have hlt := (hstarted timer found hbefore).1
      rw [arm_timers_of_lt hlt]
      exact hbefore

theorem sameEntry_stopTimer (hown : finalizer.OwnTimers) {name nameSpace : String}
    (hkey : podKey pod ≠ generateTableKey name nameSpace) :
    SameEntry pod finalizer (finalizer.stopTimer name nameSpace) where
  state := by
    unfold stopTimer
    split
    · rfl
    · split
      · rfl
      · exact Finmap.lookup_insert_of_ne _ hkey
  timers := by
    intro timer found hfound
    rw [stopTimer_armed]
    refine and_iff_left_of_imp ?_
    intro hbefore hstored
    have howner := (hown.stored _ timer hstored).2 found hbefore
    rw [← hfound] at hkey
    exact hkey howner

/-- The timer is started, and stored in the entry of its pod or nowhere. -/
theorem OwnTimers.arm (hown : finalizer.OwnTimers) {armed : Pod}
    (htimers : next.timers = (finalizer.arm armed).timers)
    (hnext : next.nextTimer = finalizer.nextTimer + 1)
    (hstored : ∀ key timer, next.storedTimer key = some timer →
      finalizer.storedTimer key = some timer ∨
        key = generateTableKey armed.name armed.nameSpace ∧ timer = finalizer.nextTimer) :
    ∀ key timer, next.storedTimer key = some timer → timer < next.nextTimer ∧
      ∀ found, next.timers timer = some found →
        generateTableKey found.name found.nameSpace = key := by
  intro key timer hpoints
  rw [hnext]
  rcases hstored key timer hpoints with hbefore | ⟨rfl, rfl⟩
  · obtain ⟨hlt, howner⟩ := hown.stored key timer hbefore
    refine ⟨Nat.lt_succ_of_lt hlt, ?_⟩
    rw [htimers, arm_timers_of_lt hlt]
    exact howner
  · refine ⟨Nat.lt_succ_self _, ?_⟩
    intro found hfound
    rw [htimers, arm_timers_self] at hfound
    cases hfound
    rfl

end Finalizer

namespace FinalizerCall.Effect

open Finalizer

variable {finalizer next : Finalizer} {call : FinalizerCall}

theorem ownTimers (heffect : Effect finalizer call next) (hown : finalizer.OwnTimers) :
    next.OwnTimers := by
  refine ⟨heffect.started hown.started fun _ _ => trivial, ?_⟩
  cases heffect with
  | kept => exact hown.stored
  | entered _ htimer =>
      intro key timer hstored
      rw [storedTimer_setState_same htimer] at hstored
      exact hown.stored key timer hstored
  | stopped =>
      intro key timer hstored
      rw [storedTimer_stopTimer] at hstored
      split at hstored
      · cases hstored
      · rw [stopTimer_nextTimer]
        obtain ⟨hlt, howner⟩ := hown.stored key timer hstored
        exact ⟨hlt, fun armed harmed => howner armed (stopTimer_timers.mp harmed).1⟩
  | armed => exact hown.arm rfl rfl fun key timer hstored => .inl hstored
  | stored _ _ htimer =>
      refine hown.arm rfl rfl ?_
      intro key timer hstored
      rw [storedTimer_setState] at hstored
      split at hstored
      next hkey =>
        rw [htimer] at hstored
        exact .inr ⟨hkey, (Option.some.inj hstored).symm⟩
      next => exact .inl hstored
  | expired =>
      intro key timer hstored
      obtain ⟨hlt, howner⟩ := hown.stored key timer hstored
      exact ⟨hlt, fun armed harmed => howner armed (armed_of_expire harmed)⟩

/-- A call for one pod keeps the entries and timers of the pods with other keys. -/
theorem sameEntry (heffect : Effect finalizer call next) (hown : finalizer.OwnTimers)
    (habout : call.about = some pod) (hkey : podKey pod ≠ podKey other) :
    SameEntry other finalizer next := by
  cases heffect with
  | kept => exact .refl other finalizer
  | entered hentered =>
      obtain rfl := Option.some.inj (habout.symm.trans hentered)
      exact sameEntry_setState hkey.symm _
  | stopped hstopped =>
      obtain rfl := Option.some.inj (habout.symm.trans hstopped)
      exact sameEntry_stopTimer hown hkey.symm
  | armed harmed =>
      obtain rfl := Option.some.inj (habout.symm.trans harmed)
      exact sameEntry_arm hown.started fun heq => hkey (congrArg podKey heq)
  | stored hupdate =>
      subst hupdate
      obtain rfl := Option.some.inj habout
      exact (sameEntry_arm hown.started fun heq => hkey (congrArg podKey heq)).trans
        (sameEntry_setState hkey.symm _)
  | expired hexpired =>
      subst hexpired
      cases habout

end FinalizerCall.Effect

/-- Any sequence of calls for one pod does. -/
theorem sameEntry_of_run {finalizer last : Finalizer} {calls : List FinalizerCall}
    (hown : finalizer.OwnTimers) (habout : ∀ call ∈ calls, call.about = some pod)
    (hkey : podKey pod ≠ podKey other)
    (hrun : (finalizerMachine config).run finalizer calls = some last) :
    Finalizer.SameEntry other finalizer last := by
  induction calls generalizing finalizer with
  | nil =>
      obtain rfl := Option.some.inj hrun
      exact .refl other finalizer
  | cons call rest ih =>
      obtain ⟨next, hcall, hrest⟩ := (finalizerMachine config).run_cons.mp hrun
      obtain ⟨hfirst, habout⟩ := List.forall_mem_cons.mp habout
      have heffect := call.effect hcall
      exact (heffect.sameEntry hown hfirst hkey).trans (ih (heffect.ownTimers hown) habout hrest)

theorem ownTimers_of_run {finalizer last : Finalizer} {calls : List FinalizerCall}
    (hown : finalizer.OwnTimers)
    (hrun : (finalizerMachine config).run finalizer calls = some last) : last.OwnTimers :=
  (finalizerMachine config).run_invariant
    (fun _ call _ hown hcall => (call.effect hcall).ownTimers hown) hown hrun

/-! ## The steps of the manager -/

/-- The calls that a step makes to the finalizer. -/
def PodLabel.finalizerCalls (system : System) : PodLabel → List FinalizerCall
  | .step label => label.finalizerCalls system
  | .call made => [made]

theorem podStep_finalizer {system next : System} {label : PodLabel}
    (hstep : podStep config system label = some next) :
    (finalizerMachine config).run system.world.finalizer (label.finalizerCalls system) =
      some next.world.finalizer := by
  cases label with
  | step label => exact step_finalizer hstep
  | call call =>
      obtain ⟨finalizer, hcall, rfl⟩ := Option.map_eq_some_iff.mp hstep
      exact FinalizerCall.run_single hcall

theorem Call.finalizerCalls_about {call : Call} {answers : Answers} (hpod : call.pod = pod)
    (hfound : ∀ found ∈ answers.cluster.pods pod.2 pod.1, (found.name, found.nameSpace) = pod) :
    ∀ made ∈ call.finalizerCalls answers, made.about = some pod := by
  subst hpod
  unfold Call.finalizerCalls
  split
  next id =>
    split
    next found hpod => simpa [FinalizerCall.about, Call.pod] using hfound found hpod
    next => simp
  next => simp [FinalizerCall.about, Call.pod]
  next => simp [FinalizerCall.about, Call.pod]
  next => simp

theorem PodLabel.About.finalizerCalls {system : System} {label : PodLabel}
    (habout : label.About pod system) :
    ∀ made ∈ label.finalizerCalls system, made.about = some pod := by
  cases label with
  | call made =>
      intro made hmade
      rwa [List.mem_singleton.mp hmade]
  | step label =>
      cases label with
      | advance call answers =>
          simp only [PodLabel.finalizerCalls, Label.finalizerCalls]
          split
          next current hcurrent =>
            exact Call.finalizerCalls_about (habout.1 current hcurrent) habout.2
          next =>
            intro made hmade
            cases hmade
      | containerStopped id =>
          intro made hmade
          simp only [PodLabel.finalizerCalls, Label.finalizerCalls] at hmade
          split at hmade
          · rw [List.mem_singleton.mp hmade]
            exact congrArg some habout
          · cases hmade
      | podAdded added | podUpdated added | podDeleted added =>
          intro made hmade
          rw [List.mem_singleton.mp hmade]
          exact congrArg some habout
      | containerStarted =>
          intro made hmade
          cases hmade
      | _ => exact absurd habout id

/-- A start caches the mounts under the key of its own pod. -/
theorem startStep_mounts {id : ContainerId} {attach : Bool} {answers : Answers} {world : World}
    {state : StartState} {started : StartState × World} {key : String} (hkey : key ≠ mountKey id)
    (hstep : startStep config id attach answers world state = some started) :
    started.2.podMountCache.lookup key = world.podMountCache.lookup key := by
  cases state with
  | fetchMounts =>
      simp only [startStep] at hstep
      split at hstep <;> cases hstep
      · rfl
      · exact Finmap.lookup_insert_of_ne _ hkey
  | _ =>
      have hchange := startStep_change hstep
      cases hchange <;> rfl

/-- A stop forgets them under the key of its own pod. -/
theorem containerStopped_mounts {id : ContainerId} {world : World} {key : String}
    (hkey : key ≠ mountKey id) :
    (containerStopped world id).podMountCache.lookup key = world.podMountCache.lookup key := by
  by_cases htracked : id ∈ world.containers
  · rw [containerStopped_podMountCache htracked]
    split
    · rfl
    · exact Finmap.lookup_erase_ne hkey
  · rw [containerStopped, if_neg htracked]

theorem Call.step_mounts {call after : Call} {answers : Answers} {world next : World}
    {key : String} (hkey : key ≠ podKey call.pod)
    (hcall : call.step config answers world = some (after, next)) :
    next.podMountCache.lookup key = world.podMountCache.lookup key := by
  rcases Call.step_cases hcall with
    ⟨id, attach, state, started, rfl, hstart, _, rfl⟩ | ⟨id, state, rfl, _, _, rfl⟩ |
    ⟨nameSpace, podName, rfl, _, rfl⟩ | ⟨nameSpace, podName, rfl, _, rfl⟩
  · exact startStep_mounts hkey hstart
  · rw [collectStep_podMountCache]
  · obtain ⟨profiles, heq⟩ := finalizeProfile_eq config answers world nameSpace podName
    rw [heq]
  · obtain ⟨profiles, heq⟩ := deleteProfile_eq config answers world nameSpace podName
    rw [heq]

/-- A step for one pod keeps the cached mounts of the pods with other keys. -/
theorem PodLabel.About.mounts {system next : System} {label : PodLabel}
    (habout : label.About pod system) (hkey : podKey pod ≠ podKey other)
    (hstep : podStep config system label = some next) :
    next.world.podMountCache.lookup (podKey other) =
      system.world.podMountCache.lookup (podKey other) := by
  cases label with
  | call made =>
      obtain ⟨finalizer, _, rfl⟩ := Option.map_eq_some_iff.mp hstep
      rfl
  | step label =>
      rcases step_cases hstep with
        ⟨call, answers, current, after, rfl, hcurrent, hcall, _⟩ | ⟨launched, hchange, _⟩
      · apply Call.step_mounts _ hcall
        rw [habout.1 current hcurrent]
        exact hkey.symm
      · generalize next.world = world at hchange
        cases hchange with
        | stopped id =>
            apply containerStopped_mounts
            have hpod : podKey pod = mountKey id := by
              rw [← habout]
              rfl
            rw [← hpod]
            exact hkey.symm
        | _ => rfl

theorem PodLabel.About.sameView {system next : System} {label : PodLabel}
    (habout : label.About pod system) (hown : system.world.finalizer.OwnTimers)
    (hkey : podKey pod ≠ podKey other) (hstep : podStep config system label = some next) :
    SameView other system next where
  entry := sameEntry_of_run hown habout.finalizerCalls hkey (podStep_finalizer hstep)
  mounts := habout.mounts hkey hstep

/-! ## Whole runs -/

theorem ownTimers_of_step {system next : System} {label : PodLabel}
    (hown : system.world.finalizer.OwnTimers) (hstep : podStep config system label = some next) :
    next.world.finalizer.OwnTimers :=
  ownTimers_of_run hown (podStep_finalizer hstep)

theorem reachable_ownTimers {system : System} (hreach : (podMachine config).Reachable system) :
    system.world.finalizer.OwnTimers := by
  refine hreach.invariant ?_ fun _ _ _ => ownTimers_of_step
  intro start hinit
  rw [hinit.2.2.2.1]
  exact Finalizer.ownTimers_empty

theorem sameView_of_run {system last : System} {labels : List PodLabel}
    (hown : system.world.finalizer.OwnTimers) (hkey : podKey pod ≠ podKey other)
    (habout : (podMachine config).Along (fun system label => label.About pod system) system labels)
    (hrun : (podMachine config).run system labels = some last) : SameView other system last := by
  induction labels generalizing system with
  | nil =>
      obtain rfl := Option.some.inj hrun
      exact .refl other system
  | cons label rest ih =>
      obtain ⟨next, hstep, hrest⟩ := (podMachine config).run_cons.mp hrun
      have hfirst := habout.1.sameView hown hkey hstep
      exact hfirst.trans (ih (ownTimers_of_step hown hstep) (habout.2 next hstep) hrest)

/-- Pods of one key share their entries: the mark of one is the other's. -/
theorem not_isolated (hkey : podKey pod = podKey other) : ¬ Isolated config pod other := by
  intro hisolated
  have hreach : (podMachine config).Reachable freshSystem :=
    ⟨freshSystem, [], initial_freshSystem, rfl⟩
  have hview := hisolated freshSystem [.call (.setRecording pod.1 pod.2)] _ hreach
    ⟨rfl, fun _ _ => trivial⟩ rfl
  have hentry := hview.entry.state
  have hmarked : Finalizer.empty.setRecording pod.1 pod.2 =
      Finalizer.empty.setState (podKey pod)
        { podName := pod.1, nameSpace := pod.2, recording := true } := by
    unfold Finalizer.setRecording
    simp [Finalizer.empty, podKey]
  change (Finalizer.empty.setRecording pod.1 pod.2).podFinalizerState.lookup (podKey other) =
    none at hentry
  rw [hmarked, ← hkey] at hentry
  simp [Finalizer.setState] at hentry

/-- The calls for one pod leave the other pod's entries alone exactly if the names of the
two do not have the same segments. -/
theorem isolated_iff : Isolated config pod other ↔ podSegments pod ≠ podSegments other := by
  rw [← podKey_eq_iff.ne]
  constructor
  · exact fun hisolated hkey => not_isolated hkey hisolated
  · intro hkey before labels after hreach habout hrun
    exact sameView_of_run (reachable_ownTimers hreach) hkey habout hrun

/-- The pod `web-blue` in `prod`, and `web` in `blue-prod`. -/
theorem blue_pods_mixed :
    ¬ ∀ (config : CollectorManagerConfig) (pod other : String × String), pod ≠ other →
      validName pod.1 = true → validName pod.2 = true → validName other.1 = true →
      validName other.2 = true → Isolated config pod other := by
  intro hclaim
  exact not_isolated (by decide) (hclaim mainConfig ("web-blue", "prod") ("web", "blue-prod")
    (by decide) (by decide) (by decide) (by decide) (by decide))

end Kapprofiler.Collector
