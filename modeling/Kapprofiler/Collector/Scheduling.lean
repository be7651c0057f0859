import Kapprofiler.Collector.Steps

/-! # Tracked containers and pending collections

A tracked container should always have a collection to come: a pending timer, or
a call that is still running. Every way out of a pass re-arms the timer or
untracks the container, with one exception: a pass that drains an empty batch
returns early.
-/

namespace Kapprofiler.Collector

open Foundation

variable {config : CollectorManagerConfig}

/-- Every tracked container has a pending timer or a running call. -/
def Scheduled (system : System) : Prop :=
  ∀ id ∈ system.world.containers, id ∈ system.world.timers ∨
    ∃ call ∈ system.calls, call.container = some id ∧ call.running = true

/-- A call that is bound to arm its container's timer or to untrack the container:
a start that is past its profile check, or a pass that has not given up yet. -/
def Call.rearms : Call → Bool
  | .containerStarted _ _ state =>
      state = .track ∨ state = .fetchMounts ∨ state = .startTrace ∨ state = .startTimer
  | .collectContainerEvents _ .failedPatch => false
  | .collectContainerEvents _ (.returned _) => false
  | .collectContainerEvents _ _ => true
  | _ => false

/-- The container has a pending timer, or a call other than the given one that is
bound to arm it or to untrack the container. -/
def ArmedBesides (system : System) (id : ContainerId) (call : Nat) : Prop :=
  id ∈ system.world.timers ∨ ∃ other current, other ≠ call ∧
    system.calls[other]? = some current ∧ current.container = some id ∧ current.rearms = true

/-- The call is a pass that has loaded an empty batch, so that its next step is
the early return. -/
def Call.hasEmptyBatch : Call → Bool
  | .collectContainerEvents _ (.load _ [] totalEvents) => !shouldProcessEvents totalEvents
  | _ => false

/-- The condition on a step: a pass may return early only if its container is no
longer tracked, or is armed besides this pass. -/
def EmptyBatchesCovered (system : System) : Label → Prop
  | .advance call _ => ∀ current ∈ system.calls[call]?, current.hasEmptyBatch = true →
      ∀ id ∈ current.container, id ∈ system.world.containers → ArmedBesides system id call
  | _ => True

instance (system : System) (id : ContainerId) (call : Nat) :
    Decidable (ArmedBesides system id call) :=
  decidable_of_iff (id ∈ system.world.timers ∨
      ∃ other ∈ List.range system.calls.length, other ≠ call ∧
        ∃ current ∈ system.calls[other]?,
          current.container = some id ∧ current.rearms = true) <| by
    unfold ArmedBesides
    apply or_congr_right
    constructor
    · rintro ⟨other, _, hne, current, hcurrent, hid, hrearms⟩
      exact ⟨other, current, hne, hcurrent, hid, hrearms⟩
    · rintro ⟨other, current, hne, hcurrent, hid, hrearms⟩
      have hlt := (List.getElem?_eq_some_iff.mp hcurrent).1
      exact ⟨other, List.mem_range.mpr hlt, hne, current, hcurrent, hid, hrearms⟩

instance (system : System) : DecidablePred (EmptyBatchesCovered system)
  | .advance call _ => inferInstanceAs (Decidable (∀ current ∈ system.calls[call]?,
      current.hasEmptyBatch = true →
      ∀ id ∈ current.container, id ∈ system.world.containers → ArmedBesides system id call))
  | .containerStarted _ _ | .containerStopped _ | .timerExpired _ | .sink _ | .podAdded _
  | .podUpdated _ | .podDeleted _ | .finalizationTimerExpired _
  | .finalizeApplicationProfile _ => isTrue trivial

/-- The invariant: timers and calls that are bound to re-arm cover all containers. -/
def Armed (system : System) : Prop :=
  ∀ id ∈ system.world.containers, id ∈ system.world.timers ∨
    ∃ (index : Nat) (call : Call), system.calls[index]? = some call ∧
      call.container = some id ∧ call.rearms = true

theorem Call.running_of_rearms {call : Call} (hrearms : call.rearms = true) :
    call.running = true := by
  cases call with
  | containerStarted id attach state => cases state <;> simp_all [rearms, running]
  | collectContainerEvents id state => cases state <;> simp_all [rearms, running]
  | finalizeProfile nameSpace podName returned => cases hrearms
  | deleteProfile nameSpace podName returned => cases hrearms

theorem Armed.scheduled {system : System} (harmed : Armed system) : Scheduled system := by
  intro id hid
  rcases harmed id hid with htimer | ⟨index, call, hcall, hcallId, hrearms⟩
  · exact Or.inl htimer
  · exact Or.inr ⟨call, List.mem_of_getElem? hcall, hcallId, call.running_of_rearms hrearms⟩

/-! ## One step -/

/-- Unless it is the early return on an empty batch, the step of a call bound to
re-arm leaves it bound, arms the timer, or untracks the container. -/
theorem Call.step_rearms {call next : Call} {answers : Answers} {world after : World}
    {id : ContainerId} (hstep : call.step config answers world = some (next, after))
    (hid : call.container = some id) (hrearms : call.rearms = true)
    (hbatch : call.hasEmptyBatch = false) :
    next.rearms = true ∨ id ∈ after.timers ∨ id ∉ after.containers := by
  cases call with
  | containerStarted other attach state =>
      cases hid
      obtain ⟨started, hstarted, heq⟩ := Option.map_eq_some_iff.mp hstep
      cases heq
      cases startStep_change hstarted with
      | track | mounts | trace => exact Or.inl rfl
      | timer | lastTimer => exact Or.inr (Or.inl (Multiset.mem_cons_self _ _))
      | _ => simp [rearms] at hrearms
  | collectContainerEvents other state =>
      cases hid
      cases state with
      | lookup =>
          simp only [step, collectStep] at hstep
          split at hstep <;> cases hstep
          · exact Or.inl rfl
          next hmissing =>
            -- Not tracked any more: the pass gives up, and rightly so.
            exact Or.inr (Or.inr (Finmap.lookup_eq_none.mp hmissing))
      | load state remaining totalEvents =>
          cases remaining with
          | nil =>
              have hprocess : shouldProcessEvents totalEvents = true := by
                simpa [hasEmptyBatch] using hbatch
              simp only [step, collectStep, hprocess] at hstep
              cases hstep
              exact Or.inl rfl
          | cons source rest => cases hstep; exact Or.inl rfl
      | get state containerProfile =>
          simp only [step, collectStep] at hstep
          split at hstep
          · cases hstep; exact Or.inl rfl
          · split at hstep
            · cases hstep; exact Or.inl rfl
            · split at hstep <;> cases hstep <;> exact Or.inl rfl
      | create state containerProfile =>
          simp only [step, collectStep] at hstep
          split at hstep <;> cases hstep <;> exact Or.inl rfl
      | limitPatch state containerProfile existing =>
          simp only [step, collectStep] at hstep
          split at hstep <;> cases hstep <;> exact Or.inl rfl
      | update state containerProfile existing =>
          simp only [step, collectStep] at hstep
          split at hstep <;> cases hstep <;> exact Or.inl rfl
      | removeFilter exit => cases hstep; exact Or.inl rfl
      | stopTrace exit => cases hstep; exact Or.inl rfl
      | markNotRecording exit => cases hstep; exact Or.inl rfl
      | untrack exit =>
          cases hstep
          exact Or.inr (Or.inr Finmap.notMem_erase_self)
      | failedPatch => simp [rearms] at hrearms
      | restartTimer exit =>
          cases hstep
          exact Or.inr (Or.inl (Multiset.mem_cons_self _ _))
      | returned exit => cases hstep
  | finalizeProfile nameSpace podName returned => cases hrearms
  | deleteProfile nameSpace podName returned => cases hrearms

/-- A step of a call keeps its container, removes no timer, and tracks no
container but its own, which it is then bound to arm. -/
theorem Call.step_frame {call next : Call} {answers : Answers} {world after : World}
    (hstep : call.step config answers world = some (next, after)) :
    next.container = call.container ∧ (∀ id ∈ world.timers, id ∈ after.timers) ∧
      ∀ id ∈ after.containers,
        id ∈ world.containers ∨ call.container = some id ∧ next.rearms = true := by
  rcases Call.step_cases hstep with
    ⟨id, attach, state, started, rfl, hstarted, rfl, rfl⟩ | ⟨id, state, rfl, _, rfl, rfl⟩ |
    ⟨nameSpace, podName, rfl, rfl, rfl⟩ | ⟨nameSpace, podName, rfl, rfl, rfl⟩
  · refine ⟨rfl, ?_⟩
    rcases startStep_cases hstarted with
      ⟨_, hnext, hcontainers, _, htimers, _⟩ | ⟨hcontainers, _, htimers, _⟩
    · rw [hcontainers, htimers]
      refine ⟨fun _ hother => hother, ?_⟩
      intro other hother
      rcases Finmap.mem_insert.mp hother with rfl | hold
      -- Whoever tracks a container goes on to arm its timer.
      · exact Or.inr ⟨rfl, by simp [rearms, hnext]⟩
      · exact Or.inl hold
    · rw [hcontainers]
      refine ⟨?_, fun _ hother => Or.inl hother⟩
      intro other hother
      rcases htimers with heq | ⟨_, heq⟩ <;> rw [heq]
      · exact hother
      · exact Multiset.mem_cons_of_mem hother
  · obtain ⟨hcontainers, htimers⟩ := collectStep_tracks config id answers world state
    refine ⟨rfl, ?_, ?_⟩
    · intro other hother
      rcases htimers with heq | ⟨_, _, heq⟩ <;> rw [heq]
      · exact hother
      · exact Multiset.mem_cons_of_mem hother
    · intro other hother
      rcases hcontainers with heq | ⟨_, heq⟩ <;> rw [heq] at hother
      · exact Or.inl hother
      · exact Or.inl (Finmap.mem_erase.mp hother).2
  · obtain ⟨profiles, heq⟩ := finalizeProfile_eq config answers world nameSpace podName
    rw [heq]
    exact ⟨rfl, fun _ hother => hother, fun _ hother => Or.inl hother⟩
  · obtain ⟨profiles, heq⟩ := deleteProfile_eq config answers world nameSpace podName
    rw [heq]
    exact ⟨rfl, fun _ hother => hother, fun _ hother => Or.inl hother⟩

/-- A step that launches calls keeps what is armed, if it tracks nothing new and keeps
the timers of what it keeps tracked. -/
theorem Armed.launched {system next : System} {launched : List Call} (harmed : Armed system)
    (hcontainers : ∀ id ∈ next.world.containers, id ∈ system.world.containers)
    (htimers : ∀ id ∈ next.world.containers, id ∈ system.world.timers →
      id ∈ next.world.timers ∨ .collectContainerEvents id .lookup ∈ launched)
    (hcalls : next.calls = system.calls ++ launched) : Armed next := by
  intro id hid
  rw [hcalls]
  rcases harmed id (hcontainers id hid) with htimer | ⟨index, call, hcall, hcallId, hrearms⟩
  · rcases htimers id hid htimer with hkept | hlaunched
    · exact Or.inl hkept
    · obtain ⟨index, hindex⟩ := List.mem_iff_getElem?.mp (List.mem_append_right _ hlaunched)
      exact Or.inr ⟨index, _, hindex, rfl, rfl⟩
  · refine Or.inr ⟨index, call, ?_, hcallId, hrearms⟩
    rw [List.getElem?_append_left (List.getElem?_eq_some_iff.mp hcall).1]
    exact hcall

theorem Armed.advance {system next : System} {call : Nat} {answers : Answers}
    (harmed : Armed system) (hcovered : EmptyBatchesCovered system (.advance call answers))
    (hstep : step config system (.advance call answers) = some next) : Armed next := by
  obtain ⟨current, after, hcurrent, hcall, hcalls⟩ := step_advance hstep
  obtain ⟨hafterId, htimers, hcontainers⟩ := Call.step_frame hcall
  have hset : (system.calls.set call after)[call]? = some after :=
    List.getElem?_set_self (List.getElem?_eq_some_iff.mp hcurrent).1
  -- Timers and calls other than the advanced one survive the step.
  have hsurvive : ∀ id, ArmedBesides system id call → id ∈ next.world.timers ∨
      ∃ (index : Nat) (other : Call), (system.calls.set call after)[index]? = some other ∧
        other.container = some id ∧ other.rearms = true := by
    rintro id (htimer | ⟨index, other, hne, hother, hotherId, hrearms⟩)
    · exact Or.inl (htimers id htimer)
    · refine Or.inr ⟨index, other, ?_, hotherId, hrearms⟩
      rwa [List.getElem?_set_ne (Ne.symm hne)]
  intro id hid
  rw [hcalls]
  rcases hcontainers id hid with hold | ⟨hcurrentId, hrearms⟩
  · rcases harmed id hold with htimer | ⟨index, other, hother, hotherId, hrearms⟩
    · exact hsurvive id (Or.inl htimer)
    · by_cases hindex : index = call
      · subst hindex
        have heq : other = current := Option.some.inj (hother.symm.trans hcurrent)
        subst heq
        -- The advanced call was the one that armed the container.
        cases hbatch : other.hasEmptyBatch with
        | true => exact hsurvive id (hcovered other hcurrent hbatch id hotherId hold)
        | false =>
            rcases Call.step_rearms hcall hotherId hrearms hbatch with hrearms' | htimer | hgone
            · exact Or.inr ⟨index, after, hset, hafterId.trans hotherId, hrearms'⟩
            · exact Or.inl htimer
            · exact absurd hid hgone
      · exact hsurvive id (Or.inr ⟨index, other, hindex, hother, hotherId, hrearms⟩)
  · exact Or.inr ⟨call, after, hset, hafterId.trans hcurrentId, hrearms⟩

theorem step_armed {system next : System} {label : Label} (harmed : Armed system)
    (hcovered : EmptyBatchesCovered system label)
    (hstep : step config system label = some next) : Armed next := by
  rcases step_cases hstep with
    ⟨call, answers, _, _, rfl, _, _, _⟩ | ⟨launched, hchange, hcalls⟩
  · exact harmed.advance hcovered hstep
  · generalize hworld : next.world = world at hchange
    cases hchange with
    | stopped id =>
        obtain ⟨hcontainers, htimers, _⟩ := containerStopped_untracks system.world id
        refine harmed.launched ?_ ?_ hcalls
        · rw [hworld, hcontainers]
          exact fun other hother => (Finmap.mem_erase.mp hother).2
        · rw [hworld, htimers]
          exact fun _ _ htimer => Or.inl htimer
    | expired id htimer =>
        refine harmed.launched (by simp [hworld]) ?_ hcalls
        intro other _ hother
        rw [hworld]
        -- The timer that fired is traded for the pass it launches.
        by_cases hne : other = id
        · exact Or.inr (hne ▸ List.mem_singleton_self _)
        · exact Or.inl ((Multiset.mem_erase_of_ne hne).mpr hother)
    | started id attach => exact harmed.launched (by simp [hworld]) (by simp [hworld]) hcalls
    | sink hsink => exact harmed.launched (by simp [hworld]) (by simp [hworld]) hcalls
    | finalizer finalizer hlaunched =>
        exact harmed.launched (by simp [hworld]) (by simp +contextual [hworld]) hcalls

/-- The early return changes nothing. -/
theorem Call.step_hasEmptyBatch {call next : Call} {answers : Answers} {world after : World}
    (hempty : call.hasEmptyBatch = true)
    (hstep : call.step config answers world = some (next, after)) :
    next.rearms = false ∧ after = world := by
  unfold hasEmptyBatch at hempty
  split at hempty
  next id state totalEvents =>
    have hprocess : shouldProcessEvents totalEvents = false := by simpa using hempty
    simp only [step, collectStep, hprocess] at hstep
    cases hstep
    exact ⟨rfl, rfl⟩
  next => cases hempty

/-- The condition is no stronger than needed: a step that violates it leaves its
container tracked with neither a timer nor a call bound to arm one. -/
theorem not_armed_of_uncovered {system next : System} {call : Nat} {answers : Answers}
    (huncovered : ¬ EmptyBatchesCovered system (.advance call answers))
    (hstep : step config system (.advance call answers) = some next) : ¬ Armed next := by
  simp only [EmptyBatchesCovered, not_forall] at huncovered
  obtain ⟨current, hcurrent, hempty, id, _, htracked, hbesides⟩ := huncovered
  obtain ⟨current', after, hcurrent', hcall, hcalls⟩ := step_advance hstep
  have heq : current' = current := Option.some.inj (hcurrent'.symm.trans hcurrent)
  subst heq
  obtain ⟨hreturned, hworld⟩ := Call.step_hasEmptyBatch hempty hcall
  intro harmed
  rcases harmed id (hworld ▸ htracked) with htimer | ⟨index, other, hother, hotherId, hrearms⟩
  · exact hbesides (Or.inl (hworld ▸ htimer))
  · rw [hcalls] at hother
    by_cases hindex : index = call
    · subst hindex
      have hset := List.getElem?_set_self (a := after)
        (List.getElem?_eq_some_iff.mp hcurrent).1
      rw [Option.some.inj (hother.symm.trans hset), hreturned] at hrearms
      exact Bool.false_ne_true hrearms
    · refine hbesides (Or.inr ⟨index, other, hindex, ?_, hotherId, hrearms⟩)
      rwa [List.getElem?_set_ne (Ne.symm hindex)] at hother

/-! ## Whole runs -/

/-- As long as no pass of a tracked container drains an empty batch without the
container being armed besides, every tracked container keeps a collection to
come, over all interleavings of starts, stops, passes and timers. -/
theorem run_scheduled {start last : System} {labels : List Label} (hinit : Initial start)
    (hcovered : (machine config).Along EmptyBatchesCovered start labels)
    (hrun : (machine config).run start labels = some last) : Scheduled last := by
  have hstart : Armed start := by
    intro id hid
    rw [hinit.1] at hid
    exact absurd hid Finmap.notMem_empty
  exact (Machine.run_invariant_along (machine config)
    (fun _ _ _ harmed hmeets hstep => step_armed harmed hmeets hstep)
    hstart hcovered hrun).scheduled

/-! ## A busy and an idle container -/

/-- The container starts, and its first pass finds a syscall. -/
def busyRun : List Label :=
  .containerStarted nginx false :: List.replicate 7 (.advance 0 {}) ++
    .timerExpired nginx :: List.replicate 11 (.advance 1 { peek := .ok ["read"] })

theorem busy_container_scheduled :
    ∃ last, (machine mainConfig).run freshSystem busyRun = some last ∧
      nginx ∈ last.world.containers ∧ Scheduled last := by
  obtain ⟨last, hrun, htracked⟩ : ∃ last,
      (machine mainConfig).run freshSystem busyRun = some last ∧
        nginx ∈ last.world.containers := ⟨_, rfl, by decide⟩
  exact ⟨last, hrun, htracked,
    run_scheduled initial_freshSystem (by decide) hrun⟩

/-- The container starts and stays idle until its timer expires. -/
def idleRun : List Label :=
  .containerStarted nginx false :: List.replicate 7 (.advance 0 {}) ++
    .timerExpired nginx :: List.replicate 8 (.advance 1 {})

theorem idle_container_unscheduled :
    ∃ system, (machine mainConfig).Reachable system ∧ ¬ Scheduled system := by
  refine ⟨_, ⟨freshSystem, idleRun, initial_freshSystem, rfl⟩, ?_⟩
  intro hscheduled
  rcases hscheduled nginx (by decide) with htimer | ⟨call, hcall, _, hrunning⟩
  · exact absurd htimer (by decide)
  · revert call
    decide

end Kapprofiler.Collector
