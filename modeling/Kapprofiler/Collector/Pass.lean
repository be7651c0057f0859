import Kapprofiler.Collector.Steps

/-! # Whole passes

A call of `CollectContainerEvents` that runs from its lookup to its return with
no other call in between: what it leaves behind, by the branch it returns by.
-/

namespace Kapprofiler.Collector

open Tracing Foundation

variable (config : CollectorManagerConfig) (id : ContainerId) (answers : Answers)

def passStep (pass : PassState × World) : PassState × World :=
  collectStep config id answers pass.2 pass.1

/-- No pass takes more than sixteen steps. -/
def collectContainerEvents (world : World) : PassState × World :=
  (passStep config id answers)^[16] (.lookup, world)

/-- All buckets of the container drained and its syscalls peeked, one after the other. -/
def loadTotalEvents (sink : EventSink) (peek : Except String (List String)) :
    TotalEvents × EventSink :=
  EventSource.all.foldl (fun loaded source => loadEvents id peek loaded.1 loaded.2 source)
    ({}, sink)

/-- Stop recording a container whose profile can no longer be written. -/
def stopRecording (world : World) : World :=
  (((world.removeFilter id).stopTraceContainer id).markPodNotRecording id).untrack id

namespace World

/-- What a pass drains and peeks. -/
def batch (world : World) : TotalEvents :=
  (loadTotalEvents id world.eventSink answers.peek).1

def drain (world : World) : World :=
  { world with eventSink := (loadTotalEvents id world.eventSink answers.peek).2 }

def built (world : World) : ContainerProfile :=
  buildContainerProfile config (world.mounts id) id.container (world.batch id answers)

/-- The stored profiles once a pass whose profile reaches the limit of open
events has marked the stored one. -/
def limitPatched (world : World) : VersionedStore (String × String) ApplicationProfile :=
  if maxOpenEvents ≤ (world.built config id answers).opens.length then
    (request answers.limitPatchFails (world.profiles.patch (id.profileKey config)
      (ApplicationProfile.mark failedLabel))).getD world.profiles
  else world.profiles

end World

/-- What a pass leaves behind, by the branch it returned by. -/
inductive Outcome (world : World) : PassExit → World → Prop
  | notTracked (hlookup : world.containers.lookup id = none) :
      Outcome world .notTracked world
  | noEvents (state : ContainerState) (hlookup : world.containers.lookup id = some state)
      (hbatch : shouldProcessEvents (world.batch id answers) = false) :
      Outcome world .noEvents (world.drain id answers)
  | created (state : ContainerState)
      (profiles : VersionedStore (String × String) ApplicationProfile)
      (hlookup : world.containers.lookup id = some state)
      (hbatch : shouldProcessEvents (world.batch id answers) = true)
      (hget : request answers.getFails (world.profiles.get (id.profileKey config)) = none)
      (hcreate : request answers.createFails (world.profiles.create (id.profileKey config)
        (newProfile config id state (world.built config id answers))) = some profiles) :
      Outcome world .created
        (World.startContainerTimer { world.drain id answers with profiles := profiles } id)
  | createFailed (state : ContainerState)
      (hlookup : world.containers.lookup id = some state)
      (hbatch : shouldProcessEvents (world.batch id answers) = true)
      (hget : request answers.getFails (world.profiles.get (id.profileKey config)) = none)
      (hcreate : request answers.createFails (world.profiles.create (id.profileKey config)
        (newProfile config id state (world.built config id answers))) = none) :
      Outcome world .createFailed ((world.drain id answers).startContainerTimer id)
  | final (state : ContainerState) (existing : Versioned ApplicationProfile)
      (hlookup : world.containers.lookup id = some state)
      (hbatch : shouldProcessEvents (world.batch id answers) = true)
      (hget : request answers.getFails (world.profiles.get (id.profileKey config)) =
        some existing)
      (hfinal : existing.value.isFinal) :
      Outcome world .final (stopRecording id (world.drain id answers))
  | updated (state : ContainerState) (existing : Versioned ApplicationProfile)
      (profiles : VersionedStore (String × String) ApplicationProfile)
      (hlookup : world.containers.lookup id = some state)
      (hbatch : shouldProcessEvents (world.batch id answers) = true)
      (hget : request answers.getFails (world.profiles.get (id.profileKey config)) =
        some existing)
      (hfinal : ¬ existing.value.isFinal)
      (hupdate : request answers.updateFails ((world.limitPatched config id answers).update
        (id.profileKey config) (mergedProfile config (world.mounts id) state existing.value
          (world.built config id answers)) existing.version) = some profiles) :
      Outcome world .updated
        (World.startContainerTimer { world.drain id answers with profiles := profiles } id)
  | updateFailed (state : ContainerState) (existing : Versioned ApplicationProfile)
      (hlookup : world.containers.lookup id = some state)
      (hbatch : shouldProcessEvents (world.batch id answers) = true)
      (hget : request answers.getFails (world.profiles.get (id.profileKey config)) =
        some existing)
      (hfinal : ¬ existing.value.isFinal)
      (hupdate : request answers.updateFails ((world.limitPatched config id answers).update
        (id.profileKey config) (mergedProfile config (world.mounts id) state existing.value
          (world.built config id answers)) existing.version) = none) :
      Outcome world .updateFailed
        { stopRecording id (world.drain id answers) with
          profiles := (request answers.failedPatchFails
            ((world.limitPatched config id answers).patch (id.profileKey config)
              (ApplicationProfile.mark failedLabel))).getD
            (world.limitPatched config id answers) }

variable {config id answers}

@[simp] theorem passStep_iterate_returned (exit : PassExit) (world : World) (count : Nat) :
    (passStep config id answers)^[count] (.returned exit, world) = (.returned exit, world) :=
  Function.iterate_fixed rfl count

theorem passStep_iterate_succ (state : PassState) (world : World) (count : Nat) :
    (passStep config id answers)^[count + 1] (state, world) =
      (passStep config id answers)^[count] (collectStep config id answers world state) := rfl

section Update

variable {world : World} {state : ContainerState} {containerProfile : ContainerProfile}
  {existing : Versioned ApplicationProfile}

theorem iterate_update_accepted {profiles : VersionedStore (String × String) ApplicationProfile}
    (hupdate : request answers.updateFails (world.profiles.update (id.profileKey config)
      (mergedProfile config (world.mounts id) state existing.value containerProfile)
      existing.version) = some profiles) :
    ∀ count ≥ 3, (passStep config id answers)^[count]
        (.update state containerProfile existing, world) =
      (.returned .updated, World.startContainerTimer { world with profiles := profiles } id) := by
  intro count hcount
  obtain ⟨rest, rfl⟩ := Nat.exists_eq_add_of_le' hcount
  rw [passStep_iterate_succ]
  simp only [collectStep, hupdate]
  apply passStep_iterate_returned

theorem iterate_update_rejected
    (hupdate : request answers.updateFails (world.profiles.update (id.profileKey config)
      (mergedProfile config (world.mounts id) state existing.value containerProfile)
      existing.version) = none) :
    ∀ count ≥ 6, (passStep config id answers)^[count]
        (.update state containerProfile existing, world) =
      (.returned .updateFailed, { stopRecording id world with
        profiles := (request answers.failedPatchFails (world.profiles.patch
          (id.profileKey config) (ApplicationProfile.mark failedLabel))).getD
            world.profiles }) := by
  intro count hcount
  obtain ⟨rest, rfl⟩ := Nat.exists_eq_add_of_le' hcount
  rw [passStep_iterate_succ]
  simp only [collectStep, hupdate]
  -- The next four steps stop the recording, and then the failed mark is requested.
  change (passStep config id answers)^[rest + 1] (.failedPatch, stopRecording id world) = _
  rw [passStep_iterate_succ]
  have hprofiles : (stopRecording id world).profiles = world.profiles := rfl
  simp only [collectStep, hprofiles]
  split
  next hpatch =>
    rw [hpatch]
    apply passStep_iterate_returned
  next hpatch =>
    rw [hpatch]
    apply passStep_iterate_returned

end Update

/-- After the six loads the pass looks at its batch. -/
theorem iterate_load (world : World) (state : ContainerState) (count : Nat) :
    (passStep config id answers)^[count + 6] (.load state EventSource.all {}, world) =
      (passStep config id answers)^[count]
        (.load state [] (world.batch id answers), world.drain id answers) := rfl

/-- A pass with a batch of a tracked container reaches its get in eight steps. -/
theorem iterate_get {world : World} {state : ContainerState}
    (hlookup : world.containers.lookup id = some state)
    (hbatch : shouldProcessEvents (world.batch id answers) = true) (count : Nat) :
    (passStep config id answers)^[count + 8] (.lookup, world) =
      (passStep config id answers)^[count]
        (.get state (world.built config id answers), world.drain id answers) := by
  rw [passStep_iterate_succ]
  simp only [collectStep, hlookup]
  rw [show count + 7 = count + 1 + 6 by rfl, iterate_load, passStep_iterate_succ]
  simp only [collectStep, hbatch]
  rfl

/-- Every pass returns, by one of the branches. -/
theorem collectContainerEvents_outcome (config : CollectorManagerConfig) (id : ContainerId)
    (answers : Answers) (world : World) : ∃ exit next,
    collectContainerEvents config id answers world = (.returned exit, next) ∧
      Outcome config id answers world exit next := by
  unfold collectContainerEvents
  cases hlookup : world.containers.lookup id with
  | none =>
      refine ⟨_, _, ?_, .notTracked hlookup⟩
      rw [passStep_iterate_succ]
      simp only [collectStep, hlookup]
      apply passStep_iterate_returned
  | some state =>
  cases hbatch : shouldProcessEvents (world.batch id answers) with
  | false =>
      refine ⟨_, _, ?_, .noEvents state hlookup hbatch⟩
      rw [passStep_iterate_succ]
      simp only [collectStep, hlookup]
      rw [iterate_load, passStep_iterate_succ]
      simp only [collectStep, hbatch]
      apply passStep_iterate_returned
  | true =>
  rw [iterate_get hlookup hbatch, passStep_iterate_succ]
  -- Draining leaves the profiles alone, so the get reads those of the start.
  have hprofiles : (world.drain id answers).profiles = world.profiles := rfl
  cases hget : request answers.getFails (world.profiles.get (id.profileKey config)) with
  | none =>
      simp only [collectStep, hprofiles, hget]
      rw [passStep_iterate_succ]
      cases hcreate : request answers.createFails (world.profiles.create (id.profileKey config)
          (newProfile config id state (world.built config id answers))) with
      | none =>
          refine ⟨_, _, ?_, .createFailed state hlookup hbatch hget hcreate⟩
          simp only [collectStep, hprofiles, hcreate]
          apply passStep_iterate_returned
      | some profiles =>
          refine ⟨_, _, ?_, .created state profiles hlookup hbatch hget hcreate⟩
          simp only [collectStep, hprofiles, hcreate]
          apply passStep_iterate_returned
  | some existing =>
  simp only [collectStep, hprofiles, hget]
  by_cases hfinal : existing.value.isFinal
  · refine ⟨_, _, ?_, .final state existing hlookup hbatch hget hfinal⟩
    rw [if_pos hfinal]
    apply passStep_iterate_returned
  rw [if_neg hfinal]
  -- The update is reached with or without the patch of the limit.
  have hupdate : ∃ count, 6 ≤ count ∧ (passStep config id answers)^[7]
      (if maxOpenEvents ≤ (world.built config id answers).opens.length then
        (.limitPatch state (world.built config id answers) existing, world.drain id answers)
      else (.update state (world.built config id answers) existing, world.drain id answers)) =
      (passStep config id answers)^[count] (.update state (world.built config id answers) existing,
        { world.drain id answers with profiles := world.limitPatched config id answers }) := by
    unfold World.limitPatched
    by_cases hlimit : maxOpenEvents ≤ (world.built config id answers).opens.length
    · refine ⟨6, Nat.le_refl 6, ?_⟩
      rw [if_pos hlimit, if_pos hlimit, passStep_iterate_succ]
      simp only [collectStep, hprofiles]
      split
      next hpatch => rw [hpatch]; rfl
      next hpatch => rw [hpatch]; rfl
    · refine ⟨7, by decide, ?_⟩
      rw [if_neg hlimit, if_neg hlimit]
      rfl
  obtain ⟨count, hcount, hreached⟩ := hupdate
  rw [hreached]
  let patched : World :=
    { world.drain id answers with profiles := world.limitPatched config id answers }
  cases hwrite : request answers.updateFails ((world.limitPatched config id answers).update
      (id.profileKey config) (mergedProfile config (world.mounts id) state existing.value
        (world.built config id answers)) existing.version) with
  | some profiles =>
      refine ⟨_, _, ?_, .updated state existing profiles hlookup hbatch hget hfinal hwrite⟩
      exact @iterate_update_accepted config id answers patched _ _ _ _ hwrite count (by omega)
  | none =>
      refine ⟨_, _, ?_, .updateFailed state existing hlookup hbatch hget hfinal hwrite⟩
      exact @iterate_update_rejected config id answers patched _ _ _ hwrite count hcount

theorem outcome_of_collect {world next : World} {exit : PassExit}
    (hpass : collectContainerEvents config id answers world = (.returned exit, next)) :
    Outcome config id answers world exit next := by
  obtain ⟨exit', next', hreturned, houtcome⟩ :=
    collectContainerEvents_outcome config id answers world
  rw [hpass] at hreturned
  cases hreturned
  exact houtcome

/-! ## The profile that a pass leaves -/

/-- A pass that creates the profile finds none. -/
theorem created_profile {world next : World}
    (hpass : collectContainerEvents config id answers world = (.returned .created, next)) :
    ∃ state version, world.containers.lookup id = some state ∧
      world.profiles.get (id.profileKey config) = none ∧
      next.profiles.get (id.profileKey config) =
        some ⟨newProfile config id state (world.built config id answers), version⟩ := by
  cases outcome_of_collect hpass with
  | created state profiles hlookup _ _ hcreate =>
      obtain ⟨habsent, rfl⟩ := VersionedStore.create_eq_some.mp (of_request hcreate)
      exact ⟨state, _, hlookup, habsent, world.profiles.put_get _ _⟩

/-- A pass that updates the profile merges its batch into the profile that was
stored when it began, also if it has tried to mark that one failed. -/
theorem updated_profile {world next : World}
    (hpass : collectContainerEvents config id answers world = (.returned .updated, next)) :
    ∃ state existing version, world.containers.lookup id = some state ∧
      world.profiles.get (id.profileKey config) = some existing ∧ ¬ existing.value.isFinal ∧
      next.profiles.get (id.profileKey config) =
        some ⟨mergedProfile config (world.mounts id) state existing.value
          (world.built config id answers), version⟩ := by
  cases outcome_of_collect hpass with
  | updated state existing profiles hlookup _ hget hfinal hupdate =>
      have hexisting := of_request hget
      -- An accepted update presented the current version, so a patch of the limit
      -- before it did not change the profile.
      have hfaithful : (world.limitPatched config id answers).Faithful
          (id.profileKey config) existing := by
        have hread := VersionedStore.faithful_of_get hexisting
        unfold World.limitPatched
        split
        · cases hpatch : request answers.limitPatchFails (world.profiles.patch
              (id.profileKey config) (ApplicationProfile.mark failedLabel)) with
          | none => exact hread
          | some patched => exact hread.patch (of_request hpatch)
        · exact hread
      obtain ⟨hstored, rfl⟩ := hfaithful.get_of_update (of_request hupdate)
      obtain ⟨version, hwritten⟩ := (world.limitPatched config id answers).write_get
        (mergedProfile config (world.mounts id) state existing.value
          (world.built config id answers)) hstored
      exact ⟨state, existing, version, hlookup, hexisting, hfinal, hwritten⟩

/-! ## Whole passes as runs of the machine -/

theorem run_iterate (count : Nat) {system : System} {call : Nat} {state : PassState}
    (hcall : system.calls[call]? = some (.collectContainerEvents id state)) :
    ∃ steps, (machine config).run system (List.replicate steps (.advance call answers)) = some
      { world := ((passStep config id answers)^[count] (state, system.world)).2
        calls := system.calls.set call (.collectContainerEvents id
          ((passStep config id answers)^[count] (state, system.world)).1) } := by
  have hstay : system.calls.set call (.collectContainerEvents id state) = system.calls := by
    obtain ⟨hlt, hget⟩ := List.getElem?_eq_some_iff.mp hcall
    rw [← hget, List.set_getElem_self hlt]
  -- A pass that has returned is not advanced any more, so there may be fewer steps.
  induction count generalizing system state with
  | zero => exact ⟨0, congrArg some (congrArg (System.mk system.world) hstay.symm)⟩
  | succ count ih =>
      by_cases hreturned : ∃ exit, state = .returned exit
      · obtain ⟨exit, rfl⟩ := hreturned
        refine ⟨0, ?_⟩
        rw [passStep_iterate_returned, hstay]
        rfl
      · have hlt := (List.getElem?_eq_some_iff.mp hcall).1
        have hstep : (machine config).step system (.advance call answers) = some
            { world := (collectStep config id answers system.world state).2
              calls := system.calls.set call (.collectContainerEvents id
                (collectStep config id answers system.world state).1) } := by
          have hcallStep : Call.step config answers system.world
              (.collectContainerEvents id state) = some (.collectContainerEvents id
                (collectStep config id answers system.world state).1,
                (collectStep config id answers system.world state).2) := by
            cases state <;> first | rfl | exact absurd ⟨_, rfl⟩ hreturned
          simp only [machine, step, hcall, Option.bind_some, hcallStep, Option.map_some]
        obtain ⟨steps, hrun⟩ := @ih ⟨_, _⟩ _ (List.getElem?_set_self hlt) (List.set_set ..)
        refine ⟨steps + 1, ?_⟩
        rw [List.replicate_succ, Machine.run_cons]
        refine ⟨_, hstep, ?_⟩
        rw [hrun, passStep_iterate_succ, List.set_set]

/-- A pass that is advanced without any other step in between does what
`collectContainerEvents` does. -/
theorem run_collectContainerEvents {system : System} {call : Nat}
    (hcall : system.calls[call]? = some (.collectContainerEvents id .lookup)) :
    ∃ steps, (machine config).run system (List.replicate steps (.advance call answers)) = some
      { world := (collectContainerEvents config id answers system.world).2
        calls := system.calls.set call (.collectContainerEvents id
          (collectContainerEvents config id answers system.world).1) } :=
  run_iterate 16 hcall

/-- When the timer of a tracked container with a batch expires, its pass gets to read the
profile. -/
theorem run_to_get {system : System} {state : ContainerState}
    (htimer : id ∈ system.world.timers) (hlookup : system.world.containers.lookup id = some state)
    (hbatch : shouldProcessEvents (system.world.batch id answers) = true) :
    ∃ labels last, (machine config).run system labels = some last ∧
      last.calls[system.calls.length]? = some
        (.collectContainerEvents id (.get state (system.world.built config id answers))) ∧
      last.world.profiles = system.world.profiles := by
  let launched := System.launch { system with
    world := { system.world with timers := system.world.timers.erase id } }
    (.collectContainerEvents id .lookup)
  have hexpired : (machine config).step system (.timerExpired id) = some launched := if_pos htimer
  have hcall : launched.calls[system.calls.length]? = some (.collectContainerEvents id .lookup) :=
    List.getElem?_concat_length ..
  obtain ⟨steps, hrun⟩ := @run_iterate config id answers 8 launched _ _ hcall
  have hget := @iterate_get config id answers launched.world state hlookup hbatch 0
  rw [Nat.zero_add] at hget
  rw [hget] at hrun
  refine ⟨_, _, (machine config).run_cons.mpr ⟨launched, hexpired, hrun⟩, ?_, rfl⟩
  exact List.getElem?_set_self (List.getElem?_eq_some_iff.mp hcall).1

end Kapprofiler.Collector
