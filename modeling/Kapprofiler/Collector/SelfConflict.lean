import Std.Data.String.ToNat
import Kapprofiler.Collector.Copies
import Kapprofiler.Collector.Pass

/-! # A pass that is alone with its profile

A pass presents the version of the profile it read. If nothing else writes the profile
until then, the update should be accepted. But the pass itself may write it before: the
failed mark of a batch that reaches the limit of open events takes a fresh revision,
unless the profile carried the mark already.
-/

namespace Kapprofiler.Collector

open Tracing Foundation

/-- A pass that is about to read a stored profile, with what it is going to read. -/
structure Getting where
  call : Nat
  id : ContainerId
  state : ContainerState
  containerProfile : ContainerProfile
  existing : Versioned ApplicationProfile

/-- The update of the pass is still to be answered. -/
def PassState.undecided : PassState → Bool
  | .get _ _ => true
  | .limitPatch _ _ _ => true
  | .update _ _ _ => true
  | _ => false

/-- The update of the pass was accepted. -/
def PassState.accepted : PassState → Bool
  | .restartTimer .updated => true
  | .returned .updated => true
  | _ => false

namespace Getting

def At (pass : Getting) (system : System) (state : PassState) : Prop :=
  system.calls[pass.call]? = some (.collectContainerEvents pass.id state)

structure Ready (config : CollectorManagerConfig) (pass : Getting) (system : System) :
    Prop where
  reading : pass.At system (.get pass.state pass.containerProfile)
  stored : system.world.profiles.get (pass.id.profileKey config) = some pass.existing
  notFinal : ¬ pass.existing.value.isFinal

/-- Until its update is answered, the get and the update of the pass reach the server,
and no step but its own touches the profile. -/
def Alone (config : CollectorManagerConfig) (pass : Getting) (system : System)
    (label : Label) : Prop :=
  (∃ state, pass.At system state ∧ state.undecided) →
    (∃ answers, label = .advance pass.call answers ∧ answers.getFails = false ∧
      answers.updateFails = false) ∨
    (∀ answers, label ≠ .advance pass.call answers) ∧
      ∀ next, step config system label = some next →
        next.world.profiles.get (pass.id.profileKey config) =
          system.world.profiles.get (pass.id.profileKey config)

/-- The steps that the pass takes itself. -/
def steps (pass : Getting) (labels : List Label) : Nat :=
  labels.countP fun
    | .advance call _ => call = pass.call
    | _ => false

/-- The states of a pass that was not turned down. -/
inductive Unrejected (pass : Getting) : PassState → Prop
  | get : Unrejected pass (.get pass.state pass.containerProfile)
  | limitPatch : Unrejected pass (.limitPatch pass.state pass.containerProfile pass.existing)
  | update : Unrejected pass (.update pass.state pass.containerProfile pass.existing)
  | restartTimer : Unrejected pass (.restartTimer .updated)
  | returned : Unrejected pass (.returned .updated)

/-- After a run the pass was not turned down, and it was accepted if it took three steps
since. The step that is accepted stores the merged profile, and none of its steps untracks
a container. -/
structure Unconflicted (config : CollectorManagerConfig) (pass : Getting)
    (labels : List Label) (last : System) : Prop where
  unrejected : ∃ state, pass.At last state ∧ pass.Unrejected state
  answered : 3 ≤ pass.steps labels → ∃ state, pass.At last state ∧ state.accepted
  merged : ∀ answers next, answers.updateFails = false →
    pass.At last (.update pass.state pass.containerProfile pass.existing) →
    step config last (.advance pass.call answers) = some next →
    pass.At next (.restartTimer .updated) ∧
    ∃ version, next.world.profiles.get (pass.id.profileKey config) =
      some ⟨mergedProfile config (last.world.mounts pass.id) pass.state pass.existing.value
        pass.containerProfile, version⟩
  tracked : ∀ answers next, step config last (.advance pass.call answers) = some next →
    next.world.containers = last.world.containers

/-- However the pass is interleaved with others that leave its profile alone, it does not
conflict. -/
def NeverConflicts (config : CollectorManagerConfig) (pass : Getting) (system : System) : Prop :=
  ∀ labels last, (machine config).Along (pass.Alone config) system labels →
    (machine config).run system labels = some last → pass.Unconflicted config labels last

/-- The batch reaches the limit of open events, and the profile is not marked failed yet. -/
def MarksFailed (pass : Getting) : Prop :=
  maxOpenEvents ≤ pass.containerProfile.opens.length ∧
    pass.existing.value.labels.get failedLabel ≠ "true"

variable {config : CollectorManagerConfig} {pass : Getting} {state : PassState}

/-! ## One step -/

theorem At.unique {system : System} {state' : PassState} (hat : pass.At system state)
    (hat' : pass.At system state') : state = state' := by
  unfold At at hat hat'
  rw [hat] at hat'
  simpa using hat'

/-- The step of the pass in the machine is its step. -/
theorem At.step_self {system next : System} {answers : Answers} (hat : pass.At system state)
    (hstep : step config system (.advance pass.call answers) = some next) :
    next.world = (collectStep config pass.id answers system.world state).2 ∧
      pass.At next (collectStep config pass.id answers system.world state).1 := by
  obtain ⟨hworld, _, hnext⟩ := step_pass hat hstep
  exact ⟨hworld, hnext⟩

/-- Any other step leaves the pass where it is. -/
theorem At.step_other {system next : System} {label : Label} (hat : pass.At system state)
    (hother : ∀ answers, label ≠ .advance pass.call answers)
    (hstep : step config system label = some next) : pass.At next state :=
  step_keeps_call hat hother hstep

/-- What is known of a pass that was left alone, by the steps it has taken. -/
inductive Phase (config : CollectorManagerConfig) (pass : Getting) (world : World) :
    Nat → PassState → Prop
  | get (hstored : world.profiles.get (pass.id.profileKey config) = some pass.existing) :
      Phase config pass world 0 (.get pass.state pass.containerProfile)
  | limitPatch {steps : Nat} (hsteps : steps ≤ 1)
      (hlimit : maxOpenEvents ≤ pass.containerProfile.opens.length)
      (hstored : world.profiles.get (pass.id.profileKey config) = some pass.existing) :
      Phase config pass world steps (.limitPatch pass.state pass.containerProfile pass.existing)
  | update {steps : Nat} (hsteps : steps ≤ 2)
      (hstored : world.profiles.get (pass.id.profileKey config) = some pass.existing) :
      Phase config pass world steps (.update pass.state pass.containerProfile pass.existing)
  | restartTimer {steps : Nat} : Phase config pass world steps (.restartTimer .updated)
  | returned {steps : Nat} : Phase config pass world steps (.returned .updated)

variable {world : World} {steps : Nat} {answers : Answers}

theorem Phase.unrejected (hphase : pass.Phase config world steps state) :
    pass.Unrejected state := by
  cases hphase with
  | get => exact .get
  | limitPatch => exact .limitPatch
  | update => exact .update
  | restartTimer => exact .restartTimer
  | returned => exact .returned

theorem Phase.accepted (hphase : pass.Phase config world steps state) (hsteps : 3 ≤ steps) :
    state.accepted := by
  cases hphase with
  | get => omega
  | limitPatch => omega
  | update => omega
  | restartTimer => rfl
  | returned => rfl

theorem Phase.stored (hphase : pass.Phase config world steps state)
    (hundecided : state.undecided) :
    world.profiles.get (pass.id.profileKey config) = some pass.existing := by
  cases hphase with
  | get hstored => exact hstored
  | limitPatch _ _ hstored => exact hstored
  | update _ hstored => exact hstored
  | restartTimer => cases hundecided
  | returned => cases hundecided

/-- Being in a phase is about the profile that the pass is going to replace. -/
theorem Phase.of_same {after : World} (hphase : pass.Phase config world steps state)
    (hsame : state.undecided → after.profiles.get (pass.id.profileKey config) =
      world.profiles.get (pass.id.profileKey config)) :
    pass.Phase config after steps state := by
  cases hphase with
  | get hstored => exact .get ((hsame rfl).trans hstored)
  | limitPatch hsteps hlimit hstored =>
      exact .limitPatch hsteps hlimit ((hsame rfl).trans hstored)
  | update hsteps hstored => exact .update hsteps ((hsame rfl).trans hstored)
  | restartTimer => exact .restartTimer
  | returned => exact .returned

/-- An update that presents the stored version is accepted. -/
theorem update_of_stored
    (hstored : world.profiles.get (pass.id.profileKey config) = some pass.existing)
    (hupdate : answers.updateFails = false) : ∃ profiles,
    collectStep config pass.id answers world
        (.update pass.state pass.containerProfile pass.existing) =
      (.restartTimer .updated, { world with profiles := profiles }) ∧
    ∃ version, profiles.get (pass.id.profileKey config) =
      some ⟨mergedProfile config (world.mounts pass.id) pass.state pass.existing.value
        pass.containerProfile, version⟩ := by
  have haccepted := request_eq_some.mpr ⟨hupdate, VersionedStore.update_of_get
    (mergedProfile config (world.mounts pass.id) pass.state pass.existing.value
      pass.containerProfile) hstored⟩
  refine ⟨_, ?_, world.profiles.write_get _ hstored⟩
  simp only [collectStep, haccepted]

/-- If marking the profile changes nothing, the pass goes on with the version it read. -/
theorem Phase.step_self (hphase : pass.Phase config world steps state)
    (hfinal : ¬ pass.existing.value.isFinal) (hmarks : ¬ pass.MarksFailed)
    (hget : state.undecided → answers.getFails = false)
    (hupdate : state.undecided → answers.updateFails = false) :
    pass.Phase config (collectStep config pass.id answers world state).2 (steps + 1)
      (collectStep config pass.id answers world state).1 := by
  cases hphase with
  | get hstored =>
      have hread := request_eq_some.mpr ⟨hget rfl, hstored⟩
      simp only [collectStep, hread, if_neg hfinal]
      split
      next hlimit => exact .limitPatch (Nat.le_refl 1) hlimit hstored
      next => exact .update (by omega) hstored
  | limitPatch hsteps hlimit hstored =>
      simp only [collectStep]
      split
      next profiles hpatch =>
        have hmarked : pass.existing.value.labels.get failedLabel = "true" := by
          by_contra hunmarked
          exact hmarks ⟨hlimit, hunmarked⟩
        obtain ⟨object, hobject, rfl⟩ := VersionedStore.patch_eq_some.mp (of_request hpatch)
        obtain rfl := Option.some.inj (hstored.symm.trans hobject)
        refine .update (by omega) ?_
        rw [mark_of_marked hmarked, VersionedStore.write_value]
        exact hstored
      next => exact .update (by omega) hstored
  | update hsteps hstored =>
      obtain ⟨profiles, hstep, _⟩ := update_of_stored hstored (hupdate rfl)
      rw [hstep]
      exact .restartTimer
  | restartTimer => exact .returned
  | returned => exact .returned

/-- A pass that was not turned down untracks nothing. -/
theorem Phase.tracked (hphase : pass.Phase config world steps state) :
    (collectStep config pass.id answers world state).2.containers = world.containers := by
  rcases (collectStep_tracks config pass.id answers world state).1 with
    heq | ⟨⟨exit, rfl⟩, _⟩
  · exact heq
  · cases hphase

/-! ## Whole runs -/

section Runs

variable {system last : System} {labels : List Label}

theorem steps_concat_self (pass : Getting) (labels : List Label) (answers : Answers) :
    pass.steps (labels ++ [.advance pass.call answers]) = pass.steps labels + 1 := by
  simp [steps, List.countP_append]

theorem steps_concat_other {label : Label} (labels : List Label)
    (hother : ∀ answers, label ≠ .advance pass.call answers) :
    pass.steps (labels ++ [label]) = pass.steps labels := by
  unfold steps
  rw [List.countP_append, List.countP_singleton]
  cases label with
  | advance call answers =>
      have hne : call ≠ pass.call := by
        rintro rfl
        exact hother answers rfl
      simp [hne]
  | _ => rfl

/-- A step that leaves the pass alone takes it from phase to phase. -/
theorem step_phase {next : System} {label : Label} (hfinal : ¬ pass.existing.value.isFinal)
    (hmarks : ¬ pass.MarksFailed) (halone : pass.Alone config system label)
    (hstep : step config system label = some next)
    (hphase : ∃ state, pass.At system state ∧
      pass.Phase config system.world (pass.steps labels) state) :
    ∃ state, pass.At next state ∧
      pass.Phase config next.world (pass.steps (labels ++ [label])) state := by
  obtain ⟨state, hat, hphase⟩ := hphase
  by_cases hself : ∃ answers, label = .advance pass.call answers
  · obtain ⟨answers, rfl⟩ := hself
    obtain ⟨hworld, hnext⟩ := hat.step_self hstep
    have hreach : state.undecided → answers.getFails = false ∧ answers.updateFails = false := by
      intro hundecided
      rcases halone ⟨state, hat, hundecided⟩ with ⟨answers', heq, hanswers⟩ | ⟨hother, _⟩
      · cases heq
        exact hanswers
      · exact absurd rfl (hother answers)
    refine ⟨_, hnext, ?_⟩
    rw [hworld, steps_concat_self]
    exact hphase.step_self hfinal hmarks (fun h => (hreach h).1) fun h => (hreach h).2
  · have hother : ∀ answers, label ≠ .advance pass.call answers :=
      fun answers heq => hself ⟨answers, heq⟩
    refine ⟨state, hat.step_other hother hstep, ?_⟩
    rw [steps_concat_other labels hother]
    apply hphase.of_same
    intro hundecided
    rcases halone ⟨state, hat, hundecided⟩ with ⟨answers, heq, _⟩ | ⟨_, hsame⟩
    · exact absurd heq (hother answers)
    · exact hsame next hstep

theorem Ready.run_phase (hready : pass.Ready config system) (hmarks : ¬ pass.MarksFailed)
    (halone : (machine config).Along (pass.Alone config) system labels)
    (hrun : (machine config).run system labels = some last) :
    ∃ state, pass.At last state ∧ pass.Phase config last.world (pass.steps labels) state := by
  refine Machine.run_history_invariant (machine config)
    (fun labels last => (machine config).Along (pass.Alone config) system labels →
      ∃ state, pass.At last state ∧ pass.Phase config last.world (pass.steps labels) state)
    ?_ ?_ hrun halone
  · intro _
    exact ⟨_, hready.reading, .get hready.stored⟩
  · intro labels middle label next hmiddle hbefore hstep halone
    obtain ⟨hlabels, hlabel⟩ := (machine config).along_append.mp halone
    exact step_phase hready.notFinal hmarks (hlabel middle hmiddle).1 hstep (hbefore hlabels)

theorem Phase.unconflicted (hat : pass.At last state)
    (hphase : pass.Phase config last.world (pass.steps labels) state) :
    pass.Unconflicted config labels last where
  unrejected := ⟨state, hat, hphase.unrejected⟩
  answered hsteps := ⟨state, hat, hphase.accepted hsteps⟩
  merged answers next hupdate hat' hstep := by
    obtain rfl := hat.unique hat'
    obtain ⟨hworld, hnext⟩ := hat.step_self hstep
    obtain ⟨profiles, haccepted, hmerged⟩ := update_of_stored (hphase.stored rfl) hupdate
    rw [haccepted] at hworld hnext
    rw [hworld]
    exact ⟨hnext, hmerged⟩
  tracked answers next hstep := by
    rw [(hat.step_self hstep).1]
    exact hphase.tracked

/-! ## The conflict -/

/-- The pass marks the profile, and the version it read is not the stored one any more. -/
theorem Ready.rejected (hready : pass.Ready config system) (hmarks : pass.MarksFailed) :
    ((passStep config pass.id {})^[3]
      (.get pass.state pass.containerProfile, system.world)).1 = .removeFilter .updateFailed := by
  obtain ⟨hlimit, hunmarked⟩ := hmarks
  have hpatch : system.world.profiles.patch (pass.id.profileKey config)
      (ApplicationProfile.mark failedLabel) = some (system.world.profiles.put
        (pass.id.profileKey config) (pass.existing.value.mark failedLabel)) := by
    rw [VersionedStore.patch_of_get _ hready.stored]
    exact congrArg some (if_neg (mark_ne_of_unmarked hunmarked))
  have hstale := (VersionedStore.faithful_of_get hready.stored).stale_put
    (pass.existing.value.mark failedLabel)
  have hrejected := hstale.update_eq_none (mergedProfile config (system.world.mounts pass.id)
    pass.state pass.existing.value pass.containerProfile)
  rw [passStep_iterate_succ]
  simp only [collectStep, request, Bool.false_eq_true, if_false, hready.stored,
    if_neg hready.notFinal, if_pos hlimit]
  rw [passStep_iterate_succ]
  simp only [collectStep, request, Bool.false_eq_true, if_false, hpatch]
  rw [passStep_iterate_succ]
  have hmounts : ∀ profiles, World.mounts { system.world with profiles := profiles } pass.id =
      system.world.mounts pass.id := fun _ => rfl
  simp only [collectStep, request, Bool.false_eq_true, if_false, hmounts, hrejected]
  rfl

theorem alone_self (count : Nat) :
    (machine config).Along (pass.Alone config) system
      (List.replicate count (.advance pass.call {})) := by
  induction count generalizing system with
  | zero => trivial
  | succ count ih => exact ⟨fun _ => Or.inl ⟨{}, rfl, rfl, rfl⟩, fun _ _ => ih⟩

/-- The pass conflicts with itself if it just runs on: get, mark, update. -/
theorem Ready.conflicts (hready : pass.Ready config system) (hmarks : pass.MarksFailed) :
    ¬ pass.NeverConflicts config system := by
  intro hnever
  obtain ⟨count, hrun⟩ := @run_iterate config pass.id {} 3 _ _ _ hready.reading
  have hbound := (List.getElem?_eq_some_iff.mp hready.reading).1
  obtain ⟨state, hat, hunrejected⟩ := (hnever _ _ (alone_self count) hrun).unrejected
  rw [hready.rejected hmarks] at hat
  have hrejected : state = .removeFilter .updateFailed :=
    At.unique hat (List.getElem?_set_self hbound)
  rw [hrejected] at hunrejected
  cases hunrejected

/-- A pass that is left alone with its profile until its update is answered has it accepted,
and keeps its container tracked, exactly if it has not to mark the profile failed. -/
theorem neverConflicts_iff (hready : pass.Ready config system) :
    pass.NeverConflicts config system ↔ ¬ pass.MarksFailed := by
  constructor
  · intro hnever hmarks
    exact hready.conflicts hmarks hnever
  · intro hmarks labels last halone hrun
    obtain ⟨state, hat, hphase⟩ := hready.run_phase hmarks halone hrun
    exact hphase.unconflicted hat

end Runs

end Getting

/-! ## A small and a large batch -/

/-- The container is started, and its first pass creates the profile. -/
def profiledRun : List Label :=
  .containerStarted nginx false :: List.replicate 7 (.advance 0 {}) ++
    .timerExpired nginx :: List.replicate 11 (.advance 1 { peek := .ok ["read"] })

/-- The second pass of `nginx` has one syscall more. -/
theorem nginx_never_conflicts : ∃ (pass : Getting) (system : System),
    (machine mainConfig).run freshSystem (profiledRun ++
      .timerExpired nginx :: List.replicate 8 (.advance 2 { peek := .ok ["write"] })) =
        some system ∧
    pass.Ready mainConfig system ∧ pass.NeverConflicts mainConfig system := by
  obtain ⟨system, state, containerProfile, existing, hrun, hreading, hstored, hfinal, hopens⟩ :
      ∃ system state containerProfile existing,
        (machine mainConfig).run freshSystem (profiledRun ++
          .timerExpired nginx :: List.replicate 8 (.advance 2 { peek := .ok ["write"] })) =
            some system ∧
        system.calls[2]? = some (.collectContainerEvents nginx (.get state containerProfile)) ∧
        system.world.profiles.get (nginx.profileKey mainConfig) = some existing ∧
        ¬ existing.value.isFinal ∧ containerProfile.opens = [] :=
    ⟨_, _, _, _, rfl, rfl, rfl, by decide, rfl⟩
  have hready : (Getting.mk 2 nginx state containerProfile existing).Ready mainConfig system :=
    ⟨hreading, hstored, hfinal⟩
  refine ⟨_, system, hrun, hready, (Getting.neverConflicts_iff hready).mpr ?_⟩
  rintro ⟨hlimit, _⟩
  simp [hopens, maxOpenEvents] at hlimit

/-- Below the limit, opens of distinct paths are all kept. -/
theorem foldl_addOpen_of_distinct {config : CollectorManagerConfig} (mounts : List String)
    (hprefixes : config.ignorePrefixes = []) (hmounts : config.ignoreMounts = false)
    {events : List OpenEvent} (hdistinct : (events.map (·.pathName)).Nodup)
    (hlength : events.length ≤ maxOpenEvents) :
    events.foldl (addOpen config mounts) [] = events.map OpenCalls.ofEvent := by
  induction events using List.reverseRecOn with
  | nil => rfl
  | append_singleton events event ih =>
      rw [List.map_append, List.nodup_append] at hdistinct
      rw [List.length_append, List.length_singleton] at hlength
      have hnew : ∀ call ∈ events.map OpenCalls.ofEvent, call.path ≠ event.pathName := by
        intro call hcall hpath
        obtain ⟨other, hother, rfl⟩ := List.mem_map.mp hcall
        exact hdistinct.2.2 other.pathName (List.mem_map_of_mem hother) event.pathName
          (by simp) hpath
      have hexists : (openEventExists event (events.map OpenCalls.ofEvent)).1 = false := by
        simpa [openEventExists] using hnew
      have hadmits : shouldIncludeOpenEvent config mounts (events.map OpenCalls.ofEvent) event =
          true := by
        have hbelow : events.length ≤ maxOpenEvents := by omega
        simp [shouldIncludeOpenEvent, hbelow, hprefixes, hmounts, hexists]
      rw [List.foldl_append, ih hdistinct.1 (by omega)]
      simp [addOpen, appendWhen_of_admits hadmits]

/-- The events are sent one by one, each after the worker took the one before. -/
def sentOpens (events : List OpenEvent) : List Label :=
  events.flatMap fun event => [.sink (.sendOpenEvent event), .sink .openEventWorker]

def System.withOpens (system : System) (opens : EventStream OpenEvent) : System :=
  { system with world :=
    { system.world with eventSink := { system.world.eventSink with opens := opens } } }

/-- Accepted events of one container end up in its bucket. -/
theorem run_sentOpens {config : CollectorManagerConfig} {events : List OpenEvent} {key : String}
    {system : System} (hidle : system.world.eventSink.opens.channel = [])
    (hopen : system.world.eventSink.opens.db.m.isSome)
    (haccepts : ∀ event ∈ events,
      system.world.eventSink.accepts .openEventType event.containerID = true)
    (hkey : ∀ event ∈ events,
      bucket "open" event.nameSpace event.podName event.containerName = key) : ∃ opens,
    (machine config).run system (sentOpens events) = some (system.withOpens opens) ∧
    opens.db.get key = system.world.eventSink.opens.db.get key ++ events := by
  induction events generalizing system with
  | nil => exact ⟨system.world.eventSink.opens, rfl, (List.append_nil _).symm⟩
  | cons event rest ih =>
      obtain ⟨sent, next, hsend, hworker, hidle', hopen', hget⟩ := EventStream.send_worker
        (fun event : OpenEvent => bucket "open" event.nameSpace event.podName event.containerName)
        event hidle hopen
      obtain ⟨opens, hrun, hopens⟩ := @ih (system.withOpens next) hidle' hopen'
        (fun other hother => haccepts other (List.mem_cons_of_mem event hother))
        (fun other hother => hkey other (List.mem_cons_of_mem event hother))
      refine ⟨opens, ?_, ?_⟩
      · have hsent : (machine config).step system (.sink (.sendOpenEvent event)) =
            some (system.withOpens sent) := by
          simp only [machine, step, EventSink.step, haccepts event List.mem_cons_self, if_true,
            hsend, Option.map_some]
          rfl
        have hworked : (machine config).step (system.withOpens sent) (.sink .openEventWorker) =
            some (system.withOpens next) := by
          simp only [machine, step, EventSink.step, System.withOpens, hworker, Option.map_some]
        exact (machine config).run_cons.mpr
          ⟨_, hsent, (machine config).run_cons.mpr ⟨_, hworked, hrun⟩⟩
      · rw [hopens, ← hkey event List.mem_cons_self]
        change next.db.get _ ++ rest = _
        rw [hget, List.append_assoc, List.singleton_append]

/-- The container opens one file after another. -/
def openedFile (n : Nat) : OpenEvent where
  containerName := "app"
  containerID := "1234567890"
  podName := "nginx"
  nameSpace := "default"
  pathName := "/data/" ++ n.repr
  flags := ["O_RDONLY"]

def openedFiles : List OpenEvent := (List.range maxOpenEvents).map openedFile

theorem openedFile_injective : Function.Injective fun n => (openedFile n).pathName := by
  intro first second hpath
  change "/data/" ++ first.repr = "/data/" ++ second.repr at hpath
  exact Nat.repr_injective (String.append_right_inj _ |>.mp hpath)

theorem openedFiles_distinct : (openedFiles.map (·.pathName)).Nodup := by
  unfold openedFiles
  rw [List.map_map]
  exact List.nodup_range.map openedFile_injective

namespace World

variable (config : CollectorManagerConfig) (world : World) (id : ContainerId) (answers : Answers)

theorem batch_openEvents : (world.batch id answers).openEvents =
    world.eventSink.opens.db.get (id.bucketOf "open") :=
  InMemoryMapDB.getNClean_fst world.eventSink.opens.db (id.bucketOf "open")

theorem built_opens : (world.built config id answers).opens =
    (world.eventSink.opens.db.get (id.bucketOf "open")).foldl
      (addOpen config (world.mounts id)) [] := by
  rw [← batch_openEvents world id answers]
  rfl

end World

/-- The second pass finds as many opened files as the limit admits, in a profile that is not
marked failed. -/
theorem nginx_conflicts : ∃ (pass : Getting) (labels : List Label) (system : System),
    (machine mainConfig).run freshSystem (profiledRun ++ (sentOpens openedFiles ++ labels)) =
      some system ∧
    pass.Ready mainConfig system ∧ ¬ pass.NeverConflicts mainConfig system := by
  obtain ⟨before, state, existing, hbefore, htimer, hlookup, hstored, hfinal, hunmarked, hidle,
      hopen, haccepts, hempty⟩ : ∃ before state existing,
      (machine mainConfig).run freshSystem profiledRun = some before ∧
      nginx ∈ before.world.timers ∧ before.world.containers.lookup nginx = some state ∧
      before.world.profiles.get (nginx.profileKey mainConfig) = some existing ∧
      ¬ existing.value.isFinal ∧ existing.value.labels.get failedLabel ≠ "true" ∧
      before.world.eventSink.opens.channel = [] ∧
      before.world.eventSink.opens.db.m.isSome ∧
      before.world.eventSink.accepts .openEventType "1234567890" = true ∧
      before.world.eventSink.opens.db.get (nginx.bucketOf "open") = [] :=
    ⟨_, _, _, rfl, by decide, rfl, rfl, by decide, by decide, rfl, rfl, by decide, by decide⟩
  -- The files are opened one after the other, and the events wait in the bucket.
  have hfiles : ∀ event ∈ openedFiles, ∃ n, event = openedFile n := by
    intro event hevent
    obtain ⟨n, _, rfl⟩ := List.mem_map.mp hevent
    exact ⟨n, rfl⟩
  obtain ⟨opens, hsent, hopens⟩ := @run_sentOpens mainConfig openedFiles (nginx.bucketOf "open")
    before hidle hopen
    (fun event hevent => by obtain ⟨n, rfl⟩ := hfiles event hevent; exact haccepts)
    (fun event hevent => by obtain ⟨n, rfl⟩ := hfiles event hevent; rfl)
  rw [hempty, List.nil_append] at hopens
  have hlength : openedFiles.length = maxOpenEvents := by simp [openedFiles]
  -- The next pass drains them all.
  have hbatch : shouldProcessEvents ((before.withOpens opens).world.batch nginx {}) = true := by
    have hloaded : ((before.withOpens opens).world.batch nginx {}).openEvents = openedFiles :=
      (World.batch_openEvents _ _ _).trans hopens
    simp [shouldProcessEvents, hloaded, hlength, maxOpenEvents]
  have hbuilt : ((before.withOpens opens).world.built mainConfig nginx {}).opens.length =
      maxOpenEvents := by
    have hdrained : (before.withOpens opens).world.eventSink.opens.db.get
        (nginx.bucketOf "open") = openedFiles := hopens
    rw [World.built_opens, hdrained, foldl_addOpen_of_distinct _ rfl rfl openedFiles_distinct
      (Nat.le_of_eq hlength), List.length_map, hlength]
  obtain ⟨labels, last, hrun, hreading, hprofiles⟩ := @run_to_get mainConfig nginx {}
    (before.withOpens opens) state htimer hlookup hbatch
  have hready : (Getting.mk _ nginx state _ existing).Ready mainConfig last :=
    ⟨hreading, by rw [hprofiles]; exact hstored, hfinal⟩
  have hall : (machine mainConfig).run freshSystem
      (profiledRun ++ (sentOpens openedFiles ++ labels)) = some last :=
    (machine mainConfig).run_append.mpr
      ⟨before, hbefore, (machine mainConfig).run_append.mpr ⟨_, hsent, hrun⟩⟩
  exact ⟨_, labels, last, hall, hready, hready.conflicts ⟨Nat.le_of_eq hbuilt.symm, hunmarked⟩⟩

end Kapprofiler.Collector
