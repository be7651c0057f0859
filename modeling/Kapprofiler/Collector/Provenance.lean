import Kapprofiler.Collector.Evidence
import Kapprofiler.Collector.Recording

/-! # Where the entries of a profile come from

The batch of a pass becomes the profile of a container and is merged into a copy of the
stored profile. Whatever is stored at the end was shown by an event that the sink accepted
under the names of a container that the profile is about, or by a syscall that a pass of it
peeked: no interleaving of passes and no failing request puts anything else into a profile.
-/

namespace Kapprofiler.Collector

open Tracing Foundation

variable {config : CollectorManagerConfig} {known : ContainerId → Prop} {seen : Evidence → Prop}
  {justified : String × String → String → Entry → Prop}

/-! ## What a pass holds -/

/-- The container is known, and evidence about it shows every entry of its profile. -/
structure ProfileShown (config : CollectorManagerConfig) (known : ContainerId → Prop)
    (seen : Evidence → Prop) (id : ContainerId) (profile : ContainerProfile) : Prop where
  known : known id
  name : profile.name = id.container
  shown : ∀ entry, profile.Has entry →
    ∃ evidence, seen evidence ∧ evidence.Concerns id ∧ evidence.Shows config entry

/-- Every entry of the profile is justified under the key. -/
def ProfileJustified (justified : String × String → String → Entry → Prop)
    (key : String × String) (profile : ApplicationProfile) : Prop :=
  ∀ container entry, profile.Has container entry → justified key container entry

/-- What is seen of a known container justifies entries of its pod's profile. -/
def Justifies (config : CollectorManagerConfig) (known : ContainerId → Prop)
    (seen : Evidence → Prop) (justified : String × String → String → Entry → Prop) : Prop :=
  ∀ id evidence entry, known id → seen evidence → evidence.Concerns id →
    evidence.Shows config entry → justified (id.profileKey config) id.container entry

/-- What a pass holds of evidence and of the stored profile. -/
def PassState.Grounded (config : CollectorManagerConfig) (known : ContainerId → Prop)
    (seen : Evidence → Prop) (justified : String × String → String → Entry → Prop)
    (id : ContainerId) : PassState → Prop
  | .load _ _ totalEvents => known id ∧ BatchSeen seen id totalEvents
  | .get _ containerProfile | .create _ containerProfile =>
      ProfileShown config known seen id containerProfile
  | .limitPatch _ containerProfile existing | .update _ containerProfile existing =>
      ProfileShown config known seen id containerProfile ∧
        ProfileJustified justified (id.profileKey config) existing.value
  | .lookup | .removeFilter _ | .stopTrace _ | .markNotRecording _ | .untrack _ | .failedPatch
  | .restartTimer _ | .returned _ => True

def Call.Grounded (config : CollectorManagerConfig) (known : ContainerId → Prop)
    (seen : Evidence → Prop) (justified : String × String → String → Entry → Prop) :
    Call → Prop
  | .containerStarted id _ _ => known id
  | .collectContainerEvents id state => state.Grounded config known seen justified id
  | .finalizeProfile .. | .deleteProfile .. => True

/-- Only known containers are tracked; sink, passes and stored profiles hold only what is seen
and justified. -/
structure System.Grounded (config : CollectorManagerConfig) (known : ContainerId → Prop)
    (seen : Evidence → Prop) (justified : String × String → String → Entry → Prop)
    (system : System) : Prop where
  tracked : ∀ id ∈ system.world.containers, known id
  sink : SinkSeen seen system.world.eventSink
  calls : ∀ call ∈ system.calls, call.Grounded config known seen justified
  profiles : system.world.profiles.Everywhere (ProfileJustified justified)

section Mono

variable {known' : ContainerId → Prop} {seen' : Evidence → Prop}
  {justified' : String × String → String → Entry → Prop}

theorem ProfileShown.mono {id : ContainerId} {profile : ContainerProfile}
    (hshown : ProfileShown config known seen id profile) (hknown : ∀ id, known id → known' id)
    (hseen : ∀ evidence, seen evidence → seen' evidence) :
    ProfileShown config known' seen' id profile where
  known := hknown id hshown.known
  name := hshown.name
  shown entry hentry := by
    obtain ⟨evidence, hevidence, hshows⟩ := hshown.shown entry hentry
    exact ⟨evidence, hseen evidence hevidence, hshows⟩

theorem ProfileJustified.mono {key : String × String} {profile : ApplicationProfile}
    (hprofile : ProfileJustified justified key profile)
    (hjustified : ∀ key container entry, justified key container entry →
      justified' key container entry) : ProfileJustified justified' key profile :=
  fun container entry hentry => hjustified key container entry (hprofile container entry hentry)

theorem Call.Grounded.mono {call : Call} (hcall : call.Grounded config known seen justified)
    (hknown : ∀ id, known id → known' id)
    (hseen : ∀ evidence, seen evidence → seen' evidence)
    (hjustified : ∀ key container entry, justified key container entry →
      justified' key container entry) : call.Grounded config known' seen' justified' := by
  cases call with
  | containerStarted id attach state => exact hknown id hcall
  | collectContainerEvents id state =>
      cases state with
      | load found remaining totalEvents =>
          refine ⟨hknown id hcall.1, fun evidence hcontains => ?_⟩
          obtain ⟨hevidence, hconcerns⟩ := hcall.2 evidence hcontains
          exact ⟨hseen evidence hevidence, hconcerns⟩
      | get found containerProfile => exact ProfileShown.mono hcall hknown hseen
      | create found containerProfile => exact ProfileShown.mono hcall hknown hseen
      | limitPatch found containerProfile existing =>
          exact ⟨hcall.1.mono hknown hseen, hcall.2.mono hjustified⟩
      | update found containerProfile existing =>
          exact ⟨hcall.1.mono hknown hseen, hcall.2.mono hjustified⟩
      | _ => trivial
  | _ => trivial

theorem System.Grounded.mono {system : System}
    (hground : system.Grounded config known seen justified)
    (hknown : ∀ id, known id → known' id)
    (hseen : ∀ evidence, seen evidence → seen' evidence)
    (hjustified : ∀ key container entry, justified key container entry →
      justified' key container entry) : system.Grounded config known' seen' justified' where
  tracked id htracked := hknown id (hground.tracked id htracked)
  sink := hground.sink.mono hseen
  calls call hcall := (hground.calls call hcall).mono hknown hseen hjustified
  profiles := hground.profiles.mono fun _ _ hprofile => hprofile.mono hjustified

end Mono

/-! ## One step of a pass -/

/-- What the manager is told by a step: an accepted event, or the syscalls of a peek. -/
def told (system : System) : Label → List Evidence
  | .sink op => accepted system.world.eventSink op
  | .advance call answers =>
      match system.calls[call]? with
      | some (.collectContainerEvents id (.load _ (.syscalls :: _) _)) => peeked id answers.peek
      | _ => []
  | _ => []

theorem profileShown_of_batch {id : ContainerId} {batch : TotalEvents} {mounts : List String}
    (hknown : known id) (hbatch : BatchSeen seen id batch) : ProfileShown config known seen id
      (buildContainerProfile config mounts id.container batch) where
  known := hknown
  name := rfl
  shown entry hentry := by
    obtain ⟨evidence, hcontains, hshows⟩ := has_buildContainerProfile id hentry
    obtain ⟨hseen, hconcerns⟩ := hbatch evidence hcontains
    exact ⟨evidence, hseen, hconcerns, hshows⟩

theorem ProfileShown.justify {id : ContainerId} {profile : ContainerProfile} {entry : Entry}
    (hshown : ProfileShown config known seen id profile)
    (hjustifies : Justifies config known seen justified) (hentry : profile.Has entry) :
    justified (id.profileKey config) profile.name entry := by
  obtain ⟨evidence, hseen, hconcerns, hshows⟩ := hshown.shown entry hentry
  rw [hshown.name]
  exact hjustifies id evidence entry hshown.known hseen hconcerns hshows

theorem profileJustified_newProfile {id : ContainerId} {found : ContainerState}
    {profile : ContainerProfile} (hshown : ProfileShown config known seen id profile)
    (hjustifies : Justifies config known seen justified) :
    ProfileJustified justified (id.profileKey config) (newProfile config id found profile) := by
  rintro container entry ⟨stored, hstored, rfl, hentry⟩
  obtain rfl := List.mem_singleton.mp hstored
  exact hshown.justify hjustifies hentry

theorem ProfileJustified.merged {id : ContainerId} {found : ContainerState}
    {existing : ApplicationProfile} {profile : ContainerProfile} {mounts : List String}
    (hexisting : ProfileJustified justified (id.profileKey config) existing)
    (hshown : ProfileShown config known seen id profile)
    (hjustifies : Justifies config known seen justified) :
    ProfileJustified justified (id.profileKey config)
      (mergedProfile config mounts found existing profile) := by
  intro container entry hentry
  rcases has_mergedProfile hentry with hold | ⟨rfl, hnew⟩
  · exact hexisting container entry hold
  · exact hshown.justify hjustifies hnew

theorem ProfileJustified.mark {key : String × String} {profile : ApplicationProfile}
    (hprofile : ProfileJustified justified key profile) (label : String) :
    ProfileJustified justified key (profile.mark label) :=
  hprofile

section Pass

variable {id : ContainerId} {answers : Answers} {world : World} {state : PassState}

/-- A step of a pass keeps what the pass holds grounded. -/
theorem collectStep_grounded (htracked : ∀ id ∈ world.containers, known id)
    (hsink : SinkSeen seen world.eventSink)
    (hprofiles : world.profiles.Everywhere (ProfileJustified justified))
    (hstate : state.Grounded config known seen justified id)
    (hpeek : ∀ found rest totalEvents, state = .load found (.syscalls :: rest) totalEvents →
      ∀ evidence ∈ peeked id answers.peek, seen evidence) :
    (collectStep config id answers world state).1.Grounded config known seen justified id := by
  cases state with
  | lookup =>
      simp only [collectStep]
      split
      next hfound =>
        exact ⟨htracked id (Finmap.mem_of_lookup_eq_some hfound), batchSeen_empty id⟩
      next => trivial
  | load found remaining totalEvents =>
      cases remaining with
      | nil =>
          simp only [collectStep]
          split
          · exact profileShown_of_batch hstate.1 hstate.2
          · trivial
      -- What is loaded was in the sink, or is what the peek has returned.
      | cons source rest =>
          refine ⟨hstate.1, (BatchSeen.load hstate.2 hsink ?_).1⟩
          rintro rfl
          exact hpeek found rest totalEvents rfl
  | get found containerProfile =>
      simp only [collectStep]
      split
      · exact hstate
      next existing hget =>
        have hexisting := hprofiles _ existing (of_request hget)
        split
        · trivial
        · split
          · exact ⟨hstate, hexisting⟩
          · exact ⟨hstate, hexisting⟩
  | create found containerProfile => simp only [collectStep]; split <;> trivial
  | limitPatch found containerProfile existing =>
      simp only [collectStep]
      split
      · exact hstate
      · exact hstate
  | update found containerProfile existing => simp only [collectStep]; split <;> trivial
  | untrack exit => simp only [collectStep]; split <;> trivial
  | failedPatch => simp only [collectStep]; split <;> trivial
  | removeFilter exit => trivial
  | stopTrace exit => trivial
  | markNotRecording exit => trivial
  | restartTimer exit => trivial
  | returned exit => trivial

/-- A pass writes only what it is grounded to write. -/
theorem collectStep_justified (hjustifies : Justifies config known seen justified)
    (hprofiles : world.profiles.Everywhere (ProfileJustified justified))
    (hstate : state.Grounded config known seen justified id) :
    (collectStep config id answers world state).2.profiles.Everywhere
      (ProfileJustified justified) := by
  rcases collectStep_profiles config id answers world state with
    hsame | ⟨found, profile, rfl, hcreate⟩ | ⟨_, hpatch⟩ | ⟨found, profile, existing, rfl, hupdate⟩
  · rwa [hsame]
  · exact hprofiles.create (profileJustified_newProfile hstate hjustifies) hcreate
  · exact hprofiles.patch (fun _ hprofile => hprofile.mark failedLabel) hpatch
  · exact hprofiles.update (hstate.2.merged hstate.1 hjustifies) hupdate

end Pass

/-! ## One step of the manager -/

theorem Call.step_grounded {system : System} {position : Nat} {call next : Call}
    {answers : Answers} {after : World} (hjustifies : Justifies config known seen justified)
    (hground : system.Grounded config known seen justified)
    (hcurrent : system.calls[position]? = some call)
    (htold : ∀ evidence ∈ told system (.advance position answers), seen evidence)
    (hstep : call.step config answers system.world = some (next, after)) :
    next.Grounded config known seen justified ∧ (∀ id ∈ after.containers, known id) ∧
      after.profiles.Everywhere (ProfileJustified justified) := by
  have hcall := hground.calls call (List.mem_of_getElem? hcurrent)
  rcases Call.step_cases hstep with
    ⟨id, attach, state, started, rfl, hstarted, rfl, rfl⟩ | ⟨id, state, rfl, _, rfl, rfl⟩ |
    ⟨nameSpace, podName, rfl, rfl, rfl⟩ | ⟨nameSpace, podName, rfl, rfl, rfl⟩
  · rcases startStep_cases hstarted with
      ⟨_, _, hcontainers, _, _, hsame⟩ | ⟨hcontainers, _, _, hsame⟩
    · rw [hcontainers, hsame]
      refine ⟨hcall, ?_, hground.profiles⟩
      intro other hother
      rcases Finmap.mem_insert.mp hother with rfl | hold
      · exact hcall
      · exact hground.tracked other hold
    · rw [hcontainers, hsame]
      exact ⟨hcall, hground.tracked, hground.profiles⟩
  -- A pass about to peek is told the syscalls in this step.
  · have hpeek : ∀ found rest totalEvents, state = .load found (.syscalls :: rest) totalEvents →
        ∀ evidence ∈ peeked id answers.peek, seen evidence := by
      rintro found rest totalEvents rfl evidence hevidence
      apply htold evidence
      simp only [told, hcurrent]
      exact hevidence
    refine ⟨collectStep_grounded hground.tracked hground.sink hground.profiles hcall hpeek, ?_,
      collectStep_justified hjustifies hground.profiles hcall⟩
    intro other hother
    rcases (collectStep_tracks config id answers system.world state).1 with
      hsame | ⟨_, herased⟩
    · exact hground.tracked other (hsame ▸ hother)
    · exact hground.tracked other (Finmap.mem_erase.mp (herased ▸ hother)).2
  · refine ⟨trivial, ?_⟩
    unfold Collector.finalizeProfile
    split
    next hpatch =>
      exact ⟨hground.tracked, hground.profiles.patch
        (fun _ hprofile => hprofile.mark finalLabel) (of_request hpatch)⟩
    next => exact ⟨hground.tracked, hground.profiles⟩
  · refine ⟨trivial, ?_⟩
    unfold Collector.deleteProfile
    split
    · exact ⟨hground.tracked, hground.profiles⟩
    · exact ⟨hground.tracked, hground.profiles.delete _⟩

/-- A call that is launched has not read anything. -/
theorem LabelChange.launched_grounded {world next : World} {label : Label} {launched : List Call}
    (hchange : LabelChange config world label next launched)
    (hknown : ∀ id attach, label = .containerStarted id attach → known id) :
    ∀ call ∈ launched, call.Grounded config known seen justified := by
  intro call hcall
  cases call with
  | containerStarted id attach state => exact hknown id attach (hchange.launches_start hcall)
  | collectContainerEvents id state =>
      rw [hchange.launches_lookup hcall]
      trivial
  | _ => trivial

theorem LabelChange.tracked {world next : World} {label : Label} {launched : List Call}
    (hchange : LabelChange config world label next launched)
    (htracked : ∀ id ∈ world.containers, known id) : ∀ id ∈ next.containers, known id := by
  cases hchange with
  | stopped stopped =>
      intro id hid
      rw [(containerStopped_untracks world stopped).1] at hid
      exact htracked id (Finmap.mem_erase.mp hid).2
  | _ => exact htracked

theorem System.Grounded.sinkSeen {system next : System} {label : Label}
    (hground : system.Grounded config known seen justified)
    (htold : ∀ evidence ∈ told system label, seen evidence)
    (hstep : Collector.step config system label = some next) :
    SinkSeen seen next.world.eventSink := by
  cases sinkChange_of_step hstep with
  | same hsink =>
      rw [hsink]
      exact hground.sink
  | addFilter hcall hsink =>
      rw [hsink]
      exact hground.sink.addFilter _
  | removeFilter filter hsink =>
      rw [hsink]
      exact hground.sink.removeFilter filter
  | load hcall hcalls hsink =>
      rw [hsink]
      refine (BatchSeen.load (hground.calls _ (List.mem_of_getElem? hcall)).2 hground.sink ?_).2
      rintro rfl evidence hevidence
      apply htold evidence
      simp only [told, hcall]
      exact hevidence
  | sink hsink => exact hground.sink.step htold hsink

theorem System.Grounded.step {system next : System} {label : Label}
    (hground : system.Grounded config known seen justified)
    (hjustifies : Justifies config known seen justified)
    (hknown : ∀ id attach, label = .containerStarted id attach → known id)
    (htold : ∀ evidence ∈ told system label, seen evidence)
    (hstep : step config system label = some next) : next.Grounded config known seen justified := by
  rcases step_cases hstep with
    ⟨call, answers, current, after, rfl, hcurrent, hcall, hcalls⟩ | ⟨launched, hchange, hcalls⟩
  · obtain ⟨hafter, htracked, hprofiles⟩ :=
      Call.step_grounded hjustifies hground hcurrent htold hcall
    refine ⟨htracked, hground.sinkSeen htold hstep, ?_, hprofiles⟩
    intro other hother
    rw [hcalls] at hother
    rcases List.mem_or_eq_of_mem_set hother with hold | rfl
    · exact hground.calls other hold
    · exact hafter
  · have hlaunched : ∀ call ∈ system.calls ++ launched,
        call.Grounded config known seen justified := by
      intro call hcall
      rcases List.mem_append.mp hcall with hold | hnew
      · exact hground.calls call hold
      · exact hchange.launched_grounded hknown call hnew
    rw [← hcalls] at hlaunched
    refine ⟨hchange.tracked hground.tracked, hground.sinkSeen htold hstep, hlaunched, ?_⟩
    rw [hchange.profiles]
    exact hground.profiles

/-! ## Whole runs -/

/-- The entry was stored under the key at the start, or it is shown by evidence from a source
about a container whose pod has its profile under the key. -/
def Explained (config : CollectorManagerConfig) (initially : ProfileStore)
    (source : ContainerId → Evidence → Prop) (key : String × String) (container : String)
    (entry : Entry) : Prop :=
  (∃ object, initially.get key = some object ∧ object.value.Has container entry) ∨
    ∃ (id : ContainerId) (evidence : Evidence), source id evidence ∧
      id.profileKey config = key ∧ id.container = container ∧ evidence.Concerns id ∧
      evidence.Shows config entry

section Explained

variable {initially : ProfileStore} {source source' : ContainerId → Evidence → Prop}

theorem justifies_explained (hsource : ∀ id evidence, known id → seen evidence →
    source id evidence) : Justifies config known seen (Explained config initially source) :=
  fun id evidence _ hknown hseen hconcerns hshows =>
    Or.inr ⟨id, evidence, hsource id evidence hknown hseen, rfl, rfl, hconcerns, hshows⟩

theorem Explained.mono {key : String × String} {container : String} {entry : Entry}
    (hexplained : Explained config initially source key container entry)
    (hsource : ∀ id evidence, source id evidence → source' id evidence) :
    Explained config initially source' key container entry := by
  refine hexplained.imp_right ?_
  rintro ⟨id, evidence, hevidence, hshows⟩
  exact ⟨id, evidence, hsource id evidence hevidence, hshows⟩

end Explained

/-- The container was announced to the manager, as one that started or was attached to. -/
def Started (labels : List Label) (id : ContainerId) : Prop :=
  ∃ attach, Label.containerStarted id attach ∈ labels

/-- The run started the container, and told the manager of the evidence. -/
def ToldOf (config : CollectorManagerConfig) (start : System) (labels : List Label)
    (id : ContainerId) (evidence : Evidence) : Prop :=
  Started labels id ∧ evidence ∈ (machine config).trace told start labels

theorem System.grounded_of_run {start last : System} {labels : List Label} {filterEvents : Bool}
    (hstart : Initial start) (hsink : start.world.eventSink = .new filterEvents)
    (hrun : (machine config).run start labels = some last) :
    last.Grounded config (Started labels) (· ∈ (machine config).trace told start labels)
      (Explained config start.world.profiles (ToldOf config start labels)) := by
  refine (machine config).run_history_invariant (fun labels last =>
    last.Grounded config (Started labels) (· ∈ (machine config).trace told start labels)
      (Explained config start.world.profiles (ToldOf config start labels))) ?_ ?_ hrun
  · refine ⟨?_, ?_, ?_, ?_⟩
    · intro id hid
      rw [hstart.1] at hid
      exact absurd hid Finmap.notMem_empty
    · rw [hsink]
      exact SinkSeen.new filterEvents
    · intro call hcall
      rw [hstart.2.2.2.2] at hcall
      cases hcall
    · intro key object hobject container entry hentry
      exact Or.inl ⟨object, hobject, hentry⟩
  · intro labels state label next hbefore hground hstep
    have htrace : (machine config).trace told start (labels ++ [label]) =
        (machine config).trace told start labels ++ told state label :=
      (machine config).trace_concat hbefore
    have hstarted : ∀ id, Started labels id → Started (labels ++ [label]) id :=
      fun id ⟨attach, hmem⟩ => ⟨attach, List.mem_append_left _ hmem⟩
    have htold : ∀ evidence ∈ (machine config).trace told start labels,
        evidence ∈ (machine config).trace told start (labels ++ [label]) := by
      intro evidence hmem
      rw [htrace]
      exact List.mem_append_left _ hmem
    refine (hground.mono hstarted htold fun _ _ _ hexplained => hexplained.mono
      fun id evidence hsource => ⟨hstarted id hsource.1, htold evidence hsource.2⟩).step
      (justifies_explained fun _ _ hid hevidence => ⟨hid, hevidence⟩) ?_ ?_ hstep
    · rintro id attach rfl
      exact ⟨attach, List.mem_append_right _ List.mem_cons_self⟩
    · intro evidence hevidence
      rw [htrace]
      exact List.mem_append_right _ hevidence

/-- Whatever the order of events, passes and failures: an entry that is stored for a container
was stored at the start, or the container was started and the entry comes from an event that
the sink accepted, with names that agree with the container's up to where their hyphens fall,
or from a syscall that a pass of the container peeked. An open of an ignored path is never
among them. -/
theorem stored_entries_explained {start last : System} {labels : List Label}
    {filterEvents : Bool} (hstart : Initial start)
    (hsink : start.world.eventSink = .new filterEvents)
    (hrun : (machine config).run start labels = some last) {key : String × String}
    {object : Versioned ApplicationProfile} (hobject : last.world.profiles.get key = some object)
    {container : String} {entry : Entry} (hentry : object.value.Has container entry) :
    Explained config start.world.profiles (ToldOf config start labels) key container entry :=
  (System.grounded_of_run hstart hsink hrun).profiles key object hobject container entry hentry

/-- The shell that the container runs is collected. -/
def shellStoredRun : List Label :=
  recordingRun ++ .timerExpired nginx :: List.replicate 11 (.advance 1 {})

theorem nginx_shell_explained : ∃ last object,
    (machine mainConfig).run freshSystem shellStoredRun = some last ∧
      last.world.profiles.get (nginx.profileKey mainConfig) = some object ∧
      object.value.Has "app" (.exec (ExecCalls.ofEvent shellEvent)) ∧
      Explained mainConfig freshSystem.world.profiles
        (ToldOf mainConfig freshSystem shellStoredRun) (nginx.profileKey mainConfig) "app"
        (.exec (ExecCalls.ofEvent shellEvent)) := by
  have hends : ((machine mainConfig).run freshSystem shellStoredRun).any (fun last =>
      (last.world.profiles.get (nginx.profileKey mainConfig)).any fun object =>
        decide (∃ profile ∈ object.value.spec.containers, profile.name = "app" ∧
          ExecCalls.ofEvent shellEvent ∈ profile.execs)) = true := by
    decide +kernel
  obtain ⟨last, hrun, hlast⟩ := (Option.any_eq_true _ _).mp hends
  obtain ⟨object, hobject, hentry⟩ := (Option.any_eq_true _ _).mp hlast
  have hstored := of_decide_eq_true hentry
  have hshell : object.value.Has "app" (.exec (ExecCalls.ofEvent shellEvent)) := hstored
  exact ⟨last, object, hrun, hobject, hshell,
    stored_entries_explained initial_freshSystem rfl hrun hobject hshell⟩

end Kapprofiler.Collector
