import Kapprofiler.Collector.Copies
import Kapprofiler.Collector.PassLabels
import Kapprofiler.Controller.Handler
import Kapprofiler.Foundation.KeyedMerge

/-! # The partial mark

A profile is marked partial when a container that was running before created it, and the
mark goes when a container is merged that was seen from its start. It is one mark for
all containers of the pod: what it says of the others depends on who came first. To
compare, the machine is run along with the names of the containers of which a batch was
merged that was seen from the start.
-/

namespace Kapprofiler.Collector

open Foundation

/-- By profile, the containers of which a batch of an instance seen from its start is
merged. -/
abbrev SeenFromStart := String × String → List String

/-- The collector, along with what a reader of its writes would note down. -/
structure Observed where
  system : System
  seen : SeenFromStart

/-- A create begins the list, an accepted update adds to it, a deletion empties it; a
container that was attached to adds nothing. -/
def Call.note (config : CollectorManagerConfig) (answers : Answers) (world : World)
    (seen : SeenFromStart) : Call → SeenFromStart
  | .collectContainerEvents id (.create state containerProfile) =>
      match request answers.createFails (world.profiles.create (id.profileKey config)
          (newProfile config id state containerProfile)) with
      | some _ => Function.update seen (id.profileKey config)
          (if state.attached then [] else [containerProfile.name])
      | none => seen
  | .collectContainerEvents id (.update state containerProfile existing) =>
      match request answers.updateFails (world.profiles.update (id.profileKey config)
          (mergedProfile config (world.mounts id) state existing.value containerProfile)
          existing.version) with
      | some _ => Function.update seen (id.profileKey config)
          (if state.attached then seen (id.profileKey config)
          else containerProfile.name :: seen (id.profileKey config))
      | none => seen
  | .deleteProfile nameSpace podName false =>
      if answers.deleteFails then seen
      else Function.update seen (config.podProfileKey nameSpace podName) []
  | _ => seen

def Observed.note (config : CollectorManagerConfig) (observed : Observed) :
    Label → SeenFromStart
  | .advance call answers =>
      match observed.system.calls[call]? with
      | some current => current.note config answers observed.system.world observed.seen
      | none => observed.seen
  | _ => observed.seen

/-- The entries of a profile that does not carry the mark are all of such containers. -/
def TruthfulProfile (profile : ApplicationProfile) (names : List String) : Prop :=
  profile.labels.get partialLabel ≠ "true" →
    ∀ entry ∈ profile.spec.containers, entry.name ∈ names

def Truthful (profiles : ProfileStore) (seen : SeenFromStart) : Prop :=
  ∀ key object, profiles.get key = some object → TruthfulProfile object.value (seen key)

/-- The marks are truthful when the collector starts. -/
def observedMachine (config : CollectorManagerConfig) : Machine Observed Label where
  init observed := Initial observed.system ∧
    Truthful observed.system.world.profiles observed.seen
  step observed label := (step config observed.system label).map fun system =>
    ⟨system, observed.note config label⟩

/-- What the controller hands on has only entries of such containers. -/
def PropagatesSeen (observed : Observed) : Prop :=
  ∀ key object, observed.system.world.profiles.get key = some object →
    Controller.handleApplicationProfile ⟨key.1, object.value⟩ ≠ .idle →
    ∀ entry ∈ object.value.spec.containers, entry.name ∈ observed.seen key

/-- The mark stays truthful: an attached container is merged into a profile that stays
marked, or is not new to the list; and where the mark goes, all other entries are of
listed containers. -/
def CoveredUpdate (state : ContainerState) (containerProfile : ContainerProfile)
    (existing : ApplicationProfile) (names : List String) : Prop :=
  if state.attached then
    existing.labels.get partialLabel = "true" ∨ containerProfile.name ∈ names
  else existing.labels.get partialLabel = "true" →
    ∀ entry ∈ existing.spec.containers, entry.name = containerProfile.name ∨ entry.name ∈ names

/-- The condition on a step: an update over the stored profile is covered. -/
def Covered (config : CollectorManagerConfig) (observed : Observed) : Label → Prop
  | .advance call _ =>
      match observed.system.calls[call]? with
      | some (.collectContainerEvents id (.update state containerProfile existing)) =>
          observed.system.world.profiles.get (id.profileKey config) = some existing →
            CoveredUpdate state containerProfile existing.value
              (observed.seen (id.profileKey config))
      | _ => True
  | _ => True

/-- No request of the step fails. -/
def Label.Succeeds : Label → Prop
  | .advance _ answers => answers.Succeed
  | _ => True

instance : DecidablePred Label.Succeeds
  | .advance _ answers => inferInstanceAs (Decidable answers.Succeed)
  | .containerStarted _ _ | .containerStopped _ | .timerExpired _ | .sink _ | .podAdded _
  | .podUpdated _ | .podDeleted _ | .finalizationTimerExpired _
  | .finalizeApplicationProfile _ => isTrue trivial

variable {config : CollectorManagerConfig}

/-! ## One profile -/

section Profile

variable {state : ContainerState} {containerProfile : ContainerProfile}
  {existing : ApplicationProfile} {mounts : List String} {names : List String}

theorem mergeContainers_eq_insertMerge (containers : List ContainerProfile) :
    mergeContainers config mounts containerProfile containers =
      insertMerge ContainerProfile.name (mergeContainerProfile config mounts) containers
        containerProfile := by
  induction containers with
  | nil => rfl
  | cons first rest ih =>
      unfold mergeContainers insertMerge
      rw [ih]

/-- The merged profile has the entries of the profile that was read, and one of the
container. -/
theorem forall_entry_mergedProfile (holds : String → Prop) :
    (∀ entry ∈ (mergedProfile config mounts state existing containerProfile).spec.containers,
        holds entry.name) ↔
      (∀ entry ∈ existing.spec.containers, holds entry.name) ∧ holds containerProfile.name := by
  have hname : ∀ kept new, (mergeContainerProfile config mounts kept new).name = kept.name :=
    fun _ _ => rfl
  rw [mergedProfile_containers, mergeContainers_eq_insertMerge]
  exact forall_key_insertMerge hname holds existing.spec.containers containerProfile

/-- The mark of the merged profile is truthful exactly if the update is covered. -/
theorem truthfulProfile_mergedProfile_iff (hexisting : TruthfulProfile existing names) :
    TruthfulProfile (mergedProfile config mounts state existing containerProfile)
        (if state.attached then names else containerProfile.name :: names) ↔
      CoveredUpdate state containerProfile existing names := by
  unfold TruthfulProfile CoveredUpdate
  rw [forall_entry_mergedProfile fun name =>
    name ∈ if state.attached then names else containerProfile.name :: names]
  change ((clearPartial state existing).labels.get partialLabel ≠ "true" → _) ↔ _
  cases hattached : state.attached with
  | true =>
      rw [clearPartial_of_kept (Or.inl hattached)]
      simp only [if_true]
      constructor
      · intro htruthful
        exact or_iff_not_imp_left.mpr fun hwhole => (htruthful hwhole).2
      · intro hcovered hwhole
        exact ⟨hexisting hwhole, hcovered.resolve_left hwhole⟩
  | false =>
      simp only [Bool.false_eq_true, if_false]
      by_cases hmarked : existing.labels.get partialLabel = "true"
      · have hcleared : (clearPartial state existing).labels.get partialLabel ≠ "true" := by
          rw [clearPartial_labels hattached hmarked]
          decide
        simp [hcleared, hmarked]
      · rw [clearPartial_of_kept (Or.inr hmarked)]
        refine iff_of_true ?_ (fun h => absurd h hmarked)
        intro _
        refine ⟨fun entry hentry => List.mem_cons_of_mem _ (hexisting hmarked entry hentry), ?_⟩
        exact List.mem_cons_self

/-- A container that was attached to creates a marked profile. -/
theorem truthfulProfile_newProfile (id : ContainerId) :
    TruthfulProfile (newProfile config id state containerProfile)
      (if state.attached then [] else [containerProfile.name]) := by
  intro hwhole entry hentry
  rw [List.mem_singleton.mp hentry]
  cases hattached : state.attached with
  | false => exact List.mem_cons_self
  | true =>
      have hmarked : (newLabels config id state containerProfile).get partialLabel = "true" := by
        unfold newLabels Labels.get
        rw [hattached]
        dsimp only
        split <;> split <;> simp only [if_true, Finmap.lookup_insert_of_ne _
          (by decide : partialLabel ≠ failedLabel), Finmap.lookup_insert_of_ne _
          (by decide : partialLabel ≠ namespaceLabel), Finmap.lookup_insert, Option.getD_some]
      exact absurd hmarked hwhole

theorem TruthfulProfile.mark {profile : ApplicationProfile} {label : String}
    (htruthful : TruthfulProfile profile names) (hlabel : partialLabel ≠ label) :
    TruthfulProfile (profile.mark label) names := by
  unfold TruthfulProfile ApplicationProfile.mark Labels.get at *
  rwa [Finmap.lookup_insert_of_ne _ hlabel]

end Profile

/-! ## One step -/

section Step

variable {profiles next : ProfileStore} {seen : SeenFromStart} {key : String × String}

/-- Only what is stored under the key has to be compared with its list. -/
theorem Truthful.replace {names : List String} (htruthful : Truthful profiles seen)
    (hobject : ∀ object, next.get key = some object → TruthfulProfile object.value names)
    (hothers : ∀ other, other ≠ key → next.get other = profiles.get other) :
    Truthful next (Function.update seen key names) := by
  intro other object hget
  by_cases hother : other = key
  · subst hother
    rw [Function.update_self]
    exact hobject object hget
  · rw [Function.update_of_ne hother]
    rw [hothers other hother] at hget
    exact htruthful other object hget

theorem Truthful.create {profile : ApplicationProfile} {names : List String}
    (htruthful : Truthful profiles seen) (hprofile : TruthfulProfile profile names)
    (hcreate : profiles.create key profile = some next) :
    Truthful next (Function.update seen key names) := by
  obtain ⟨_, rfl⟩ := VersionedStore.create_eq_some.mp hcreate
  apply htruthful.replace
  · intro object hobject
    rw [VersionedStore.put_get] at hobject
    obtain rfl := Option.some.inj hobject
    exact hprofile
  · exact fun other hother => VersionedStore.put_get_of_ne _ _ hother

theorem Truthful.write {existing : Versioned ApplicationProfile} {profile : ApplicationProfile}
    {names : List String} (htruthful : Truthful profiles seen)
    (hexisting : profiles.get key = some existing) (hprofile : TruthfulProfile profile names) :
    Truthful (profiles.write key existing profile) (Function.update seen key names) := by
  apply htruthful.replace
  · intro object hobject
    obtain ⟨version, hget⟩ := profiles.write_get profile hexisting
    rw [hget] at hobject
    obtain rfl := Option.some.inj hobject
    exact hprofile
  · exact fun other hother => VersionedStore.write_get_of_ne _ _ _ hother

theorem Truthful.patch {label : String} (htruthful : Truthful profiles seen)
    (hlabel : partialLabel ≠ label)
    (hpatch : profiles.patch key (ApplicationProfile.mark label) = some next) :
    Truthful next seen := by
  obtain ⟨existing, hexisting, rfl⟩ := VersionedStore.patch_eq_some.mp hpatch
  have hmark := (htruthful key existing hexisting).mark hlabel
  have hwrite := htruthful.write hexisting hmark
  rwa [Function.update_eq_self] at hwrite

theorem Truthful.delete (htruthful : Truthful profiles seen) :
    Truthful (profiles.delete key) (Function.update seen key []) := by
  apply htruthful.replace
  · intro object hobject
    rw [VersionedStore.delete_get] at hobject
    cases hobject
  · exact fun other hother => VersionedStore.delete_get_of_ne _ hother

/-- A pass keeps the marks truthful if its update is covered. -/
theorem collectStep_truthful {system : System} {id : ContainerId} {state : PassState}
    {answers : Answers} (hcopies : CopiesFaithful config system)
    (hcall : Call.collectContainerEvents id state ∈ system.calls)
    (hcovered : ∀ found containerProfile existing, state = .update found containerProfile existing →
      system.world.profiles.get (id.profileKey config) = some existing →
      CoveredUpdate found containerProfile existing.value (seen (id.profileKey config)))
    (htruthful : Truthful system.world.profiles seen) :
    Truthful (collectStep config id answers system.world state).2.profiles
      ((Call.collectContainerEvents id state).note config answers system.world seen) := by
  cases state with
  | create found containerProfile =>
      simp only [collectStep, Call.note]
      cases hcreate : request answers.createFails (system.world.profiles.create
          (id.profileKey config) (newProfile config id found containerProfile)) with
      | some profiles =>
          exact htruthful.create (truthfulProfile_newProfile id) (of_request hcreate)
      | none => exact htruthful
  | update found containerProfile existing =>
      simp only [collectStep, Call.note]
      cases hupdate : request answers.updateFails (system.world.profiles.update
          (id.profileKey config) (mergedProfile config (system.world.mounts id) found
            existing.value containerProfile) existing.version) with
      | some profiles =>
          -- The update went through, so the copy of the pass is what is stored.
          obtain ⟨hfaithful, _⟩ := hcopies id _ existing hcall rfl
          obtain ⟨hexisting, rfl⟩ := hfaithful.get_of_update (of_request hupdate)
          exact htruthful.write hexisting ((truthfulProfile_mergedProfile_iff
            (htruthful _ existing hexisting)).mpr (hcovered _ _ _ rfl hexisting))
      | none => exact htruthful
  | limitPatch found containerProfile existing =>
      simp only [collectStep]
      split
      next hpatch => exact htruthful.patch (by decide) (of_request hpatch)
      next => exact htruthful
  | failedPatch =>
      simp only [collectStep]
      split
      next hpatch => exact htruthful.patch (by decide) (of_request hpatch)
      next => exact htruthful
  | lookup | load | get | removeFilter | stopTrace | markNotRecording | untrack | restartTimer
  | returned =>
      rcases collectStep_profiles config id answers system.world _ with
        heq | ⟨_, _, heq, _⟩ | ⟨⟨_, _, _, heq⟩ | heq, _⟩ | ⟨_, _, _, heq, _⟩
      · rw [heq]
        exact htruthful
      all_goals cases heq

/-- Only a call that advances writes profiles. -/
theorem profiles_of_ne_advance {system after : System} {label : Label}
    (hlabel : ∀ call answers, label ≠ .advance call answers)
    (hstep : step config system label = some after) :
    after.world.profiles = system.world.profiles := by
  rcases step_cases hstep with ⟨call, answers, _, _, heq, _⟩ | ⟨launched, hchange, _⟩
  · exact absurd heq (hlabel call answers)
  · generalize after.world = world at hchange ⊢
    cases hchange with
    | stopped id => exact (containerStopped_untracks system.world id).2.2.1
    | _ => rfl

/-- A covered step of the collector keeps the marks truthful. -/
theorem step_truthful {observed : Observed} {label : Label} {after : System}
    (hcopies : CopiesFaithful config observed.system)
    (htruthful : Truthful observed.system.world.profiles observed.seen)
    (hcovered : Covered config observed label)
    (hstep : step config observed.system label = some after) :
    Truthful after.world.profiles (observed.note config label) := by
  cases label with
  | advance call answers =>
      obtain ⟨current, next, hcurrent, hcall, _⟩ := step_advance hstep
      simp only [Observed.note, hcurrent]
      rcases Call.step_cases hcall with
        ⟨id, attach, state, started, rfl, hstarted, rfl, hworld⟩ |
        ⟨id, state, rfl, _, rfl, hworld⟩ | ⟨nameSpace, podName, rfl, rfl, hworld⟩ |
        ⟨nameSpace, podName, rfl, rfl, hworld⟩
      · have hsame : after.world.profiles = observed.system.world.profiles := by
          rw [hworld]
          rcases startStep_cases hstarted with ⟨_, _, _, _, _, heq⟩ | ⟨_, _, _, heq⟩
          · exact heq
          · exact heq
        rw [hsame]
        exact htruthful
      · rw [hworld]
        refine collectStep_truthful hcopies (List.mem_of_getElem? hcurrent) ?_ htruthful
        intro found containerProfile existing heq
        simp only [Covered, hcurrent, heq] at hcovered
        exact hcovered
      · rw [hworld]
        unfold finalizeProfile
        split
        next hpatch => exact htruthful.patch (by decide) (of_request hpatch)
        next => exact htruthful
      · rw [hworld]
        simp only [deleteProfile, Call.note]
        split
        · exact htruthful
        · exact htruthful.delete
  | _ =>
      rw [profiles_of_ne_advance (by simp) hstep]
      exact htruthful

/-- An update that is accepted leaves the merged profile and its list. -/
theorem get_of_accepted_update {observed : Observed} {after : System} {call : Nat}
    {answers : Answers} {id : ContainerId} {state : ContainerState}
    {containerProfile : ContainerProfile} {existing : Versioned ApplicationProfile}
    (hsucceed : answers.Succeed)
    (hcall : observed.system.calls[call]? =
      some (.collectContainerEvents id (.update state containerProfile existing)))
    (hexisting : observed.system.world.profiles.get (id.profileKey config) = some existing)
    (hstep : step config observed.system (.advance call answers) = some after) :
    ∃ version, after.world.profiles.get (id.profileKey config) =
        some ⟨mergedProfile config (observed.system.world.mounts id) state existing.value
          containerProfile, version⟩ ∧
      observed.note config (.advance call answers) (id.profileKey config) =
        if state.attached then observed.seen (id.profileKey config)
        else containerProfile.name :: observed.seen (id.profileKey config) := by
  have hupdate := request_eq_some.mpr ⟨hsucceed.update, VersionedStore.update_of_get
    (mergedProfile config (observed.system.world.mounts id) state existing.value
      containerProfile) hexisting⟩
  obtain ⟨version, hget⟩ := observed.system.world.profiles.write_get
    (mergedProfile config (observed.system.world.mounts id) state existing.value
      containerProfile) hexisting
  refine ⟨version, ?_, ?_⟩
  · obtain ⟨current, next, hcurrent, hnext, _⟩ := step_advance hstep
    obtain rfl := Option.some.inj (hcall.symm.trans hcurrent)
    simp only [Call.step, collectStep, hupdate, Option.some.injEq, Prod.mk.injEq] at hnext
    rw [← hnext.2]
    exact hget
  · simp only [Observed.note, hcall, Call.note, hupdate, Function.update_self]

/-- With all writes succeeding, a step is covered exactly if the marks stay truthful. -/
theorem covered_iff_truthful {observed : Observed} {label : Label} {after : System}
    (hcopies : CopiesFaithful config observed.system)
    (htruthful : Truthful observed.system.world.profiles observed.seen)
    (hsucceed : label.Succeeds)
    (hstep : step config observed.system label = some after) :
    Covered config observed label ↔
      Truthful after.world.profiles (observed.note config label) := by
  constructor
  · intro hcovered
    exact step_truthful hcopies htruthful hcovered hstep
  · intro hafter
    cases label with
    | advance call answers =>
        unfold Covered
        dsimp only
        split
        next id state containerProfile existing hcall =>
          intro hexisting
          obtain ⟨version, hget, hnote⟩ :=
            get_of_accepted_update hsucceed hcall hexisting hstep
          have hmerged := hafter _ _ hget
          rw [hnote] at hmerged
          exact (truthfulProfile_mergedProfile_iff (htruthful _ existing hexisting)).mp hmerged
        next => trivial
    | _ => trivial

end Step

/-! ## Whole runs -/

/-- A truthful mark keeps the controller from handing on anything else. -/
theorem Truthful.propagatesSeen {observed : Observed}
    (htruthful : Truthful observed.system.world.profiles observed.seen) :
    PropagatesSeen observed := by
  intro key object hobject hpropagated
  apply htruthful key object hobject
  intro hmarked
  exact hpropagated (if_pos hmarked)

/-- In a run with all writes succeeding, no profile without the mark ever has an entry of
a container only observed midway, and none is handed on to a workload, exactly if every
update is covered. -/
theorem partial_mark_truthful_iff {start last : Observed} {labels : List Label}
    (hstart : (observedMachine config).init start)
    (hsucceed : ∀ label ∈ labels, label.Succeeds)
    (hrun : (observedMachine config).run start labels = some last) :
    (∀ before observed, before <+: labels →
        (observedMachine config).run start before = some observed →
        Truthful observed.system.world.profiles observed.seen ∧ PropagatesSeen observed) ↔
      (observedMachine config).Along (Covered config) start labels := by
  have hcopies : CopiesFaithful config start.system :=
    reachable_copiesFaithful ⟨start.system, [], hstart.1, rfl⟩
  have hside : ∀ observed label next, CopiesFaithful config observed.system →
      (observedMachine config).step observed label = some next →
      CopiesFaithful config next.system := by
    intro observed label next hcopies hstep
    obtain ⟨system, hsystem, rfl⟩ := Option.map_eq_some_iff.mp hstep
    exact step_copiesFaithful hcopies hsystem
  have hexact : ∀ observed label next, CopiesFaithful config observed.system →
      Truthful observed.system.world.profiles observed.seen → label ∈ labels →
      (observedMachine config).step observed label = some next →
      (Covered config observed label ↔ Truthful next.system.world.profiles next.seen) := by
    intro observed label next hcopies htruthful hlabel hstep
    obtain ⟨system, hsystem, rfl⟩ := Option.map_eq_some_iff.mp hstep
    exact covered_iff_truthful hcopies htruthful (hsucceed label hlabel) hsystem
  rw [Machine.along_iff_forall_prefix _ hside hexact hcopies hstart.2 hrun]
  constructor
  · intro hall before observed hbefore hobserved
    exact (hall before observed hbefore hobserved).1
  · intro hall before observed hbefore hobserved
    have htruthful := hall before observed hbefore hobserved
    exact ⟨htruthful, htruthful.propagatesSeen⟩

/-! ## A second container -/

/-- Another container of the pod. -/
def proxy : ContainerId := { nginx with container := "proxy", containerID := "234567890a" }

/-- The collector attaches to `nginx` and creates the profile; then the other container
starts and is merged. -/
def midwayRun : List Label :=
  .containerStarted nginx true :: List.replicate 6 (.advance 0 {}) ++
    .timerExpired nginx :: List.replicate 11 (.advance 1 { peek := .ok ["read"] }) ++
    .containerStarted proxy false :: List.replicate 7 (.advance 2 {}) ++
    .timerExpired proxy :: List.replicate 11 (.advance 3 { peek := .ok ["open"] })

def freshObserved : Observed := ⟨freshSystem, fun _ => []⟩

theorem init_freshObserved : (observedMachine mainConfig).init freshObserved :=
  ⟨initial_freshSystem, fun _ _ hobject => by cases hobject⟩

/-- The profile then has an entry of `nginx`, which was only observed midway, and no
mark. -/
theorem midway_unmarked : ∃ last object entry,
    (observedMachine mainConfig).run freshObserved midwayRun = some last ∧
    last.system.world.profiles.get (nginx.profileKey mainConfig) = some object ∧
    object.value.labels.get partialLabel ≠ "true" ∧ entry ∈ object.value.spec.containers ∧
    entry.name ∉ last.seen (nginx.profileKey mainConfig) :=
  ⟨_, _, _, rfl, rfl, by decide, List.mem_cons_self, by decide⟩

theorem proxy_uncovered :
    ¬ (observedMachine mainConfig).Along (Covered mainConfig) freshObserved midwayRun := by
  intro hcovered
  obtain ⟨last, object, entry, hrun, hobject, hwhole, hentry, hseen⟩ := midway_unmarked
  have hall := (partial_mark_truthful_iff init_freshObserved (by decide) hrun).mpr hcovered
  exact hseen ((hall midwayRun last (List.prefix_refl _) hrun).1 _ object hobject hwhole entry
    hentry)

/-- The mark goes with the second container, and the controller hands the profile on. -/
theorem proxy_clears_mark : (observedMachine mainConfig).init freshObserved ∧
    (∀ label ∈ midwayRun, label.Succeeds) ∧
    ∃ last, (observedMachine mainConfig).run freshObserved midwayRun = some last ∧
      ¬ (Truthful last.system.world.profiles last.seen ∧ PropagatesSeen last) := by
  obtain ⟨last, object, entry, hrun, hobject, hwhole, hentry, hseen⟩ := midway_unmarked
  refine ⟨init_freshObserved, by decide, last, hrun, ?_⟩
  intro hboth
  exact hseen (hboth.1 _ object hobject hwhole entry hentry)

end Kapprofiler.Collector
