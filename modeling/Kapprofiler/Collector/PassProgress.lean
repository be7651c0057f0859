import Kapprofiler.Collector.Copies
import Kapprofiler.Collector.FailedWrites
import Kapprofiler.Collector.Merging

/-! # How far a pass is

What is known of a pass at each of its states, from the drained batch on, if its
requests do not fail: that it is bound to keep its batch as long as the profile it
read is still the stored one, and bound to give its container up when it is not.
-/

namespace Kapprofiler.Collector

open Tracing Foundation

variable {config : CollectorManagerConfig}

/-- A pass that has drained its batch and is about to build its container profile. -/
structure Collecting where
  call : Nat
  id : ContainerId
  state : ContainerState
  batch : TotalEvents

/-- The pass has read the profile, or found none, and has not written yet. -/
def PassState.hasRead : PassState → Bool
  | .create _ _ => true
  | .limitPatch _ _ _ => true
  | .update _ _ _ => true
  | _ => false

/-- The pass has read a stored profile and has not written yet. -/
def PassState.holdsCopy (state : PassState) : Bool := state.copy.isSome

namespace Collecting

def At (pass : Collecting) (system : System) (state : PassState) : Prop :=
  system.calls[pass.call]? = some (.collectContainerEvents pass.id state)

/-- The container is tracked, and its batch is not empty and below the limit of opens. -/
structure Ready (pass : Collecting) (system : System) : Prop where
  drained : pass.At system (.load pass.state [] pass.batch)
  tracked : pass.id ∈ system.world.containers
  nonempty : shouldProcessEvents pass.batch = true
  opens : pass.batch.openEvents.length < maxOpenEvents

def HasReturned (pass : Collecting) (system : System) : Prop :=
  ∃ exit, pass.At system (.returned exit)

/-- The container is tracked, and its entry has what the batch amounts to. -/
def Kept (config : CollectorManagerConfig) (pass : Collecting) (world : World) : Prop :=
  pass.id ∈ world.containers ∧ ∃ entry ∈ world.entry config pass.id, Holds pass.batch entry

/-- The container is untracked, and the profile of its pod is marked failed. -/
def GivenUp (config : CollectorManagerConfig) (pass : Collecting) (world : World) : Prop :=
  pass.id ∉ world.containers ∧ FailedMarked config pass.id world

/-- The passes collect two containers of one pod. -/
structure SamePod (pass other : Collecting) : Prop where
  nameSpace : pass.id.nameSpace = other.id.nameSpace
  podName : pass.id.podName = other.id.podName
  distinct : pass.id ≠ other.id

variable {pass other : Collecting} {world : World} {answers : Answers} {state : PassState}

theorem SamePod.symm (hpod : SamePod pass other) : SamePod other pass where
  nameSpace := hpod.nameSpace.symm
  podName := hpod.podName.symm
  distinct := hpod.distinct.symm

theorem SamePod.profileKey (hpod : SamePod pass other) :
    other.id.profileKey config = pass.id.profileKey config := by
  simp only [ContainerId.profileKey, hpod.nameSpace, hpod.podName]

theorem SamePod.call_ne (hpod : SamePod pass other) {system : System} {otherState : PassState}
    (hpass : pass.At system state) (hother : other.At system otherState) :
    pass.call ≠ other.call := by
  intro heq
  unfold At at hpass hother
  rw [heq, hother] at hpass
  simp only [Option.some.injEq, Call.collectContainerEvents.injEq] at hpass
  exact hpod.distinct hpass.1.symm

theorem At.unique {system : System} {state' : PassState} (hat : pass.At system state)
    (hat' : pass.At system state') : state = state' := by
  unfold At at hat hat'
  rw [hat] at hat'
  simpa using hat'

/-! ## How far a pass is -/

/-- The profile that the pass builds from its batch, with the mounts it finds. -/
def Built (config : CollectorManagerConfig) (pass : Collecting) (profile : ContainerProfile) :
    Prop :=
  ∃ mounts, profile = buildContainerProfile config mounts pass.id.container pass.batch

/-- What holds of a pass that began ready and whose requests do not fail. -/
inductive Progress (config : CollectorManagerConfig) (pass : Collecting) (world : World) :
    PassState → Prop
  | load {found : ContainerState} (htracked : pass.id ∈ world.containers) :
      Progress config pass world (.load found [] pass.batch)
  | get {found : ContainerState} {profile : ContainerProfile}
      (hbuilt : pass.Built config profile) (htracked : pass.id ∈ world.containers) :
      Progress config pass world (.get found profile)
  | create {found : ContainerState} {profile : ContainerProfile}
      (hbuilt : pass.Built config profile) (htracked : pass.id ∈ world.containers) :
      Progress config pass world (.create found profile)
  | update {found : ContainerState} {profile : ContainerProfile}
      {existing : Versioned ApplicationProfile} (hbuilt : pass.Built config profile)
      (htracked : pass.id ∈ world.containers) :
      Progress config pass world (.update found profile existing)
  | restartTimer {exit : PassExit} (hexit : exit = .createFailed ∨
      (exit = .created ∨ exit = .updated) ∧ pass.Kept config world) :
      Progress config pass world (.restartTimer exit)
  | removeFilter : Progress config pass world (.removeFilter .updateFailed)
  | stopTrace : Progress config pass world (.stopTrace .updateFailed)
  | markNotRecording : Progress config pass world (.markNotRecording .updateFailed)
  | untrack : Progress config pass world (.untrack .updateFailed)
  | failedPatch : Progress config pass world .failedPatch
  | returned {exit : PassExit} (hexit : exit = .createFailed ∨ exit = .updateFailed ∨
      (exit = .created ∨ exit = .updated) ∧ pass.Kept config world) :
      Progress config pass world (.returned exit)

/-- Nothing was written since the pass read, so its write will be accepted. -/
inductive Current (config : CollectorManagerConfig) (pass : Collecting) (world : World) :
    PassState → Prop
  | load {found : ContainerState} {remaining : List EventSource} {totalEvents : TotalEvents} :
      Current config pass world (.load found remaining totalEvents)
  | get {found : ContainerState} {profile : ContainerProfile} :
      Current config pass world (.get found profile)
  | create {found : ContainerState} {profile : ContainerProfile}
      (habsent : world.profiles.get (pass.id.profileKey config) = none) :
      Current config pass world (.create found profile)
  | update {found : ContainerState} {profile : ContainerProfile}
      {existing : Versioned ApplicationProfile}
      (hexisting : world.profiles.get (pass.id.profileKey config) = some existing) :
      Current config pass world (.update found profile existing)
  | restartTimer {exit : PassExit} (hexit : exit = .created ∨ exit = .updated) :
      Current config pass world (.restartTimer exit)
  | returned {exit : PassExit} (hexit : exit = .created ∨ exit = .updated) :
      Current config pass world (.returned exit)

/-- The update of the pass will be rejected, or was. -/
inductive Rejected (config : CollectorManagerConfig) (pass : Collecting) (world : World) :
    PassState → Prop
  | update {found : ContainerState} {profile : ContainerProfile}
      {existing : Versioned ApplicationProfile}
      (hstale : world.profiles.Stale (pass.id.profileKey config) existing) :
      Rejected config pass world (.update found profile existing)
  | removeFilter {object : Versioned ApplicationProfile}
      (hobject : world.profiles.get (pass.id.profileKey config) = some object) :
      Rejected config pass world (.removeFilter .updateFailed)
  | stopTrace {object : Versioned ApplicationProfile}
      (hobject : world.profiles.get (pass.id.profileKey config) = some object) :
      Rejected config pass world (.stopTrace .updateFailed)
  | markNotRecording {object : Versioned ApplicationProfile}
      (hobject : world.profiles.get (pass.id.profileKey config) = some object) :
      Rejected config pass world (.markNotRecording .updateFailed)
  | untrack {object : Versioned ApplicationProfile}
      (hobject : world.profiles.get (pass.id.profileKey config) = some object) :
      Rejected config pass world (.untrack .updateFailed)
  | failedPatch {object : Versioned ApplicationProfile}
      (huntracked : pass.id ∉ world.containers)
      (hobject : world.profiles.get (pass.id.profileKey config) = some object) :
      Rejected config pass world .failedPatch
  | returned (hgivenUp : pass.GivenUp config world) :
      Rejected config pass world (.returned .updateFailed)

/-- The pass has nothing left to write. -/
def Written : PassState → Prop
  | .restartTimer _ | .returned _ => True
  | _ => False

theorem Built.length_opens_lt {profile : ContainerProfile} (hbuilt : pass.Built config profile)
    (hopens : pass.batch.openEvents.length < maxOpenEvents) :
    profile.opens.length < maxOpenEvents := by
  obtain ⟨mounts, rfl⟩ := hbuilt
  have hlength : (pass.batch.openEvents.foldl (addOpen config mounts) []).length ≤
      [].length + pass.batch.openEvents.length := length_foldl_appendWhen_le _ _
  rw [List.length_nil, Nat.zero_add] at hlength
  exact hlength.trans_lt hopens

/-! ## What a pass writes -/

/-- The effective and ineffective writes of a pass in the given state. -/
inductive PassWrite (config : CollectorManagerConfig) (pass : Collecting)
    (profiles : ProfileStore) : PassState → ProfileStore → Prop
  | create {state : ContainerState} {profile : ContainerProfile}
      (hbuilt : pass.Built config profile)
      (habsent : profiles.get (pass.id.profileKey config) = none) :
      PassWrite config pass profiles (.create state profile)
        (profiles.put (pass.id.profileKey config) (newProfile config pass.id state profile))
  | mark {object : Versioned ApplicationProfile}
      (hobject : profiles.get (pass.id.profileKey config) = some object) :
      PassWrite config pass profiles .failedPatch
        (profiles.write (pass.id.profileKey config) object (object.value.mark failedLabel))
  | update {state : ContainerState} {profile : ContainerProfile} (mounts : List String)
      {existing : Versioned ApplicationProfile} (hbuilt : pass.Built config profile)
      (hexisting : profiles.get (pass.id.profileKey config) = some existing) :
      PassWrite config pass profiles (.update state profile existing)
        (profiles.write (pass.id.profileKey config) existing
          (mergedProfile config mounts state existing.value profile))

theorem collectStep_write (hprogress : pass.Progress config world state)
    (hfaithful : ∀ copy, state.copy = some copy →
      world.profiles.Faithful (pass.id.profileKey config) copy) :
    (collectStep config pass.id answers world state).2.profiles = world.profiles ∨
      PassWrite config pass world.profiles state
        (collectStep config pass.id answers world state).2.profiles := by
  rcases collectStep_profiles config pass.id answers world state with
    heq | ⟨found, profile, rfl, hcreate⟩ | ⟨hstate, hpatch⟩ |
    ⟨found, profile, existing, rfl, hupdate⟩
  · exact Or.inl heq
  · cases hprogress with
    | create hbuilt =>
        obtain ⟨habsent, heq⟩ := VersionedStore.create_eq_some.mp hcreate
        rw [heq]
        exact Or.inr (.create hbuilt habsent)
  · obtain ⟨object, hobject, heq⟩ := VersionedStore.patch_eq_some.mp hpatch
    rcases hstate with ⟨_, _, _, rfl⟩ | rfl
    · -- Below the limit of opens no pass patches before its update.
      cases hprogress
    · rw [heq]
      exact Or.inr (.mark hobject)
  · cases hprogress with
    | update hbuilt =>
        obtain ⟨hexisting, heq⟩ := (hfaithful existing rfl).get_of_update hupdate
        rw [heq]
        exact Or.inr (.update _ hbuilt hexisting)

section PassWrite

variable {profiles next : ProfileStore}

/-- The write takes a fresh revision or changes nothing. -/
theorem PassWrite.eq_or_put (hwrite : PassWrite config pass profiles state next) :
    next = profiles ∨ ∃ value, next = profiles.put (pass.id.profileKey config) value := by
  cases hwrite with
  | create => exact Or.inr ⟨_, rfl⟩
  | mark => exact (profiles.write_eq_or_put _ _ _).imp_right fun heq => ⟨_, heq⟩
  | update => exact (profiles.write_eq_or_put _ _ _).imp_right fun heq => ⟨_, heq⟩

/-- Whoever wrote the entries of a stored profile, they are kept. -/
theorem PassWrite.extends {object : Versioned ApplicationProfile}
    (hwrite : PassWrite config pass profiles state next)
    (hobject : profiles.get (pass.id.profileKey config) = some object) :
    ∃ extended, next.get (pass.id.profileKey config) = some extended ∧
      object.value.Extends extended.value := by
  cases hwrite with
  | create _ habsent =>
      rw [habsent] at hobject
      cases hobject
  | @mark stored hstored =>
      obtain rfl := Option.some.inj (hstored.symm.trans hobject)
      obtain ⟨version, hget⟩ := profiles.write_get (stored.value.mark failedLabel) hobject
      exact ⟨_, hget, ApplicationProfile.Extends.refl stored.value⟩
  | @update found profile mounts existing _ hstored =>
      obtain rfl := Option.some.inj (hstored.symm.trans hobject)
      obtain ⟨version, hget⟩ :=
        profiles.write_get (mergedProfile config mounts found existing.value profile) hobject
      exact ⟨_, hget, extends_mergedProfile found existing.value profile⟩

theorem newLabels_get {found : ContainerState} {profile : ContainerProfile}
    (hopens : profile.opens.length < maxOpenEvents) :
    (newLabels config pass.id found profile).get finalLabel ≠ "true" ∧
      (newLabels config pass.id found profile).get failedLabel ≠ "true" := by
  have hpartial : finalLabel ≠ partialLabel ∧ failedLabel ≠ partialLabel := by decide
  have hnamespace : finalLabel ≠ namespaceLabel ∧ failedLabel ≠ namespaceLabel := by decide
  have hbelow : ¬ maxOpenEvents ≤ profile.opens.length := Nat.not_le.mpr hopens
  simp only [newLabels, Labels.get, if_neg hbelow]
  split <;> split <;> simp [Finmap.lookup_insert_of_ne, hpartial, hnamespace]

theorem clearPartial_get {found : ContainerState} {existing : ApplicationProfile} {label : String}
    (hlabel : label ≠ partialLabel)
    (hget : (clearPartial found existing).labels.get label = "true") :
    existing.labels.get label = "true" := by
  unfold clearPartial at hget
  split at hget
  · simp [Labels.get, Finmap.lookup_insert_of_ne, hlabel] at hget
  · exact hget

/-- No write of a pass makes a profile final. -/
theorem PassWrite.not_final (hopens : pass.batch.openEvents.length < maxOpenEvents)
    (hwrite : PassWrite config pass profiles state next)
    (hfinal : ∀ object ∈ profiles.get (pass.id.profileKey config), ¬ object.value.isFinal) :
    ∀ object ∈ next.get (pass.id.profileKey config), ¬ object.value.isFinal := by
  intro object hobject
  cases hwrite with
  | @create found profile hbuilt habsent =>
      rw [VersionedStore.put_get] at hobject
      obtain rfl := Option.some.inj hobject
      exact (newLabels_get (hbuilt.length_opens_lt hopens)).1
  | @mark stored hstored =>
      obtain ⟨version, hget⟩ := profiles.write_get (stored.value.mark failedLabel) hstored
      obtain rfl := Option.some.inj (hget.symm.trans hobject)
      intro hmarked
      unfold ApplicationProfile.isFinal ApplicationProfile.mark Labels.get at hmarked
      rw [Finmap.lookup_insert_of_ne _ (by decide)] at hmarked
      exact hfinal stored hstored hmarked
  | @update found profile mounts existing _ hstored =>
      obtain ⟨version, hget⟩ :=
        profiles.write_get (mergedProfile config mounts found existing.value profile) hstored
      obtain rfl := Option.some.inj (hget.symm.trans hobject)
      intro hmerged
      exact hfinal existing hstored (clearPartial_get (by decide) hmerged)

/-- Only the mark of a rejected pass makes a profile failed. -/
theorem PassWrite.failed (hopens : pass.batch.openEvents.length < maxOpenEvents)
    (hwrite : PassWrite config pass profiles state next) (hstate : state ≠ .failedPatch)
    (hfailed : ∃ object ∈ next.get (pass.id.profileKey config),
      object.value.labels.get failedLabel = "true") :
    ∃ object ∈ profiles.get (pass.id.profileKey config),
      object.value.labels.get failedLabel = "true" := by
  obtain ⟨object, hobject, hlabel⟩ := hfailed
  cases hwrite with
  | @create found profile hbuilt habsent =>
      rw [VersionedStore.put_get] at hobject
      obtain rfl := Option.some.inj hobject
      exact absurd hlabel (newLabels_get (hbuilt.length_opens_lt hopens)).2
  | mark hstored => exact absurd rfl hstate
  | @update found profile mounts existing _ hstored =>
      obtain ⟨version, hget⟩ :=
        profiles.write_get (mergedProfile config mounts found existing.value profile) hstored
      obtain rfl := Option.some.inj (hget.symm.trans hobject)
      exact ⟨existing, hstored, clearPartial_get (by decide) hlabel⟩

end PassWrite

/-! ## One step of the pass itself -/

theorem Progress.step (hprogress : pass.Progress config world state)
    (hbatch : shouldProcessEvents pass.batch = true)
    (hopens : pass.batch.openEvents.length < maxOpenEvents)
    (hfinal : ∀ object ∈ world.profiles.get (pass.id.profileKey config), ¬ object.value.isFinal)
    (hfaithful : ∀ copy, state.copy = some copy →
      world.profiles.Faithful (pass.id.profileKey config) copy) :
    pass.Progress config (collectStep config pass.id answers world state).2
      (collectStep config pass.id answers world state).1 := by
  cases hprogress with
  | load htracked =>
      simp only [collectStep, hbatch, if_true]
      exact .get ⟨_, rfl⟩ htracked
  | get hbuilt htracked =>
      simp only [collectStep]
      split
      · exact .create hbuilt htracked
      next existing hget =>
        rw [if_neg (hfinal existing (of_request hget)),
          if_neg (Nat.not_le.mpr (hbuilt.length_opens_lt hopens))]
        exact .update hbuilt htracked
  | create hbuilt htracked =>
      obtain ⟨mounts, rfl⟩ := hbuilt
      simp only [collectStep]
      split
      next profiles hcreate =>
        obtain ⟨_, rfl⟩ := VersionedStore.create_eq_some.mp (of_request hcreate)
        refine .restartTimer (Or.inr ⟨Or.inl rfl, htracked, ?_⟩)
        simp only [World.entry, VersionedStore.put_get, Option.bind_some]
        exact ⟨buildContainerProfile config mounts pass.id.container pass.batch,
          by simp [containerEntry, newProfile, buildContainerProfile],
          holds_buildContainerProfile pass.id.container pass.batch⟩
      next => exact .restartTimer (Or.inl rfl)
  | @update found profile existing hbuilt htracked =>
      obtain ⟨mounts, rfl⟩ := hbuilt
      simp only [collectStep]
      split
      next profiles hupdate =>
        -- Accepted, so the batch was merged into the profile that is stored.
        obtain ⟨hexisting, rfl⟩ := (hfaithful existing rfl).get_of_update (of_request hupdate)
        obtain ⟨version, hget⟩ := world.profiles.write_get (mergedProfile config
          (world.mounts pass.id) found existing.value
          (buildContainerProfile config mounts pass.id.container pass.batch)) hexisting
        refine .restartTimer (Or.inr ⟨Or.inr rfl, htracked, ?_⟩)
        simp only [World.entry, hget, Option.bind_some]
        exact holds_mergedProfile found existing.value pass.id.container pass.batch mounts
      next => exact .removeFilter
  | restartTimer hexit => exact .returned (hexit.imp_right Or.inr)
  | removeFilter => exact .stopTrace
  | stopTrace => exact .markNotRecording
  | markNotRecording => exact .untrack
  | untrack => exact .failedPatch
  | failedPatch =>
      simp only [collectStep]
      split <;> exact .returned (Or.inr (Or.inl rfl))
  | returned hexit => exact .returned hexit

theorem Current.step (hcurrent : pass.Current config world state)
    (hprogress : pass.Progress config world state) (hsucceed : answers.Succeed)
    (hbatch : shouldProcessEvents pass.batch = true)
    (hopens : pass.batch.openEvents.length < maxOpenEvents)
    (hfinal : ∀ object ∈ world.profiles.get (pass.id.profileKey config), ¬ object.value.isFinal) :
    pass.Current config (collectStep config pass.id answers world state).2
      (collectStep config pass.id answers world state).1 := by
  cases hcurrent with
  | load =>
      cases hprogress
      simp only [collectStep, hbatch, if_true]
      exact .get
  -- The profile is not final, and the batch is below the limit: neither exit is taken.
  | get =>
      simp only [collectStep, request, hsucceed.get, Bool.false_eq_true, if_false]
      split
      next habsent => exact .create habsent
      next existing hget =>
        cases hprogress with
        | get hbuilt =>
            rw [if_neg (hfinal existing hget),
              if_neg (Nat.not_le.mpr (hbuilt.length_opens_lt hopens))]
            exact .update hget
  | @create found profile habsent =>
      have hcreate := request_eq_some.mpr ⟨hsucceed.create,
        VersionedStore.create_of_absent (newProfile config pass.id found profile) habsent⟩
      simp only [collectStep, hcreate]
      exact .restartTimer (Or.inl rfl)
  | @update found profile existing hexisting =>
      have hupdate := request_eq_some.mpr ⟨hsucceed.update, VersionedStore.update_of_get
        (mergedProfile config (world.mounts pass.id) found existing.value profile) hexisting⟩
      simp only [collectStep, hupdate]
      exact .restartTimer (Or.inr rfl)
  | restartTimer hexit => exact .returned hexit
  | returned hexit => exact .returned hexit

/-- Being current is about the profile that the pass has read. -/
theorem Current.of_same {after : World} (hcurrent : pass.Current config world state)
    (hsame : state.hasRead = true → after.profiles = world.profiles) :
    pass.Current config after state := by
  cases hcurrent with
  | load => exact .load
  | get => exact .get
  | create habsent => exact .create (by rw [hsame rfl]; exact habsent)
  | update hexisting => exact .update (by rw [hsame rfl]; exact hexisting)
  | restartTimer hexit => exact .restartTimer hexit
  | returned hexit => exact .returned hexit

theorem Rejected.step (hrejected : pass.Rejected config world state)
    (hsucceed : answers.Succeed) :
    pass.Rejected config (collectStep config pass.id answers world state).2
      (collectStep config pass.id answers world state).1 := by
  cases hrejected with
  | @update found profile existing hstale =>
      have hupdate : request answers.updateFails (world.profiles.update
          (pass.id.profileKey config)
          (mergedProfile config (world.mounts pass.id) found existing.value profile)
          existing.version) = none :=
        request_eq_none.mpr (Or.inr (hstale.update_eq_none _))
      obtain ⟨object, hobject, _⟩ := hstale
      simp only [collectStep, hupdate]
      exact .removeFilter hobject
  | removeFilter hobject => exact .stopTrace hobject
  | stopTrace hobject => exact .markNotRecording hobject
  | markNotRecording hobject => exact .untrack hobject
  | untrack hobject => exact .failedPatch Finmap.notMem_erase_self hobject
  | @failedPatch object huntracked hobject =>
      have hpatch := request_eq_some.mpr ⟨hsucceed.failedPatch,
        VersionedStore.patch_of_get (ApplicationProfile.mark failedLabel) hobject⟩
      obtain ⟨version, hget⟩ :=
        world.profiles.write_get (object.value.mark failedLabel) hobject
      simp only [collectStep, hpatch]
      refine .returned ⟨huntracked, _, hget, ?_⟩
      simp [ApplicationProfile.mark, Labels.get, Finmap.lookup_insert]
  | returned hgivenUp => exact .returned hgivenUp

/-- What the other pass still does after its write does not matter to a rejected one. -/
theorem Rejected.of_written {otherState : PassState} (hwritten : Written otherState)
    (hrejected : pass.Rejected config world state) :
    pass.Rejected config (collectStep config other.id answers world otherState).2 state := by
  have hworld : (collectStep config other.id answers world otherState).2 = world ∨
      (collectStep config other.id answers world otherState).2 =
        world.startContainerTimer other.id := by
    cases otherState with
    | restartTimer exit => exact Or.inr rfl
    | returned exit => exact Or.inl rfl
    | _ => exact hwritten.elim
  rcases hworld with heq | heq <;> rw [heq]
  · exact hrejected
  · cases hrejected with
    | update hstale => exact .update hstale
    | removeFilter hobject => exact .removeFilter hobject
    | stopTrace hobject => exact .stopTrace hobject
    | markNotRecording hobject => exact .markNotRecording hobject
    | untrack hobject => exact .untrack hobject
    | failedPatch huntracked hobject => exact .failedPatch huntracked hobject
    | returned hgivenUp => exact .returned hgivenUp

/-! ## One step of either pass -/

/-- A write is the last thing a pass does to the profile. -/
theorem PassWrite.written {profiles next : ProfileStore}
    (hwrite : PassWrite config pass profiles state next)
    (hchanged : (collectStep config pass.id answers world state).2.profiles ≠ world.profiles) :
    Written (collectStep config pass.id answers world state).1 := by
  cases hwrite with
  | create =>
      simp only [collectStep]
      split <;> trivial
  | mark =>
      simp only [collectStep]
      split <;> trivial
  | update =>
      simp only [collectStep] at hchanged ⊢
      split
      · trivial
      next hupdate =>
        rw [hupdate] at hchanged
        exact absurd rfl hchanged

theorem Progress.mono {after : World} (hprogress : pass.Progress config world state)
    (htracked : pass.id ∈ world.containers → pass.id ∈ after.containers)
    (hextends : ∀ object, world.profiles.get (pass.id.profileKey config) = some object →
      ∃ extended, after.profiles.get (pass.id.profileKey config) = some extended ∧
        object.value.Extends extended.value) :
    pass.Progress config after state := by
  have hkept : pass.Kept config world → pass.Kept config after := by
    rintro ⟨hmem, entry, hentry, hholds⟩
    obtain ⟨object, hobject, hcontainer⟩ := Option.bind_eq_some_iff.mp hentry
    obtain ⟨extended, hextended, hvalue⟩ := hextends object hobject
    obtain ⟨entry', hentry', hextension⟩ := hvalue pass.id.container entry hcontainer
    refine ⟨htracked hmem, entry', ?_, hholds.of_extends hextension⟩
    exact Option.bind_eq_some_iff.mpr ⟨extended, hextended, hentry'⟩
  cases hprogress with
  | load hmem => exact .load (htracked hmem)
  | get hbuilt hmem => exact .get hbuilt (htracked hmem)
  | create hbuilt hmem => exact .create hbuilt (htracked hmem)
  | update hbuilt hmem => exact .update hbuilt (htracked hmem)
  | restartTimer hexit => exact .restartTimer (hexit.imp_right (And.imp_right hkept))
  | removeFilter => exact .removeFilter
  | stopTrace => exact .stopTrace
  | markNotRecording => exact .markNotRecording
  | untrack => exact .untrack
  | failedPatch => exact .failedPatch
  | returned hexit => exact .returned (hexit.imp_right (Or.imp_right (And.imp_right hkept)))

/-- A step of the other pass leaves this one where it is. -/
theorem Progress.other_step {otherState : PassState} (hpod : SamePod pass other)
    (hprogress : pass.Progress config world state)
    (hother : other.Progress config world otherState)
    (hfaithful : ∀ copy, otherState.copy = some copy →
      world.profiles.Faithful (other.id.profileKey config) copy) :
    pass.Progress config (collectStep config other.id answers world otherState).2 state := by
  refine hprogress.mono ?_ ?_
  · intro htracked
    rcases (collectStep_tracks config other.id answers world otherState).1 with
      heq | ⟨_, heq⟩ <;> rw [heq]
    · exact htracked
    · exact Finmap.mem_erase.mpr ⟨hpod.distinct, htracked⟩
  · intro object hobject
    rw [← hpod.profileKey] at hobject ⊢
    rcases collectStep_write hother hfaithful with heq | hwrite
    · rw [heq]
      exact ⟨object, hobject, ApplicationProfile.Extends.refl object.value⟩
    · exact hwrite.extends hobject

end Collecting

end Kapprofiler.Collector
