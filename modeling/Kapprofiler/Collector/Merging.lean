import Kapprofiler.Collector.Batching

/-! # What merging keeps

Merging a container profile into a stored application profile only extends the
lists of execs, syscalls and connections that are there. What a batch amounts to
is therefore kept by every later merge, of the same container or of another one.
-/

namespace Kapprofiler.Collector

open Tracing Foundation

variable {config : CollectorManagerConfig} {mounts : List String}

/-- The lists of the second profile continue those of the first. -/
structure ContainerProfile.Extends (first second : ContainerProfile) : Prop where
  execs : first.execs <+: second.execs
  sysCalls : first.sysCalls <+: second.sysCalls
  outgoing : first.networkActivity.outgoing <+: second.networkActivity.outgoing
  incoming : first.networkActivity.incoming <+: second.networkActivity.incoming

/-- Every entry of the first profile is extended in the second. -/
def ApplicationProfile.Extends (first second : ApplicationProfile) : Prop :=
  ∀ container entry, containerEntry container first = some entry →
    ∃ extended, containerEntry container second = some extended ∧ entry.Extends extended

/-- The profile has the execs and the syscalls of the batch, and its connections
unless the list of their direction is full. -/
structure Holds (batch : TotalEvents) (profile : ContainerProfile) : Prop where
  execs : batch.execEvents.map ExecCalls.ofEvent ⊆ profile.execs
  sysCalls : batch.syscallEvents ⊆ profile.sysCalls
  outgoing : ∀ call ∈ connections "OUTGOING" batch.networkEvents,
    call ∈ profile.networkActivity.outgoing ∨
      maxNetworkEvents ≤ profile.networkActivity.outgoing.length
  incoming : ∀ call ∈ connections "HOST" batch.networkEvents,
    call ∈ profile.networkActivity.incoming ∨
      maxNetworkEvents ≤ profile.networkActivity.incoming.length

instance (batch : TotalEvents) : DecidablePred (Holds batch) := fun profile =>
  decidable_of_iff
    (batch.execEvents.map ExecCalls.ofEvent ⊆ profile.execs ∧
      batch.syscallEvents ⊆ profile.sysCalls ∧
      (∀ call ∈ connections "OUTGOING" batch.networkEvents,
        call ∈ profile.networkActivity.outgoing ∨
          maxNetworkEvents ≤ profile.networkActivity.outgoing.length) ∧
      ∀ call ∈ connections "HOST" batch.networkEvents,
        call ∈ profile.networkActivity.incoming ∨
          maxNetworkEvents ≤ profile.networkActivity.incoming.length)
    ⟨fun ⟨hexecs, hsysCalls, houtgoing, hincoming⟩ =>
        ⟨hexecs, hsysCalls, houtgoing, hincoming⟩,
      fun hholds => ⟨hholds.execs, hholds.sysCalls, hholds.outgoing, hholds.incoming⟩⟩

/-! ## Container profiles -/

theorem ContainerProfile.Extends.refl (profile : ContainerProfile) : profile.Extends profile where
  execs := List.prefix_refl _
  sysCalls := List.prefix_refl _
  outgoing := List.prefix_refl _
  incoming := List.prefix_refl _

theorem extends_mergeContainerProfile (existing new : ContainerProfile) :
    existing.Extends (mergeContainerProfile config mounts existing new) where
  execs := List.prefix_append _ _
  sysCalls := List.prefix_append _ _
  outgoing := prefix_foldl_appendWhen _ _
  incoming := prefix_foldl_appendWhen _ _

theorem Holds.of_extends {batch : TotalEvents} {first second : ContainerProfile}
    (hholds : Holds batch first) (hextends : first.Extends second) : Holds batch second where
  execs := List.Subset.trans hholds.execs hextends.execs.subset
  sysCalls := List.Subset.trans hholds.sysCalls hextends.sysCalls.subset
  outgoing call hcall := (hholds.outgoing call hcall).imp (fun h => hextends.outgoing.subset h)
    (fun h => h.trans hextends.outgoing.length_le)
  incoming call hcall := (hholds.incoming call hcall).imp (fun h => hextends.incoming.subset h)
    (fun h => h.trans hextends.incoming.length_le)

/-- A pass builds the lists of its own profile without a limit. -/
theorem holds_buildContainerProfile (container : String) (batch : TotalEvents) :
    Holds batch (buildContainerProfile config mounts container batch) where
  execs _ hexec := mem_foldl_addExec.mpr hexec
  sysCalls := List.Subset.refl _
  outgoing _ hcall := Or.inl (mem_foldl_addConnection.mpr hcall)
  incoming _ hcall := Or.inl (mem_foldl_addConnection.mpr hcall)

/-- A connection is merged unless the list is full. -/
theorem mem_mergeConnections_or_full {existing new : List NetworkCalls} {call : NetworkCalls}
    (hcall : call ∈ new) : call ∈ mergeConnections existing new ∨
      maxNetworkEvents ≤ (mergeConnections existing new).length := by
  refine (foldl_appendWhen_accounts (fun calls (call : NetworkCalls) =>
    call ∈ calls ∨ maxNetworkEvents ≤ calls.length) ?_ ?_ ?_).2 call hcall
  · intro kept entry item haccounts
    rcases haccounts with hmem | hfull
    · exact Or.inl (List.mem_append_left _ hmem)
    · rw [List.length_append]
      exact Or.inr (hfull.trans (Nat.le_add_right _ _))
  · exact fun _ _ => Or.inl (List.mem_append_right _ List.mem_cons_self)
  · intro kept item hrejects
    rw [Bool.and_eq_false_iff, Bool.not_eq_false'] at hrejects
    rcases hrejects with hlength | hexists
    · exact Or.inr (Nat.le_of_not_lt (of_decide_eq_false hlength))
    · exact Or.inl (networkEventExists_toEvent.mp hexists)

/-- Merging the profile of a batch makes room for it, up to the limit. -/
theorem holds_mergeContainerProfile {container : String} {batch : TotalEvents}
    (existing : ContainerProfile) (builtMounts : List String) :
    Holds batch (mergeContainerProfile config mounts existing
      (buildContainerProfile config builtMounts container batch)) where
  execs exec hexec := mem_mergedExecs.mpr (Or.inr (mem_foldl_addExec.mpr hexec))
  sysCalls syscall hsyscall := by
    by_cases hknown : syscall ∈ existing.sysCalls
    · exact List.mem_append_left _ hknown
    · exact List.mem_append_right _
        (List.mem_filter.mpr ⟨hsyscall, by simpa using hknown⟩)
  outgoing _ hcall := mem_mergeConnections_or_full (mem_foldl_addConnection.mpr hcall)
  incoming _ hcall := mem_mergeConnections_or_full (mem_foldl_addConnection.mpr hcall)

/-! ## Application profiles -/

theorem ApplicationProfile.Extends.refl (profile : ApplicationProfile) :
    profile.Extends profile :=
  fun _ entry hentry => ⟨entry, hentry, ContainerProfile.Extends.refl entry⟩

/-- The entries of other containers are not touched. -/
theorem containerEntry_mergedProfile_of_ne {container : String} {state : ContainerState}
    {existing : ApplicationProfile} {new : ContainerProfile} (hne : container ≠ new.name) :
    containerEntry container (mergedProfile config mounts state existing new) =
      containerEntry container existing := by
  simp only [containerEntry, mergedProfile_containers]
  induction existing.spec.containers with
  | nil => simp [mergeContainers, hne.symm]
  | cons first rest ih =>
      by_cases hname : first.name = new.name
      · simp [mergeContainers, hname, hne.symm, mergeContainerProfile]
      · simp only [mergeContainers, hname, if_false, List.find?_cons]
        rw [ih]

theorem extends_mergedProfile (state : ContainerState) (existing : ApplicationProfile)
    (new : ContainerProfile) :
    existing.Extends (mergedProfile config mounts state existing new) := by
  intro container entry hentry
  by_cases hname : container = new.name
  · subst hname
    refine ⟨_, containerEntry_mergedProfile mounts state existing new, ?_⟩
    rw [hentry]
    exact extends_mergeContainerProfile entry new
  · refine ⟨entry, ?_, ContainerProfile.Extends.refl entry⟩
    rw [containerEntry_mergedProfile_of_ne hname, hentry]

/-- The merged profile has what the merged batch amounts to. -/
theorem holds_mergedProfile (state : ContainerState) (existing : ApplicationProfile)
    (container : String) (batch : TotalEvents) (builtMounts : List String) :
    ∃ entry, containerEntry container (mergedProfile config mounts state existing
        (buildContainerProfile config builtMounts container batch)) = some entry ∧
      Holds batch entry := by
  refine ⟨_, containerEntry_mergedProfile mounts state existing
    (buildContainerProfile config builtMounts container batch), ?_⟩
  split
  · exact holds_buildContainerProfile container batch
  next stored _ => exact holds_mergeContainerProfile stored builtMounts

end Kapprofiler.Collector
