import Kapprofiler.Collector.Capabilities
import Kapprofiler.Collector.Merging
import Kapprofiler.Foundation.Continuation

/-! # What merges leave in place

A merge replaces the container of its name and leaves the others where they are; a new
container comes last. Nothing that is in a list is taken out or moved, however many
container profiles are merged one after the other.
-/

namespace Kapprofiler.Collector

open Foundation

variable {config : CollectorManagerConfig} {mounts : List String}

/-- The entry has the same syscall and at least the same capabilities. -/
structure CapabilitiesCalls.Grows (existing grown : CapabilitiesCalls) : Prop where
  syscall : grown.syscall = existing.syscall
  capabilities : existing.capabilities <+: grown.capabilities

/-- Every list of the profile is continued; the entries of the capabilities may grow. -/
structure ContainerProfile.Grows (existing grown : ContainerProfile) : Prop extends
    existing.Extends grown where
  name : grown.name = existing.name
  dns : existing.dns <+: grown.dns
  opens : existing.opens <+: grown.opens
  capabilities : Continues CapabilitiesCalls.Grows existing.capabilities grown.capabilities

/-- What merging profiles with the given names does to the containers: those of other names
stay, what is there grows, and the names that are new come last, each of them once. -/
structure MergeFrame (names : List String) (before after : List ContainerProfile) : Prop where
  others : Continues (fun container later => container.name ∉ names → later = container)
    before after
  grown : Continues ContainerProfile.Grows before after
  added : ∃ new, after.map (·.name) = before.map (·.name) ++ new ∧ new.Nodup ∧
    ∀ name ∈ new, name ∈ names ∧ name ∉ before.map (·.name)
  distinct : (before.map (·.name)).Nodup → (after.map (·.name)).Nodup

/-! ## One container -/

theorem CapabilitiesCalls.Grows.refl (calls : CapabilitiesCalls) : calls.Grows calls :=
  ⟨rfl, List.prefix_refl _⟩

theorem CapabilitiesCalls.Grows.trans {first second third : CapabilitiesCalls}
    (hfirst : first.Grows second) (hsecond : second.Grows third) : first.Grows third :=
  ⟨hsecond.syscall.trans hfirst.syscall, hfirst.capabilities.trans hsecond.capabilities⟩

theorem prefix_mergeCapabilityNames (existing new : List String) :
    existing <+: mergeCapabilityNames existing new := by
  rcases mergeCapabilityNames_cases existing new with hsame | ⟨last, _, hadded⟩
  · rw [hsame]
  · rw [hadded]
    exact List.prefix_append _ _

theorem continues_mergeCapability (capability : CapabilitiesCalls)
    (calls : List CapabilitiesCalls) :
    Continues CapabilitiesCalls.Grows calls (mergeCapability capability calls) := by
  induction calls with
  | nil => exact continues_nil _
  | cons call rest ih =>
      unfold mergeCapability
      split
      · apply Continues.cons
        · exact ⟨rfl, prefix_mergeCapabilityNames _ _⟩
        · exact continues_refl CapabilitiesCalls.Grows.refl rest
      · exact ih.cons (CapabilitiesCalls.Grows.refl call)

theorem continues_placeCapability (new : List CapabilitiesCalls) :
    ∀ merged : List CapabilitiesCalls × List CapabilitiesCalls,
      Continues CapabilitiesCalls.Grows merged.1 (new.foldl placeCapability merged).1 := by
  induction new with
  | nil => exact fun merged => continues_refl CapabilitiesCalls.Grows.refl merged.1
  | cons call rest ih =>
      intro merged
      have hplaced : Continues CapabilitiesCalls.Grows merged.1
          (placeCapability merged call).1 := by
        unfold placeCapability
        split
        · exact continues_mergeCapability call merged.1
        · exact continues_refl CapabilitiesCalls.Grows.refl merged.1
      exact hplaced.trans (fun _ _ _ hfirst hsecond => hfirst.trans hsecond) (ih _)

theorem ContainerProfile.Grows.refl (profile : ContainerProfile) : profile.Grows profile where
  toExtends := ContainerProfile.Extends.refl profile
  name := rfl
  dns := List.prefix_refl _
  opens := List.prefix_refl _
  capabilities := continues_refl CapabilitiesCalls.Grows.refl _

theorem ContainerProfile.Grows.trans {first second third : ContainerProfile}
    (hfirst : first.Grows second) (hsecond : second.Grows third) : first.Grows third where
  execs := hfirst.execs.trans hsecond.execs
  sysCalls := hfirst.sysCalls.trans hsecond.sysCalls
  outgoing := hfirst.outgoing.trans hsecond.outgoing
  incoming := hfirst.incoming.trans hsecond.incoming
  name := hsecond.name.trans hfirst.name
  dns := hfirst.dns.trans hsecond.dns
  opens := hfirst.opens.trans hsecond.opens
  capabilities := hfirst.capabilities.trans
    (fun _ _ _ hgrown hlater => hgrown.trans hlater) hsecond.capabilities

theorem grows_mergeContainerProfile (existing new : ContainerProfile) :
    existing.Grows (mergeContainerProfile config mounts existing new) where
  toExtends := extends_mergeContainerProfile existing new
  name := rfl
  dns := List.prefix_append _ _
  opens := List.prefix_append _ _
  capabilities :=
    (continues_placeCapability new.capabilities (existing.capabilities, [])).append _

/-! ## One merge -/

theorem mergeContainers_names (new : ContainerProfile) (containers : List ContainerProfile) :
    (mergeContainers config mounts new containers).map (·.name) =
      if new.name ∈ containers.map (·.name) then containers.map (·.name)
      else containers.map (·.name) ++ [new.name] := by
  induction containers with
  | nil => simp [mergeContainers]
  | cons existing rest ih =>
      by_cases hname : existing.name = new.name
      · simp [mergeContainers, hname, mergeContainerProfile]
      · simp only [mergeContainers, hname, if_false, List.map_cons, ih, List.mem_cons,
          Ne.symm hname, false_or]
        split <;> rfl

theorem mergeFrame_mergeContainers (new : ContainerProfile)
    (containers : List ContainerProfile) :
    MergeFrame [new.name] containers (mergeContainers config mounts new containers) where
  others := by
    induction containers with
    | nil => exact continues_nil _
    | cons existing rest ih =>
        unfold mergeContainers
        split
        next hname =>
          apply Continues.cons
          -- The container of this name is the one that may change.
          · exact fun hother => absurd (List.mem_singleton.mpr hname) hother
          · exact continues_refl (fun _ _ => rfl) rest
        next => exact ih.cons fun _ => rfl
  grown := by
    induction containers with
    | nil => exact continues_nil _
    | cons existing rest ih =>
        unfold mergeContainers
        split
        · apply Continues.cons
          · exact grows_mergeContainerProfile existing new
          · exact continues_refl ContainerProfile.Grows.refl rest
        · exact ih.cons (ContainerProfile.Grows.refl existing)
  added := by
    rw [mergeContainers_names]
    split
    next =>
      refine ⟨[], (List.append_nil _).symm, List.nodup_nil, ?_⟩
      intro name hname
      cases hname
    next hnew =>
      refine ⟨[new.name], rfl, List.nodup_singleton _, ?_⟩
      exact List.forall_mem_singleton.mpr ⟨List.mem_singleton_self _, hnew⟩
  distinct := by
    intro hnodup
    rw [mergeContainers_names]
    split
    · exact hnodup
    next hnew =>
      refine List.nodup_append.mpr ⟨hnodup, List.nodup_singleton _, ?_⟩
      rintro name hname other hother rfl
      exact hnew (List.mem_singleton.mp hother ▸ hname)

/-! ## Many merges -/

theorem MergeFrame.refl (containers : List ContainerProfile) :
    MergeFrame [] containers containers where
  others := continues_refl (fun _ _ => rfl) containers
  grown := continues_refl ContainerProfile.Grows.refl containers
  added := ⟨[], (List.append_nil _).symm, List.nodup_nil, nofun⟩
  distinct := id

theorem MergeFrame.trans {first second : List String} {before middle after : List ContainerProfile}
    (hfirst : MergeFrame first before middle) (hsecond : MergeFrame second middle after) :
    MergeFrame (first ++ second) before after where
  others := by
    refine hfirst.others.trans ?_ hsecond.others
    intro container between later hbetween hlater hother
    rw [List.mem_append, not_or] at hother
    obtain rfl := hbetween hother.1
    exact hlater hother.2
  grown := hfirst.grown.trans (fun _ _ _ hgrown hlater => hgrown.trans hlater) hsecond.grown
  added := by
    obtain ⟨firstNew, hmiddle, hfirstNodup, hfirstNew⟩ := hfirst.added
    obtain ⟨secondNew, hafter, hsecondNodup, hsecondNew⟩ := hsecond.added
    rw [hmiddle] at hsecondNew
    refine ⟨firstNew ++ secondNew, ?_, ?_, ?_⟩
    · rw [hafter, hmiddle, List.append_assoc]
    · apply List.nodup_append.mpr ⟨hfirstNodup, hsecondNodup, ?_⟩
      rintro name hname other hother rfl
      exact (hsecondNew name hother).2 (List.mem_append_right _ hname)
    · intro name hname
      rcases List.mem_append.mp hname with hname | hname
      · obtain ⟨hmerged, hmissing⟩ := hfirstNew name hname
        exact ⟨List.mem_append_left _ hmerged, hmissing⟩
      · obtain ⟨hmerged, hmissing⟩ := hsecondNew name hname
        exact ⟨List.mem_append_right _ hmerged, fun hbefore =>
          hmissing (List.mem_append_left _ hbefore)⟩
  distinct := fun hbefore => hsecond.distinct (hfirst.distinct hbefore)

/-- A container profile to be merged, with the mounts that its opens are filtered by. -/
structure MergeCall where
  mounts : List String
  containerProfile : ContainerProfile

def mergeAll (config : CollectorManagerConfig) (existing : ApplicationProfile)
    (calls : List MergeCall) : ApplicationProfile :=
  calls.foldl (fun profile call =>
    mergeApplicationProfiles config call.mounts profile call.containerProfile) existing

/-- However many container profiles are merged into an application profile: the containers
of other names stay as they are and in their places, every container that was there keeps
what it has, one container at most is added for each name, and different containers keep
different names. -/
theorem mergeFrame_mergeAll (config : CollectorManagerConfig) (existing : ApplicationProfile)
    (calls : List MergeCall) :
    MergeFrame (calls.map (·.containerProfile.name)) existing.spec.containers
      (mergeAll config existing calls).spec.containers := by
  induction calls generalizing existing with
  | nil => exact MergeFrame.refl _
  | cons call rest ih =>
      have hmerged := @mergeFrame_mergeContainers config call.mounts call.containerProfile
        existing.spec.containers
      exact hmerged.trans
        (ih (mergeApplicationProfiles config call.mounts existing call.containerProfile))

end Kapprofiler.Collector
