import Kapprofiler.Collector.OpenCoverage

/-! # Opens below mounts

`ContainerStarted` caches the mount paths of all containers of a pod under the pod's
name, and with `IgnoreMounts` on the opens of each of these containers are left out if
their path starts with one of the strings.
-/

namespace Kapprofiler.Collector

open Tracing Foundation

variable {config : CollectorManagerConfig} {id : ContainerId}

/-- The path is that of the mount, or it goes on from there after a separator. -/
def liesBelow (mount path : String) : Bool :=
  path = mount || hasPrefix path (mount ++ "/") ||
    (hasPrefix path mount && mount.toList.getLast? = some '/')

/-- The mount paths of all containers of the pod. -/
def mountPaths (pod : Pod) : List String := pod.containers.flatMap (·.volumeMounts)

/-- The passes filter with what `ContainerStarted` fetched for the pod, which was not
cached before, from its spec. -/
def MountsFetched (config : CollectorManagerConfig) (id : ContainerId) (pod : Pod)
    (passes : List Collection) : Prop :=
  ∃ attach answers before started, mountKey id ∉ before.podMountCache ∧
    answers.cluster.pods id.nameSpace id.podName = some pod ∧
    startStep config id attach answers before .fetchMounts = some (.startTrace, started) ∧
    ∀ pass ∈ passes, pass.batch.mounts = started.mounts id

theorem hasPrefix_of_liesBelow {mount path : String} (hbelow : liesBelow mount path = true) :
    hasPrefix path mount = true := by
  unfold liesBelow at hbelow
  simp only [Bool.or_eq_true, Bool.and_eq_true, decide_eq_true_eq] at hbelow
  rcases hbelow with (rfl | hseparated) | ⟨hbegins, _⟩
  · exact List.isPrefixOf_iff_prefix.mpr (List.prefix_refl _)
  · have hlonger := List.isPrefixOf_iff_prefix.mp hseparated
    rw [String.toList_append] at hlonger
    exact List.isPrefixOf_iff_prefix.mpr ((List.prefix_append _ _).trans hlonger)
  · exact hbegins

/-- A pod that was not cached gets its own mounts. -/
theorem mounts_of_fetchMounts {attach : Bool} {answers : Answers} {before started : World}
    {pod : Pod} (hmissing : mountKey id ∉ before.podMountCache)
    (hpod : answers.cluster.pods id.nameSpace id.podName = some pod)
    (hfetch : startStep config id attach answers before .fetchMounts =
      some (.startTrace, started)) : started.mounts id = mountPaths pod := by
  rw [startStep, if_neg hmissing] at hfetch
  obtain ⟨_, rfl⟩ := Prod.mk.inj (Option.some.inj hfetch)
  rw [World.mounts, Finmap.lookup_insert, getPodMounts, hpod]
  rfl

theorem Batch.ignores_of_mountsIgnored (hignore : config.ignoreMounts = true)
    (hprefixes : config.ignorePrefixes = []) (batch : Batch) :
    batch.Ignores config fun path => batch.mounts.any (hasPrefix path) := by
  intro event
  unfold ignoresOpen
  rw [hignore, hprefixes, Bool.true_and, List.any_nil, Bool.false_or]

/-- The events are filtered by the mounts: nothing is stored for a path at or below one of
them, and whatever starts with none of them is stored. -/
structure FilteredBy (mounts : List String) (opens : List OpenCalls)
    (events : List OpenEvent) : Prop where
  hidden : ∀ event ∈ events, (∃ mount ∈ mounts, liesBelow mount event.pathName = true) →
    ∀ entry ∈ opens, entry.path ≠ event.pathName
  kept : ∀ event ∈ events, (∀ mount ∈ mounts, hasPrefix event.pathName mount = false) →
    ∃ entry ∈ opens, entry.Covers event

/-- In every session within the limits whose passes filter with the mounts that were
fetched for the pod, the opens of a container are filtered by the mounts of all containers
of the pod. -/
theorem opens_filteredBy_podMounts (hignore : config.ignoreMounts = true)
    (hprefixes : config.ignorePrefixes = []) {pod : Pod} {world : World}
    {passes : List Collection} (hsession : Session config id world passes)
    (hfetched : MountsFetched config id pod passes)
    (hdrained : ∀ pass ∈ passes, pass.batch.totalEvents.openEvents.length ≤ maxOpenEvents)
    (hstored : ∀ pass ∈ passes, pass.stored.opens.length ≤ maxOpenEvents) :
    FilteredBy (mountPaths pod) (world.stored config id).opens (collected passes).openEvents := by
  obtain ⟨attach, answers, before, started, hmissing, hpod, hfetch, hcached⟩ := hfetched
  rw [mounts_of_fetchMounts hmissing hpod hfetch] at hcached
  have hignores : ∀ pass ∈ passes,
      pass.batch.Ignores config fun path => (mountPaths pod).any (hasPrefix path) := by
    intro pass hpass
    rw [← hcached pass hpass]
    exact pass.batch.ignores_of_mountsIgnored hignore hprefixes
  have hstand := hsession.standFor hignores hdrained hstored
  constructor
  · rintro event _ ⟨mount, hmount, hbelow⟩ entry hentry hpath
    have hincluded := hstand.included entry hentry
    rw [List.any_eq_false] at hincluded
    exact hincluded mount hmount (hpath ▸ hasPrefix_of_liesBelow hbelow)
  · intro event hevent hnone
    apply hstand.covered event hevent
    rw [List.any_eq_false]
    intro mount hmount
    rw [hnone mount hmount]
    exact Bool.false_ne_true

/-! ## A pod of two containers -/

/-- The container `app` mounts `/data`, and its sidecar `/cache`. -/
def twoMountsPod : Pod where
  name := "nginx"
  nameSpace := "default"
  containers := [⟨"app", ["/data"]⟩, ⟨"sidecar", ["/cache"]⟩]

def twoMountsAnswers : Answers :=
  { cluster := { Cluster.unreachable with pods := fun _ _ => some twoMountsPod } }

def mountsIgnored : CollectorManagerConfig := { mainConfig with ignoreMounts := true }

/-- Opens of `app`: in its own mount, in that of the sidecar, and in none. -/
def mountOpens : List OpenEvent :=
  [opened "/data/users" [], opened "/cache/index" [], opened "/etc/hosts" []]

/-- What the fetch leaves behind. -/
def mountedWorld : World :=
  { trackedWorld with podMountCache := (∅ : Finmap _).insert "nginx-default" ["/data", "/cache"] }

/-- Opens that come later: one in a mount, one again, and one new. -/
def laterOpens : List OpenEvent :=
  [opened "/data/groups" [], opened "/etc/hosts" [], opened "/etc/passwd" []]

/-- The mounts are fetched, and two passes collect the opens. -/
theorem exists_mounts_session : ∃ world passes, Session mountsIgnored nginx world passes ∧
    MountsFetched mountsIgnored nginx twoMountsPod passes ∧
    (∀ pass ∈ passes, pass.batch.totalEvents.openEvents.length ≤ maxOpenEvents) ∧
    (∀ pass ∈ passes, pass.stored.opens.length ≤ maxOpenEvents) ∧
    (collected passes).openEvents = mountOpens ++ laterOpens ∧
    (world.stored mountsIgnored nginx).opens = [⟨"/etc/hosts", []⟩, ⟨"/etc/passwd", []⟩] := by
  have hfirst := (session_trackedWorld mountsIgnored).afterPass (mountedWorld.withOpened mountOpens)
    {} rfl (Or.inl (by decide))
  generalize hworld : World.afterPass mountsIgnored {} (mountedWorld.withOpened mountOpens) = world
    at hfirst
  have hsecond := hfirst.afterPass (world.withOpened laterOpens) {} rfl
    (Or.inr (by rw [← hworld]; decide))
  refine ⟨_, _, hsecond, ?_, ?_, ?_, rfl, by rw [← hworld]; decide⟩
  · refine ⟨false, twoMountsAnswers, trackedWorld, mountedWorld, by decide, rfl, rfl, ?_⟩
    rw [List.nil_append, List.forall_mem_append, List.forall_mem_singleton,
      List.forall_mem_singleton, ← hworld]
    decide
  · rw [List.nil_append, List.forall_mem_append, List.forall_mem_singleton,
      List.forall_mem_singleton, ← hworld]
    decide
  · rw [List.nil_append, List.forall_mem_append, List.forall_mem_singleton,
      List.forall_mem_singleton, ← hworld]
    decide

/-- An open of `app` in the mount of the sidecar is left out. -/
theorem sibling_mount_hides :
    ¬ ∀ (config : CollectorManagerConfig) (id : ContainerId) (pod : Pod)
      (container : PodContainer) (world : World) (passes : List Collection),
      config.ignoreMounts = true → config.ignorePrefixes = [] →
      container ∈ pod.containers → container.name = id.container →
      Session config id world passes → MountsFetched config id pod passes →
      (∀ pass ∈ passes, pass.batch.totalEvents.openEvents.length ≤ maxOpenEvents) →
      (∀ pass ∈ passes, pass.stored.opens.length ≤ maxOpenEvents) →
      ∀ event ∈ (collected passes).openEvents,
        (∀ entry ∈ (world.stored config id).opens, ¬ entry.Covers event) ↔
          ∃ mount ∈ container.volumeMounts, liesBelow mount event.pathName = true := by
  intro hclaim
  obtain ⟨world, passes, hsession, hfetched, hdrained, hlimit, hevents, hopens⟩ :=
    exists_mounts_session
  have hindex := hclaim mountsIgnored nginx twoMountsPod ⟨"app", ["/data"]⟩ world passes rfl rfl
    List.mem_cons_self rfl hsession hfetched hdrained hlimit (opened "/cache/index" [])
    (by rw [hevents]; decide)
  rw [hopens] at hindex
  have hhidden : ∀ entry ∈ [(⟨"/etc/hosts", []⟩ : OpenCalls), ⟨"/etc/passwd", []⟩],
      ¬ entry.Covers (opened "/cache/index" []) := by
    rw [List.forall_mem_cons, List.forall_mem_singleton]
    exact ⟨fun hcovers => absurd hcovers.1 (by decide), fun hcovers => absurd hcovers.1 (by decide)⟩
  obtain ⟨mount, hmount, hbelow⟩ := hindex.mp hhidden
  rw [List.mem_singleton.mp hmount] at hbelow
  exact absurd hbelow (by decide)

/-- Of all opens those below no mount are stored. -/
theorem nginx_opens_filtered : ∃ world passes, Session mountsIgnored nginx world passes ∧
    (collected passes).openEvents = mountOpens ++ laterOpens ∧
    (world.stored mountsIgnored nginx).opens = [⟨"/etc/hosts", []⟩, ⟨"/etc/passwd", []⟩] ∧
    FilteredBy (mountPaths twoMountsPod) (world.stored mountsIgnored nginx).opens
      (collected passes).openEvents := by
  obtain ⟨world, passes, hsession, hfetched, hdrained, hlimit, hevents, hopens⟩ :=
    exists_mounts_session
  exact ⟨world, passes, hsession, hevents, hopens,
    opens_filteredBy_podMounts rfl rfl hsession hfetched hdrained hlimit⟩

end Kapprofiler.Collector
