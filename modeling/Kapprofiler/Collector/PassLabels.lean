import Kapprofiler.Collector.Pass

/-! # The labels of an updated profile

A pass writes back the labels it read, except that a pass of a container seen
from its start clears the partial mark. It clears it by replacing the whole
label map, so every other label goes with it.
-/

namespace Kapprofiler.Collector

open Foundation

variable {config : CollectorManagerConfig} {id : ContainerId} {answers : Answers}

/-- The labels other than the partial mark are the same. -/
def KeepsOtherLabels (before after : Labels) : Prop :=
  ∀ label ≠ partialLabel, after.lookup label = before.lookup label

theorem clearPartial_of_kept {state : ContainerState} {existing : ApplicationProfile}
    (hkept : state.attached = true ∨ existing.labels.get partialLabel ≠ "true") :
    clearPartial state existing = existing := by
  apply if_neg
  rintro ⟨hattached, hmarked⟩
  rcases hkept with hkept | hkept
  · exact hattached hkept
  · exact hkept hmarked

theorem clearPartial_labels {state : ContainerState} {existing : ApplicationProfile}
    (hattached : state.attached = false) (hmarked : existing.labels.get partialLabel = "true") :
    (clearPartial state existing).labels = (∅ : Labels).insert partialLabel "false" := by
  have hcleared : ¬ state.attached ∧ existing.labels.get partialLabel = "true" := by
    simp [hattached, hmarked]
  unfold clearPartial
  rw [if_pos hcleared]

/-- Clearing the partial mark keeps the other labels only if there are none. -/
theorem clearPartial_keeps_iff {state : ContainerState} {existing : ApplicationProfile} :
    KeepsOtherLabels existing.labels (clearPartial state existing).labels ↔
      state.attached = true ∨ existing.labels.get partialLabel ≠ "true" ∨
        ∀ label ∈ existing.labels, label = partialLabel := by
  by_cases hkept : state.attached = true ∨ existing.labels.get partialLabel ≠ "true"
  · rw [clearPartial_of_kept hkept]
    refine iff_of_true (fun _ _ => rfl) ?_
    exact hkept.imp_right Or.inl
  · -- The new map has the partial mark alone.
    obtain ⟨hattached, hmarked⟩ := not_or.mp hkept
    have hlabels := clearPartial_labels (Bool.eq_false_iff.mpr hattached) (not_not.mp hmarked)
    have hothers : KeepsOtherLabels existing.labels (clearPartial state existing).labels ↔
        ∀ label ∈ existing.labels, label = partialLabel := by
      rw [hlabels]
      constructor
      · intro hkeeps label hlabel
        by_contra hne
        have hlookup := hkeeps label hne
        rw [Finmap.lookup_insert_of_ne _ hne, Finmap.lookup_empty] at hlookup
        exact Finmap.lookup_eq_none.mp hlookup.symm hlabel
      · intro honly label hne
        rw [Finmap.lookup_insert_of_ne _ hne, Finmap.lookup_empty]
        exact (Finmap.lookup_eq_none.mpr fun hlabel => hne (honly label hlabel)).symm
    rw [hothers]
    constructor
    · exact fun h => Or.inr (Or.inr h)
    · rintro (h | h | h)
      · exact absurd h hattached
      · exact absurd h hmarked
      · exact h

/-- A pass whose update succeeds keeps the other labels of the profile unless it
clears the partial mark of a profile that has other labels. -/
theorem updated_keeps_labels_iff {world next : World}
    (hpass : collectContainerEvents config id answers world = (.returned .updated, next)) :
    ∃ state before after, world.containers.lookup id = some state ∧
      world.profiles.get (id.profileKey config) = some before ∧
      next.profiles.get (id.profileKey config) = some after ∧
      (KeepsOtherLabels before.value.labels after.value.labels ↔
        state.attached = true ∨ before.value.labels.get partialLabel ≠ "true" ∨
          ∀ label ∈ before.value.labels, label = partialLabel) := by
  obtain ⟨state, before, version, hlookup, hbefore, _, hafter⟩ := updated_profile hpass
  exact ⟨state, before, _, hlookup, hbefore, hafter, clearPartial_keeps_iff⟩

/-- Profiles of all namespaces are stored in one. -/
def storeConfig : CollectorManagerConfig :=
  { mainConfig with storeNamespace := "kapprofiler" }

/-- A container that was already running has its profile created. -/
def partialRun : List Label :=
  .containerStarted nginx true :: List.replicate 6 (.advance 0 {}) ++
    .timerExpired nginx :: List.replicate 11 (.advance 1 { peek := .ok ["read"] })

/-- A second pass of that container keeps the namespace of its profile. -/
theorem nginx_keeps_labels : ∃ system next before after,
    (machine storeConfig).run freshSystem partialRun = some system ∧
    collectContainerEvents storeConfig nginx { peek := .ok ["write"] } system.world =
      (.returned .updated, next) ∧
    system.world.profiles.get (nginx.profileKey storeConfig) = some before ∧
    next.profiles.get (nginx.profileKey storeConfig) = some after ∧
    KeepsOtherLabels before.value.labels after.value.labels := by
  obtain ⟨system, next, hrun, hpass, hattached⟩ : ∃ system next,
      (machine storeConfig).run freshSystem partialRun = some system ∧
        collectContainerEvents storeConfig nginx { peek := .ok ["write"] } system.world =
          (.returned .updated, next) ∧
        ∀ state ∈ system.world.containers.lookup nginx, state.attached = true :=
    ⟨_, _, rfl, rfl, by decide⟩
  obtain ⟨state, before, after, hlookup, hbefore, hafter, hkeeps⟩ :=
    updated_keeps_labels_iff hpass
  exact ⟨system, next, before, after, hrun, hpass, hbefore, hafter,
    hkeeps.mpr (Or.inl (hattached state hlookup))⟩

/-- The same container after a restart, seen from its start. -/
def restartedNginx : ContainerId :=
  { nginx with containerID := "0987654321", nsMntId := 2, pid := 2 }

/-- A pass of the restarted container drops the namespace of the profile. -/
theorem nginx_restart_drops_namespace : ∃ system next before after,
    (machine storeConfig).Reachable system ∧
    collectContainerEvents storeConfig restartedNginx { peek := .ok ["write"] } system.world =
      (.returned .updated, next) ∧
    system.world.profiles.get (restartedNginx.profileKey storeConfig) = some before ∧
    next.profiles.get (restartedNginx.profileKey storeConfig) = some after ∧
    ¬ KeepsOtherLabels before.value.labels after.value.labels := by
  refine ⟨_, _, _, _, ⟨freshSystem, partialRun ++ .containerStarted restartedNginx false ::
    List.replicate 7 (.advance 2 {}), initial_freshSystem, rfl⟩, rfl, rfl, rfl, ?_⟩
  intro hkeeps
  have hnamespace := hkeeps namespaceLabel (by decide)
  revert hnamespace
  decide

end Kapprofiler.Collector
