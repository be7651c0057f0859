import Kapprofiler.Collector.Pass

/-! # Sessions of passes

The passes of one container whose writes all succeed, one after the other.
Between two of them anything may happen that leaves the container's entry in the
stored profile alone: events arrive, other containers of the pod are collected,
labels change, the container is even restarted under the same name.
-/

namespace Kapprofiler.Collector

open Tracing Foundation

/-- What one pass drained and peeked, and the mounts it filtered with. -/
structure Batch where
  mounts : List String
  totalEvents : TotalEvents

def Batch.built (config : CollectorManagerConfig) (container : String) (batch : Batch) :
    ContainerProfile :=
  buildContainerProfile config batch.mounts container batch.totalEvents

/-- The entry of a container in an application profile. -/
def containerEntry (container : String) (profile : ApplicationProfile) :
    Option ContainerProfile :=
  profile.spec.containers.find? fun entry => entry.name = container

variable (config : CollectorManagerConfig) (id : ContainerId)

namespace World

def entry (world : World) : Option ContainerProfile :=
  (world.profiles.get (id.profileKey config)).bind fun object =>
    containerEntry id.container object.value

/-- The stored container profile, empty before the first pass. -/
def stored (world : World) : ContainerProfile :=
  (world.entry config id).getD { name := id.container }

end World

/-- A pass of a session: its batch, and the container profile stored after it. -/
structure Collection where
  batch : Batch
  stored : ContainerProfile

/-- The world and the passes so far of a session that begins before the container
has an entry. -/
inductive Session : World → List Collection → Prop
  | start (world : World) (hfresh : world.entry config id = none) : Session world []
  | environment {world : World} (next : World) {passes : List Collection}
      (hsession : Session world passes)
      (hentry : next.entry config id = world.entry config id) : Session next passes
  | pass {world next : World} {passes : List Collection} (answers : Answers) {exit : PassExit}
      (hsession : Session world passes)
      (hpass : collectContainerEvents config id answers world = (.returned exit, next))
      (hwritten : exit = .created ∨ exit = .updated) :
      Session next (passes ++ [⟨⟨world.mounts id, world.batch id answers⟩, next.stored config id⟩])

variable {config id}

/-! ## One pass -/

theorem containerEntry_mergeContainers (mounts : List String) (new : ContainerProfile)
    (labels : Labels) (name : String) (containers : List ContainerProfile) :
    containerEntry new.name ⟨name, labels, ⟨mergeContainers config mounts new containers⟩⟩ =
      some (match containerEntry new.name ⟨name, labels, ⟨containers⟩⟩ with
        | none => new
        | some existing => mergeContainerProfile config mounts existing new) := by
  unfold containerEntry
  induction containers with
  | nil => simp [mergeContainers]
  | cons first rest ih =>
      by_cases hname : first.name = new.name
      · simp [mergeContainers, hname, mergeContainerProfile]
      · simp only [mergeContainers, hname, if_false]
        rw [List.find?_cons_of_neg (by simpa using hname),
          List.find?_cons_of_neg (by simpa using hname)]
        exact ih

theorem containerEntry_mergedProfile (mounts : List String) (state : ContainerState)
    (existing : ApplicationProfile) (new : ContainerProfile) :
    containerEntry new.name (mergedProfile config mounts state existing new) =
      some (match containerEntry new.name existing with
        | none => new
        | some profile => mergeContainerProfile config mounts profile new) := by
  simp only [containerEntry, mergedProfile_containers]
  exact containerEntry_mergeContainers mounts new existing.labels existing.name
    existing.spec.containers

/-- A pass that writes stores what it built, merged into the entry if there is one. -/
theorem entry_of_pass {world next : World} {answers : Answers} {exit : PassExit}
    (hpass : collectContainerEvents config id answers world = (.returned exit, next))
    (hwritten : exit = .created ∨ exit = .updated) :
    next.entry config id = some (match world.entry config id with
      | none => world.built config id answers
      | some profile => mergeContainerProfile config (world.mounts id) profile
          (world.built config id answers)) := by
  unfold World.entry
  rcases hwritten with rfl | rfl
  · obtain ⟨state, version, _, habsent, hcreated⟩ := created_profile hpass
    rw [habsent, hcreated]
    simp [containerEntry, newProfile, World.built, buildContainerProfile]
  · obtain ⟨state, existing, version, _, hexisting, _, hupdated⟩ := updated_profile hpass
    rw [hexisting, hupdated]
    exact containerEntry_mergedProfile (world.mounts id) state existing.value
      (world.built config id answers)

/-! ## Whole sessions -/

section Sessions

variable {world next : World} {passes : List Collection} {answers : Answers} {exit : PassExit}

/-- The container has an entry from the first pass on. -/
theorem Session.entry_eq_none_iff (hsession : Session config id world passes) :
    world.entry config id = none ↔ passes = [] := by
  induction hsession with
  | start world hfresh => simp [hfresh]
  | environment next _ hsame ih => rwa [hsame]
  | pass answers _ hpass hwritten _ => simp [entry_of_pass hpass hwritten]

/-- The first pass of a session stores what it built, a later one merges it. -/
theorem Session.stored_pass (hsession : Session config id world passes)
    (hpass : collectContainerEvents config id answers world = (.returned exit, next))
    (hwritten : exit = .created ∨ exit = .updated) :
    (passes = [] ∧ next.stored config id = world.built config id answers) ∨
      next.stored config id = mergeContainerProfile config (world.mounts id)
        (world.stored config id) (world.built config id answers) := by
  have hstored := entry_of_pass hpass hwritten
  cases hentry : world.entry config id with
  | none =>
      rw [hentry] at hstored
      refine Or.inl ⟨hsession.entry_eq_none_iff.mp hentry, ?_⟩
      rw [World.stored, hstored]
      rfl
  | some profile =>
      rw [hentry] at hstored
      right
      rw [World.stored, World.stored, hstored, hentry]
      rfl

/-- What holds before the first pass and is kept by building and by merging a batch
holds throughout a session. -/
theorem Session.invariant (holds : List Batch → ContainerProfile → Prop)
    (hempty : holds [] { name := id.container })
    (hfirst : ∀ batch, holds [batch] (batch.built config id.container))
    (hmerge : ∀ batches profile batch, holds batches profile → holds (batches ++ [batch])
      (mergeContainerProfile config batch.mounts profile (batch.built config id.container)))
    (hsession : Session config id world passes) :
    holds (passes.map (·.batch)) (world.stored config id) := by
  induction hsession with
  | start world hfresh =>
      rw [World.stored, hfresh]
      exact hempty
  | environment next _ hsame ih =>
      rw [World.stored, hsame]
      exact ih
  | @pass world next passes answers exit hsession hpass hwritten ih =>
      rw [List.map_append]
      rcases hsession.stored_pass hpass hwritten with ⟨rfl, hstored⟩ | hstored
      · rw [hstored]
        exact hfirst ⟨world.mounts id, world.batch id answers⟩
      · rw [hstored]
        exact hmerge _ _ ⟨world.mounts id, world.batch id answers⟩ ih

end Sessions

/-! ## Conditions on every pass -/

/-- The relation holds between every item and the items before it. -/
def EachAfter {Item : Type} (holds : List Item → Item → Prop) (items : List Item) : Prop :=
  ∀ earlier item later, items = earlier ++ item :: later → holds earlier item

theorem eachAfter_concat {Item : Type} {holds : List Item → Item → Prop} {items : List Item}
    {last : Item} :
    EachAfter holds (items ++ [last]) ↔ EachAfter holds items ∧ holds items last := by
  constructor
  · intro heach
    refine ⟨?_, heach items last [] rfl⟩
    intro earlier item later hsplit
    exact heach earlier item (later ++ [last]) (by simp [hsplit])
  · rintro ⟨heach, hlast⟩ earlier item later hsplit
    cases later using List.reverseRecOn with
    | nil =>
        obtain ⟨rfl, heq⟩ := List.append_inj' hsplit rfl
        rwa [← List.singleton_inj.mp heq]
    | append_singleton later other _ =>
        rw [← List.cons_append, ← List.append_assoc] at hsplit
        exact heach earlier item later (List.append_inj' hsplit rfl).1

/-- A container is tracked, and no profile is stored yet. -/
def trackedWorld : World :=
  { freshSystem.world with containers := (∅ : Finmap _).insert nginx ⟨true, false⟩ }

theorem session_trackedWorld (config : CollectorManagerConfig) :
    Session config nginx trackedWorld [] :=
  .start trackedWorld rfl

def World.afterPass (config : CollectorManagerConfig) (answers : Answers) (world : World) : World :=
  (collectContainerEvents config nginx answers world).2

/-- A session goes on with a pass over what the tracer has brought meanwhile. -/
theorem Session.afterPass {world : World} {passes : List Collection}
    (hsession : Session config nginx world passes) (next : World) (answers : Answers)
    (hentry : next.entry config nginx = world.entry config nginx)
    (hexit : (collectContainerEvents config nginx answers next).1 = .returned .created ∨
      (collectContainerEvents config nginx answers next).1 = .returned .updated) :
    Session config nginx (next.afterPass config answers) (passes ++
      [⟨⟨next.mounts nginx, next.batch nginx answers⟩,
        (next.afterPass config answers).stored config nginx⟩]) := by
  have hnext := hsession.environment next hentry
  rcases hexit with hexit | hexit
  · exact hnext.pass answers (Prod.ext hexit rfl) (Or.inl rfl)
  · exact hnext.pass answers (Prod.ext hexit rfl) (Or.inr rfl)

end Kapprofiler.Collector
