import Mathlib.Data.Fintype.Basic
import Kapprofiler.Controller.System

/-! # Final workload profiles

A handler does not touch a workload's profile that it reads as final. Its patch
carries no version, though: a profile that another node makes final between the
read and the patch is overwritten. Nothing else can change a final profile.
-/

namespace Kapprofiler.Controller

open Collector Foundation

variable {Node : Type} [DecidableEq Node] {storeNamespace : String}

/-- The key of some workload's profile. -/
def IsWorkloadKey (key : String × String) : Prop :=
  ∃ (kind : WorkloadKind) (rest : String), key.2 = kind.name ++ "-" ++ rest

/-- Once a workload's profile is final, its containers never change. -/
def FinalImmutable (Node : Type) [DecidableEq Node] (storeNamespace : String) : Prop :=
  ∀ (start system last : Controllers Node) before labels key object, Initial start →
    (machine storeNamespace).run start before = some system → IsWorkloadKey key →
    system.profiles.get key = some object → object.value.isFinal →
    (machine storeNamespace).run system labels = some last →
    ∃ object', last.profiles.get key = some object' ∧
      object'.value.spec.containers = object.value.spec.containers

/-- The key of the final profile that the handler is about to write. -/
def HandlerState.finalWrite (storeNamespace : String) : HandlerState → Option (String × String)
  | .create plan | .patch plan =>
      if plan.labels.get finalLabel = "true" then some (plan.key storeNamespace) else none
  | _ => none

/-- The key of the profile that the handler has read as not final and is about to patch. -/
def HandlerState.pendingPatch (storeNamespace : String) :
    HandlerState → Option (String × String)
  | .patch plan => some (plan.key storeNamespace)
  | _ => none

/-- The condition on a step: it is not the write of a final profile while another
handler, which has read that profile as not final, is about to patch it. -/
def Unraced (storeNamespace : String) (controllers : Controllers Node) : Label Node → Prop
  | .advance node _ => ∀ key ∈ (controllers.handlers node).finalWrite storeNamespace,
      ∀ other, other ≠ node → (controllers.handlers other).pendingPatch storeNamespace ≠ some key
  | _ => True

instance [Fintype Node] (controllers : Controllers Node) :
    DecidablePred (Unraced storeNamespace controllers)
  | .advance node _ => inferInstanceAs (Decidable
      (∀ key ∈ (controllers.handlers node).finalWrite storeNamespace, ∀ other, other ≠ node →
        (controllers.handlers other).pendingPatch storeNamespace ≠ some key))
  | .event _ _ | .podProfile _ _ _ => isTrue trivial

/-- Whoever is about to patch a profile would still read it as not final. -/
def Guarded (storeNamespace : String) (controllers : Controllers Node) : Prop :=
  ∀ node plan, controllers.handlers node = .patch plan →
    ∀ object ∈ controllers.profiles.get (plan.key storeNamespace), ¬ object.value.isFinal

/-! ## Keys and labels -/

theorem Plan.isWorkloadKey (plan : Plan) : IsWorkloadKey (plan.key storeNamespace) := by
  unfold Plan.key profileKey
  split
  · exact ⟨plan.kind, plan.name ++ "-" ++ plan.nameSpace, by simp [String.append_assoc]⟩
  · exact ⟨plan.kind, plan.name, rfl⟩

/-- Collectors write under names that begin with another letter than any kind. -/
theorem IsWorkloadKey.ne_podKey {key : String × String} (hkey : IsWorkloadKey key)
    (nameSpace rest : String) : key ≠ (nameSpace, "pod-" ++ rest) := by
  obtain ⟨kind, suffix, hname⟩ := hkey
  rintro rfl
  have hhead := congrArg (fun name : String => name.toList.head?) hname
  cases kind <;> simp [WorkloadKind.name] at hhead

/-- A patch makes a profile final only if its own labels are. -/
theorem Plan.not_final_mergePatch {plan : Plan} {existing : ApplicationProfile}
    (hlabels : plan.labels.get finalLabel ≠ "true") (hexisting : ¬ existing.isFinal) :
    ¬ (plan.mergePatch existing).isFinal := by
  unfold ApplicationProfile.isFinal Plan.mergePatch Labels.get at *
  by_cases hmem : finalLabel ∈ plan.labels
  · rwa [Finmap.lookup_union_left hmem]
  · rwa [Finmap.lookup_union_right hmem]

/-! ## One step -/

theorem writePodProfile_get {profiles : ProfileStore} {key : String × String}
    (hkey : IsWorkloadKey key) (nameSpace rest : String) (profile : Option ApplicationProfile) :
    (writePodProfile profiles nameSpace rest profile).get key = profiles.get key := by
  have hne := hkey.ne_podKey nameSpace rest
  cases profile with
  | none => exact profiles.delete_get_of_ne hne
  | some profile => exact profiles.put_get_of_ne profile hne

/-- A request changes no final profile if its handler would still read it so. -/
theorem handlerStep_get {answers : Answers} {profiles after : ProfileStore}
    {state next : HandlerState} {key : String × String} {object : Versioned ApplicationProfile}
    (hstep : handlerStep storeNamespace answers profiles state = some (next, after))
    (hguard : ∀ plan, state = .patch plan →
      ∀ object ∈ profiles.get (plan.key storeNamespace), ¬ object.value.isFinal)
    (hobject : profiles.get key = some object) (hfinal : object.value.isFinal) :
    after.get key = some object := by
  rcases handlerStep_cases hstep with
    ⟨rfl, _⟩ | ⟨plan, rfl, rfl, hcreate⟩ | ⟨plan, rfl, rfl, hpatch⟩
  · exact hobject
  · obtain ⟨habsent, rfl⟩ := VersionedStore.create_eq_some.mp hcreate
    have hne : key ≠ plan.key storeNamespace := by
      rintro rfl
      rw [hobject] at habsent
      cases habsent
    rwa [VersionedStore.put_get_of_ne _ _ hne]
  · obtain ⟨stored, hstored, rfl⟩ := VersionedStore.patch_eq_some.mp hpatch
    -- The handler had read its own profile as not final.
    have hne : key ≠ plan.key storeNamespace := by
      rintro rfl
      exact hguard plan rfl object hobject hfinal
    rwa [VersionedStore.write_get_of_ne _ _ _ hne]

/-- Whatever a handler writes without the final label, is not final where it was not. -/
theorem handlerStep_not_final {answers : Answers} {profiles after : ProfileStore}
    {state next : HandlerState} {key : String × String}
    (hstep : handlerStep storeNamespace answers profiles state = some (next, after))
    (hunraced : state.finalWrite storeNamespace ≠ some key)
    (hkey : ∀ object ∈ profiles.get key, ¬ object.value.isFinal) :
    ∀ object ∈ after.get key, ¬ object.value.isFinal := by
  rcases handlerStep_cases hstep with
    ⟨rfl, _⟩ | ⟨plan, rfl, rfl, hcreate⟩ | ⟨plan, rfl, rfl, hpatch⟩
  · exact hkey
  · obtain ⟨_, rfl⟩ := VersionedStore.create_eq_some.mp hcreate
    by_cases hsame : key = plan.key storeNamespace
    · subst hsame
      have hlabels : plan.labels.get finalLabel ≠ "true" :=
        fun hlabel => hunraced (if_pos hlabel)
      intro object hobject
      rw [VersionedStore.put_get] at hobject
      obtain rfl := Option.some.inj hobject
      exact hlabels
    · rwa [VersionedStore.put_get_of_ne _ _ hsame]
  · obtain ⟨stored, hstored, rfl⟩ := VersionedStore.patch_eq_some.mp hpatch
    by_cases hsame : key = plan.key storeNamespace
    · subst hsame
      have hlabels : plan.labels.get finalLabel ≠ "true" :=
        fun hlabel => hunraced (if_pos hlabel)
      intro object hobject
      obtain ⟨version, hget⟩ := profiles.write_get (plan.mergePatch stored.value) hstored
      obtain rfl := Option.some.inj (hget.symm.trans hobject)
      exact Plan.not_final_mergePatch hlabels (hkey stored hstored)
    · rwa [VersionedStore.write_get_of_ne _ _ _ hsame]

theorem step_guarded {controllers next : Controllers Node} {label : Label Node}
    (hguarded : Guarded storeNamespace controllers)
    (hunraced : Unraced storeNamespace controllers label)
    (hstep : step storeNamespace controllers label = some next) :
    Guarded storeNamespace next := by
  intro other pending hpending
  rcases step_cases hstep with ⟨node, event, _, hprofiles, hhandlers⟩ |
    ⟨node, answers, state, rfl, hhandler, hhandlers⟩ | ⟨_, _, _, _, hhandlers, hprofiles⟩
  · rw [hhandlers] at hpending
    have hother : controllers.handlers other = .patch pending := by
      by_cases hsame : other = node
      · subst hsame
        rw [Function.update_self] at hpending
        exact absurd hpending (handleApplicationProfile_ne_patch event pending)
      · rwa [Function.update_of_ne hsame] at hpending
    rw [hprofiles]
    exact hguarded other pending hother
  · rw [hhandlers] at hpending
    by_cases hsame : other = node
    · -- The handler has just read the profile, and its step wrote nothing.
      subst hsame
      rw [Function.update_self] at hpending
      rcases handlerStep_cases hhandler with ⟨heq, hread⟩ | ⟨_, _, heq, _⟩ | ⟨_, _, heq, _⟩
      · obtain ⟨object, hobject, hfinal⟩ := hread pending hpending
        rw [heq]
        intro object' hobject'
        obtain rfl := Option.some.inj (hobject.symm.trans hobject')
        exact hfinal
      · rw [heq] at hpending
        cases hpending
      · rw [heq] at hpending
        cases hpending
    · rw [Function.update_of_ne hsame] at hpending
      refine handlerStep_not_final hhandler ?_ (hguarded other pending hpending)
      -- Another handler is about to patch: that would be the race that is ruled out.
      intro hwrite
      refine hunraced _ hwrite other hsame ?_
      rw [hpending]
      rfl
  · rw [hhandlers] at hpending
    rw [hprofiles, writePodProfile_get pending.isWorkloadKey]
    exact hguarded other pending hpending

theorem step_final {controllers next : Controllers Node} {label : Label Node}
    {key : String × String} {object : Versioned ApplicationProfile}
    (hguarded : Guarded storeNamespace controllers)
    (hstep : step storeNamespace controllers label = some next) (hkey : IsWorkloadKey key)
    (hobject : controllers.profiles.get key = some object) (hfinal : object.value.isFinal) :
    next.profiles.get key = some object := by
  rcases step_cases hstep with ⟨_, _, _, hprofiles, _⟩ | ⟨node, _, _, _, hhandler, _⟩ |
    ⟨_, _, _, _, _, hprofiles⟩
  · rwa [hprofiles]
  · exact handlerStep_get hhandler (hguarded node) hobject hfinal
  · rwa [hprofiles, writePodProfile_get hkey]

theorem HandlerState.of_pendingPatch {state : HandlerState} {key : String × String}
    (hpending : state.pendingPatch storeNamespace = some key) : ∃ plan, state = .patch plan := by
  unfold pendingPatch at hpending
  split at hpending
  next plan => exact ⟨plan, rfl⟩
  next => cases hpending

/-- A patch presents no version, so it also takes effect on a final profile. -/
theorem patch_takes_effect {controllers : Controllers Node} {node : Node} {plan : Plan}
    {object : Versioned ApplicationProfile}
    (hpatch : controllers.handlers node = .patch plan)
    (hobject : controllers.profiles.get (plan.key storeNamespace) = some object) :
    ∃ next object', step storeNamespace controllers (.advance node {}) = some next ∧
      next.profiles.get (plan.key storeNamespace) = some object' ∧
      object'.value.spec.containers = plan.containers := by
  have hstored : request false _ = some _ :=
    request_eq_some.mpr ⟨rfl, VersionedStore.patch_of_get plan.mergePatch hobject⟩
  obtain ⟨version, hget⟩ := controllers.profiles.write_get (plan.mergePatch object.value) hobject
  refine ⟨⟨Function.update controllers.handlers node .idle, controllers.profiles.write _ object _⟩,
    ⟨plan.mergePatch object.value, version⟩, ?_, hget, rfl⟩
  simp only [step, hpatch, handlerStep, hstored, Option.map_some]

/-- The condition is no stronger than needed: a step that violates it leaves a handler
whose next request replaces the containers of the profile just written. -/
theorem overwritten_of_raced {controllers next : Controllers Node} {label : Label Node}
    (hraced : ¬ Unraced storeNamespace controllers label)
    (hstep : step storeNamespace controllers label = some next) :
    ∃ node pending, next.handlers node = .patch pending ∧
      ∀ object, next.profiles.get (pending.key storeNamespace) = some object →
        ∃ last object', step storeNamespace next (.advance node {}) = some last ∧
          last.profiles.get (pending.key storeNamespace) = some object' ∧
          object'.value.spec.containers = pending.containers := by
  rcases step_cases hstep with ⟨_, _, rfl, _⟩ | ⟨node, answers, state, rfl, _, hhandlers⟩ |
    ⟨_, _, _, rfl, _⟩
  · exact absurd trivial hraced
  · simp only [Unraced, not_forall, not_not] at hraced
    obtain ⟨key, _, other, hne, hpending⟩ := hraced
    obtain ⟨pending, hpatch⟩ := HandlerState.of_pendingPatch hpending
    have hstill : next.handlers other = .patch pending := by
      rw [hhandlers, Function.update_of_ne hne]
      exact hpatch
    exact ⟨other, pending, hstill, fun _ hobject => patch_takes_effect hstill hobject⟩
  · exact absurd trivial hraced

/-! ## Whole runs -/

theorem run_guarded {start last : Controllers Node} {labels : List (Label Node)}
    (hinit : Initial start)
    (hunraced : (machine storeNamespace).Along (Unraced storeNamespace) start labels)
    (hrun : (machine storeNamespace).run start labels = some last) :
    Guarded storeNamespace last := by
  refine Machine.run_invariant_along (machine storeNamespace)
    (fun _ _ _ hguarded hmeets hstep => step_guarded hguarded hmeets hstep) ?_ hunraced hrun
  intro node plan hpatch
  rw [hinit node] at hpatch
  cases hpatch

/-- In every run in which no handler makes a profile final while another one is about
to patch it, a final workload profile is never changed, by any number of nodes and
over all events and interleavings. -/
theorem final_workload_profile_immutable {start system last : Controllers Node}
    {before labels : List (Label Node)} {key : String × String}
    {object : Versioned ApplicationProfile} (hinit : Initial start)
    (hunraced : (machine storeNamespace).Along (Unraced storeNamespace) start (before ++ labels))
    (hbefore : (machine storeNamespace).run start before = some system)
    (hkey : IsWorkloadKey key) (hobject : system.profiles.get key = some object)
    (hfinal : object.value.isFinal)
    (hrun : (machine storeNamespace).run system labels = some last) :
    last.profiles.get key = some object := by
  obtain ⟨hfirst, hrest⟩ := (machine storeNamespace).along_append.mp hunraced
  have hpreserve : ∀ (system : Controllers Node) (label : Label Node) next,
      Guarded storeNamespace system ∧ system.profiles.get key = some object →
      Unraced storeNamespace system label → step storeNamespace system label = some next →
      Guarded storeNamespace next ∧ next.profiles.get key = some object :=
    fun _ _ _ hinv hmeets hstep => ⟨step_guarded hinv.1 hmeets hstep,
      step_final hinv.1 hstep hkey hinv.2 hfinal⟩
  exact (Machine.run_invariant_along (machine storeNamespace) hpreserve
    ⟨run_guarded hinit hfirst hbefore, hobject⟩ (hrest system hbefore) hrun).2

/-! ## Two nodes and a deployment -/

/-- The replica set of the deployment `web`. -/
def webCluster : Cluster :=
  { Cluster.unreachable with
    replicaSets := fun _ _ => some {
      name := "web-1"
      nameSpace := "default"
      ownerReferences := [{ kind := "Deployment", name := "web" }] } }

/-- The profile of the replica set changes, with the given syscalls and final mark. -/
def webEvent (sysCalls : List String) (final : String) : ProfileEvent where
  nameSpace := "default"
  profile :=
    { name := "replicaset-web-1"
      labels := (∅ : Labels).insert finalLabel final
      spec := ⟨[{ name := "app", sysCalls := sysCalls }]⟩ }

def freshControllers : Controllers Bool := ⟨fun _ => .idle, .empty⟩

/-- The given number of requests of a node. -/
def requests (node : Bool) (count : Nat) : List (Label Bool) :=
  List.replicate count (.advance node { cluster := webCluster })

/-- The first node creates the profile of the deployment. -/
def creation : List (Label Bool) :=
  .event false (webEvent ["read"] "false") :: requests false 4

/-- Then it patches the profile, and the other node makes it final. -/
def unracedRun : List (Label Bool) :=
  creation ++ .event false (webEvent ["read", "write"] "false") :: requests false 4 ++
    .event true (webEvent ["open"] "true") :: requests true 4

/-- The same, but the other node goes before the patch. -/
def racedRun : List (Label Bool) :=
  creation ++ .event false (webEvent ["read", "write"] "false") :: requests false 3 ++
    .event true (webEvent ["open"] "true") :: requests true 4

def webKey : String × String := ("default", "deployment-web")

theorem web_final_immutable :
    ∃ (system : Controllers Bool) (object : Versioned ApplicationProfile) (last : Controllers Bool),
      (machine "").run freshControllers unracedRun = some system ∧
      system.profiles.get webKey = some object ∧ object.value.isFinal ∧
      (machine "").run system (.event false (webEvent [] "false") :: requests false 3) =
        some last ∧
      last.profiles.get webKey = some object := by
  obtain ⟨system, object, last, hbefore, hobject, hfinal, hunraced, hrun⟩ :
      ∃ (system : Controllers Bool) (object : Versioned ApplicationProfile)
        (last : Controllers Bool),
        (machine "").run freshControllers unracedRun = some system ∧
        system.profiles.get webKey = some object ∧ object.value.isFinal ∧
        (machine "").Along (Unraced "") freshControllers
          (unracedRun ++ .event false (webEvent [] "false") :: requests false 3) ∧
        (machine "").run system (.event false (webEvent [] "false") :: requests false 3) =
          some last :=
    ⟨_, _, _, rfl, rfl, by decide, by decide, rfl⟩
  exact ⟨system, object, last, hbefore, hobject, hfinal, hrun,
    final_workload_profile_immutable (fun _ => rfl) hunraced hbefore
      ⟨.deployment, "web", rfl⟩ hobject hfinal hrun⟩

/-- The patch of the first node replaces the containers of the final profile. -/
theorem web_final_overwritten : ¬ FinalImmutable Bool "" := by
  intro himmutable
  obtain ⟨object', hobject', hcontainers⟩ := himmutable freshControllers _ _ racedRun
    (requests false 1) webKey _ (fun _ => rfl) rfl ⟨.deployment, "web", rfl⟩ rfl (by decide) rfl
  obtain rfl := Option.some.inj hobject'
  revert hcontainers
  decide

end Kapprofiler.Controller
