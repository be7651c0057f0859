import Mathlib.Logic.Function.Basic
import Kapprofiler.Controller.Handler
import Kapprofiler.Foundation.Machine

/-! # The controllers as a machine

Every node runs a controller, and its watcher hands it one event at a time. The
handlers of different nodes interleave request by request, with each other and
with the collectors that write the profiles of pods.
-/

namespace Kapprofiler.Controller

open Collector Foundation

/-- The handler of every node, and the stored profiles. -/
structure Controllers (Node : Type) where
  handlers : Node → HandlerState
  profiles : ProfileStore

inductive Label (Node : Type)
  | event (node : Node) (event : ProfileEvent)
  | advance (node : Node) (answers : Answers)
  | podProfile (nameSpace rest : String) (profile : Option ApplicationProfile)

/-- A collector writes or deletes the profile of a pod, whatever its name and content. -/
def writePodProfile (profiles : ProfileStore) (nameSpace rest : String) :
    Option ApplicationProfile → ProfileStore
  | some profile => profiles.put (nameSpace, "pod-" ++ rest) profile
  | none => profiles.delete (nameSpace, "pod-" ++ rest)

variable {Node : Type} [DecidableEq Node]

def step (storeNamespace : String) (controllers : Controllers Node) :
    Label Node → Option (Controllers Node)
  | .event node event =>
      match controllers.handlers node with
      | .idle => some { controllers with
          handlers := Function.update controllers.handlers node (handleApplicationProfile event) }
      | _ => none
  | .advance node answers =>
      (handlerStep storeNamespace answers controllers.profiles (controllers.handlers node)).map
        fun next => ⟨Function.update controllers.handlers node next.1, next.2⟩
  | .podProfile nameSpace rest profile =>
      some { controllers with
        profiles := writePodProfile controllers.profiles nameSpace rest profile }

/-- The controllers have just been started, on whatever profiles are stored. -/
def Initial (controllers : Controllers Node) : Prop :=
  ∀ node, controllers.handlers node = .idle

/-- The machine of the controllers with the given store namespace. -/
def machine (storeNamespace : String) : Machine (Controllers Node) (Label Node) where
  init := Initial
  step := step storeNamespace

variable {storeNamespace : String}

/-! ## What one request can do -/

section Request

variable {answers : Answers} {profiles after : ProfileStore} {state next : HandlerState}

/-- A handler writes where it creates or patches, and then is done; it decides to patch
where it has read a profile that is not final. -/
theorem handlerStep_cases
    (hstep : handlerStep storeNamespace answers profiles state = some (next, after)) :
    (after = profiles ∧ ∀ plan, next = .patch plan →
      ∃ object, profiles.get (plan.key storeNamespace) = some object ∧ ¬ object.value.isFinal) ∨
    (∃ plan, state = .create plan ∧ next = .idle ∧
      profiles.create (plan.key storeNamespace) (plan.newProfile storeNamespace) = some after) ∨
    ∃ plan, state = .patch plan ∧ next = .idle ∧
      profiles.patch (plan.key storeNamespace) plan.mergePatch = some after := by
  -- All requests but the last one only read.
  have hquiet : (∀ plan, next ≠ .patch plan) → after = profiles →
      after = profiles ∧ ∀ plan, next = .patch plan →
        ∃ object, profiles.get (plan.key storeNamespace) = some object ∧
          ¬ object.value.isFinal :=
    fun hne hafter => ⟨hafter, fun plan heq => absurd heq (hne plan)⟩
  cases state with
  | idle => cases hstep
  | getPod event =>
      simp only [handlerStep] at hstep
      repeat' split at hstep
      all_goals
        cases hstep
        exact Or.inl (hquiet (by simp) rfl)
  | getReplicaSet event =>
      simp only [handlerStep] at hstep
      repeat' split at hstep
      all_goals
        cases hstep
        exact Or.inl (hquiet (by simp) rfl)
  | getWorkload event pod kind owner =>
      simp only [handlerStep] at hstep
      split at hstep <;> cases hstep <;> exact Or.inl (hquiet (by simp) rfl)
  | listPods event pod kind workload =>
      simp only [handlerStep] at hstep
      split at hstep <;> cases hstep <;> exact Or.inl (hquiet (by simp) rfl)
  | getPodProfiles event pod kind name pods containersMap =>
      cases pods with
      | nil =>
          simp only [handlerStep] at hstep
          split at hstep <;> cases hstep
          exact Or.inl (hquiet (by simp) rfl)
      | cons item pods =>
          simp only [handlerStep] at hstep
          split at hstep <;> cases hstep <;> exact Or.inl (hquiet (by simp) rfl)
  | get plan =>
      simp only [handlerStep] at hstep
      split at hstep
      · cases hstep
        exact Or.inl (hquiet (by simp) rfl)
      next existing hget =>
        split at hstep
        · cases hstep
          exact Or.inl (hquiet (by simp) rfl)
        next hfinal =>
          cases hstep
          refine Or.inl ⟨rfl, ?_⟩
          intro other heq
          cases heq
          exact ⟨existing, of_request hget, hfinal⟩
  | create plan =>
      simp only [handlerStep] at hstep
      split at hstep
      · cases hstep
        exact Or.inl (hquiet (by simp) rfl)
      next hcreate =>
        cases hstep
        exact Or.inr (Or.inl ⟨plan, rfl, rfl, of_request hcreate⟩)
  | patch plan =>
      simp only [handlerStep] at hstep
      split at hstep
      · cases hstep
        exact Or.inl (hquiet (by simp) rfl)
      next hpatch =>
        cases hstep
        exact Or.inr (Or.inr ⟨plan, rfl, rfl, of_request hpatch⟩)

end Request

/-- A step starts a handler, makes a request of one, or is a collector's. -/
theorem step_cases {controllers next : Controllers Node} {label : Label Node}
    (hstep : step storeNamespace controllers label = some next) :
    (∃ node event, label = .event node event ∧ next.profiles = controllers.profiles ∧
      next.handlers =
        Function.update controllers.handlers node (handleApplicationProfile event)) ∨
    (∃ node answers state, label = .advance node answers ∧
      handlerStep storeNamespace answers controllers.profiles (controllers.handlers node) =
        some (state, next.profiles) ∧
      next.handlers = Function.update controllers.handlers node state) ∨
    ∃ nameSpace rest profile, label = .podProfile nameSpace rest profile ∧
      next.handlers = controllers.handlers ∧
      next.profiles = writePodProfile controllers.profiles nameSpace rest profile := by
  cases label with
  | event node event =>
      simp only [step] at hstep
      split at hstep <;> cases hstep
      exact Or.inl ⟨node, event, rfl, rfl, rfl⟩
  | advance node answers =>
      obtain ⟨⟨state, profiles⟩, hhandler, rfl⟩ := Option.map_eq_some_iff.mp hstep
      exact Or.inr (Or.inl ⟨node, answers, state, rfl, hhandler, rfl⟩)
  | podProfile nameSpace rest profile =>
      cases hstep
      exact Or.inr (Or.inr ⟨nameSpace, rest, profile, rfl, rfl, rfl⟩)

theorem handleApplicationProfile_ne_patch (event : ProfileEvent) (plan : Plan) :
    handleApplicationProfile event ≠ .patch plan := by
  unfold handleApplicationProfile
  split <;> simp

end Kapprofiler.Controller
