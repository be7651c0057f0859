import Kapprofiler.Controller.MergeEqualities
import Kapprofiler.Controller.OwnPods

/-! # Partial profiles of other pods

The handler does not propagate an event about a partial profile. But an event about one
pod makes it read the profiles of all pods of the workload, and it does not look at
their labels.
-/

namespace Kapprofiler.Controller

open Collector Foundation

variable {storeNamespace : String} {cluster : Cluster} {event : ProfileEvent}

/-! ## The profiles read -/

/-- The pod whose profile the request reads, and the profile. -/
def readPod (storeNamespace : String) (handling : Handling) :
    HandlingLabel → List (Pod × ApplicationProfile)
  | .request answers =>
      match handling.state with
      | .getPodProfiles _ _ _ _ (item :: _) _ =>
          match request answers.getFails (handling.profiles.get
              (profileKey storeNamespace "pod" item.name item.nameSpace)) with
          | some object => [(item, object.value)]
          | none => []
      | _ => []
  | .others _ => []

/-- The pods whose profiles the handler has read, with what was stored for each when it
was read. -/
def podsRead (storeNamespace : String) (cluster : Cluster) :
    Handling → List HandlingLabel → List (Pod × ApplicationProfile)
  | _, [] => []
  | handling, label :: rest => readPod storeNamespace handling label ++
      match handlingStep storeNamespace cluster handling label with
      | some next => podsRead storeNamespace cluster next rest
      | none => []

theorem podsRead_eq_trace (event : ProfileEvent) (handling : Handling)
    (labels : List HandlingLabel) :
    podsRead storeNamespace cluster handling labels =
      (handlingMachine storeNamespace cluster event).trace (readPod storeNamespace) handling
        labels := by
  induction labels generalizing handling with
  | nil => rfl
  | cons label rest ih =>
      have hstep : (handlingMachine storeNamespace cluster event).step handling label =
          handlingStep storeNamespace cluster handling label := rfl
      simp only [podsRead, Machine.trace, hstep]
      cases handlingStep storeNamespace cluster handling label with
      | none => rfl
      | some next => simp only [ih next]

theorem podsRead_snoc {start state : Handling} {labels : List HandlingLabel}
    {label : HandlingLabel}
    (hrun : (handlingMachine storeNamespace cluster event).run start labels = some state) :
    podsRead storeNamespace cluster start (labels ++ [label]) =
      podsRead storeNamespace cluster start labels ++ readPod storeNamespace state label := by
  rw [podsRead_eq_trace event, podsRead_eq_trace event]
  exact Machine.trace_concat _ hrun

/-- The pods read are the first of those listed, and what the handler goes on with has
been merged from their profiles. -/
def Collected (found : PodWorkload) (read : List (Pod × ApplicationProfile)) :
    HandlerState → Prop
  | .getPodProfiles _ _ _ _ pods containersMap =>
      read.map Prod.fst ++ pods = found.pods ∧
        containersMap = (read.map Prod.snd).foldl addPod []
  | .get plan | .create plan | .patch plan =>
      read.map Prod.fst = found.pods ∧ Merged (read.map Prod.snd) plan.containers
  | .getPod _ | .getWorkload .. | .listPods .. => read = []
  | .getReplicaSet _ | .idle => True

section Collected

variable {found : PodWorkload} {read : List (Pod × ApplicationProfile)} {answers : Answers}
  {profiles after : ProfileStore} {state next : HandlerState}

theorem Collected.visit {current : ProfileEvent} {pod : Pod} {kind : WorkloadKind}
    {name : String} {pods : List Pod} {containersMap : List ContainerProfile}
    (hcollected : Collected found read
      (.getPodProfiles current pod kind name pods containersMap))
    (hstep : handlerStep storeNamespace { answers with cluster := cluster } profiles
      (.getPodProfiles current pod kind name pods containersMap) = some (next, after)) :
    Collected found (read ++ readPod storeNamespace
      ⟨.getPodProfiles current pod kind name pods containersMap, profiles⟩ (.request answers))
      next := by
  obtain ⟨hpods, rfl⟩ := hcollected
  cases pods with
  | nil =>
      simp only [handlerStep] at hstep
      split at hstep
      -- All pods are read, and the containers come in the order of the answer.
      next hperm =>
        cases hstep
        rw [List.append_nil] at hpods
        rw [readPod, List.append_nil]
        exact ⟨hpods, hperm⟩
      next => cases hstep
  | cons item pods =>
      simp only [handlerStep] at hstep
      simp only [readPod]
      cases hread : request answers.getFails (profiles.get
          (profileKey storeNamespace "pod" item.name item.nameSpace)) with
      | none =>
          rw [hread] at hstep
          cases hstep
          trivial
      | some object =>
          rw [hread] at hstep
          cases hstep
          refine ⟨?_, ?_⟩
          · rw [← hpods, List.map_append, List.append_assoc]
            rfl
          · rw [List.map_append, List.foldl_append]
            rfl

/-- For an event about a pod, each request keeps this so. -/
theorem Collected.step {seen : Pod → ApplicationProfile → Prop}
    (hfound : found.Found storeNamespace cluster event)
    (hjustified : Justified storeNamespace cluster event seen state)
    (hcollected : Collected found read state)
    (hstep : handlerStep storeNamespace { answers with cluster := cluster } profiles state =
      some (next, after)) :
    Collected found (read ++ readPod storeNamespace ⟨state, profiles⟩ (.request answers))
      next := by
  cases state with
  | idle => cases hstep
  | getPod current =>
      obtain rfl := hjustified
      simp only [handlerStep, hfound.pod] at hstep
      rw [readPod, List.append_nil]
      split at hstep
      · cases hstep
        trivial
      · split at hstep <;> cases hstep
        · trivial
        · exact hcollected
  | getReplicaSet current =>
      have hnone := hjustified.2
      rw [hfound.pod] at hnone
      cases hnone
  | getWorkload current pod kind name =>
      simp only [handlerStep] at hstep
      rw [readPod, List.append_nil]
      split at hstep <;> cases hstep
      · trivial
      · exact hcollected
  | listPods current pod kind workload =>
      obtain ⟨rfl, hpod, owner, howner, hkind, hworkload⟩ := hjustified
      simp only [handlerStep] at hstep
      rw [readPod, List.append_nil]
      split at hstep
      · cases hstep
        trivial
      next pods hpods =>
        cases hstep
        obtain rfl : read = [] := hcollected
        -- The lookups of the handler are those of the workload.
        have hother : (⟨pod, owner, kind, workload, pods⟩ : PodWorkload).Found storeNamespace
            cluster current := ⟨hpod, howner, hkind, hworkload, hpods⟩
        obtain rfl := hfound.eq hother
        exact ⟨rfl, rfl⟩
  | getPodProfiles current pod kind name pods containersMap => exact hcollected.visit hstep
  | get plan =>
      simp only [handlerStep] at hstep
      rw [readPod, List.append_nil]
      split at hstep
      · cases hstep
        exact hcollected
      · split at hstep <;> cases hstep
        · trivial
        · exact hcollected
  | create plan =>
      simp only [handlerStep] at hstep
      split at hstep <;> cases hstep <;> trivial
  | patch plan =>
      simp only [handlerStep] at hstep
      split at hstep <;> cases hstep <;> trivial

end Collected

/-- The handler comes to its write with the profiles of all listed pods merged. -/
theorem collected_of_run {found : PodWorkload} (hfound : found.Found storeNamespace cluster event)
    {start last : Handling} {labels : List HandlingLabel}
    (hstart : start.state = handleApplicationProfile event)
    (hrun : (handlingMachine storeNamespace cluster event).run start labels = some last) :
    Collected found (podsRead storeNamespace cluster start labels) last.state := by
  refine Machine.run_history_invariant _ (fun labels last =>
    Collected found (podsRead storeNamespace cluster start labels) last.state) ?_ ?_ hrun
  · rw [hstart, handleApplicationProfile]
    split
    · trivial
    · rfl
  · intro labels state label next hbefore hcollected hstep
    rw [podsRead_snoc hbefore]
    cases label with
    | others profiles =>
        cases hstep
        rw [readPod, List.append_nil]
        exact hcollected
    | request answers =>
        obtain ⟨⟨after, profiles⟩, hhandler, rfl⟩ := Option.map_eq_some_iff.mp hstep
        exact hcollected.step hfound (justified_of_run hstart hbefore) hhandler

/-! ## What partial profiles contribute -/

/-- The profile carries the partial mark. -/
def IsPartial (profile : ApplicationProfile) : Prop :=
  profile.labels.get partialLabel = "true"

instance : DecidablePred IsPartial := fun _ => inferInstanceAs (Decidable (_ = _))

theorem Category.equals_refl (category : Category) (entry : category.Entry) :
    category.equals entry entry = true := by
  by_cases hcategory : category = .execs
  · subst hcategory
    exact execs_equals_refl entry
  · exact (Category.equals_iff hcategory entry entry).mpr rfl

theorem Category.equals_trans (category : Category) (a b c : category.Entry)
    (hab : category.equals a b = true) (hbc : category.equals b c = true) :
    category.equals a c = true := by
  by_cases hcategory : category = .execs
  · subst hcategory
    simp only [Category.equals, ExecCalls.equals, decide_eq_true_iff] at hab hbc ⊢
    exact ⟨hab.1.trans hbc.1, hab.2.trans hbc.2⟩
  · rw [Category.equals_iff hcategory] at hab hbc ⊢
    exact hab.trans hbc

/-- The merge takes the entry: it stands in the first container of that name, or equals
no entry of the containers of that name before it. -/
def Taken (profiles : List ApplicationProfile) (name : String) (category : Category)
    (entry : category.Entry) : Prop :=
  ∃ first rest, occurrences name profiles = first :: rest ∧
    (entry ∈ category.entries first ∨
      OccursFirst category.equals (category.entries first) (rest.flatMap category.entries) entry)

theorem Merged.hasEntry_iff_taken {profiles : List ApplicationProfile}
    {containers : List ContainerProfile} (hmerged : Merged profiles containers) {name : String}
    {category : Category} {entry : category.Entry} :
    HasEntry containers name category entry ↔ Taken profiles name category entry := by
  have hmem : ∀ first rest, occurrences name profiles = first :: rest →
      (HasEntry containers name category entry ↔ entry ∈ category.entries first ∨
        OccursFirst category.equals (category.entries first) (rest.flatMap category.entries)
          entry) := by
    intro first rest hoccurrences
    rw [hmerged.hasEntry_of_occurrences hoccurrences,
      mem_appendNew_iff category.equals_refl category.equals_trans]
  constructor
  · intro hentry
    have hrecorded := hmerged.mem_recorded hentry
    unfold recorded at hrecorded
    cases hoccurrences : occurrences name profiles with
    | nil => exact absurd (hoccurrences ▸ hrecorded) List.not_mem_nil
    | cons first rest => exact ⟨first, rest, hoccurrences, (hmem _ _ hoccurrences).mp hentry⟩
  · rintro ⟨first, rest, hoccurrences, htaken⟩
    exact (hmem _ _ hoccurrences).mpr htaken

/-- Every entry to be written for the workload is in a profile that is not partial, among
those the handler read for its pods. -/
def PartialKeptOut (read : List (Pod × ApplicationProfile)) (plan : Plan) : Prop :=
  ∀ name (category : Category) (entry : category.Entry),
    HasEntry plan.containers name category entry →
    ∃ item profile, (item, profile) ∈ read ∧ ¬ IsPartial profile ∧
      HasEntry profile.spec.containers name category entry

/-- Every entry that the merge takes from a partial profile is also in one that is not. -/
def PartialAddsNothing (read : List (Pod × ApplicationProfile)) : Prop :=
  ∀ name (category : Category) (entry : category.Entry),
    Taken (read.map Prod.snd) name category entry →
    (∃ item profile, (item, profile) ∈ read ∧ IsPartial profile ∧
      HasEntry profile.spec.containers name category entry) →
    ∃ item profile, (item, profile) ∈ read ∧ ¬ IsPartial profile ∧
      HasEntry profile.spec.containers name category entry

/-- The handler reads a profile for every listed pod, and no partial one reaches the
profile of the workload exactly if the partial ones among them add nothing to the others. -/
theorem partialKeptOut_iff {found : PodWorkload}
    (hfound : found.Found storeNamespace cluster event) {start last : Handling}
    {labels : List HandlingLabel} {plan : Plan}
    (hstart : start.state = handleApplicationProfile event)
    (hrun : (handlingMachine storeNamespace cluster event).run start labels = some last)
    (hplan : last.state = .create plan ∨ last.state = .patch plan) :
    (podsRead storeNamespace cluster start labels).map Prod.fst = found.pods ∧
      (PartialKeptOut (podsRead storeNamespace cluster start labels) plan ↔
        PartialAddsNothing (podsRead storeNamespace cluster start labels)) := by
  obtain ⟨hpods, hmerged⟩ :
      (podsRead storeNamespace cluster start labels).map Prod.fst = found.pods ∧
        Merged ((podsRead storeNamespace cluster start labels).map Prod.snd)
          plan.containers := by
    have hcollected := collected_of_run hfound hstart hrun
    rcases hplan with h | h <;> rw [h] at hcollected <;> exact hcollected
  refine ⟨hpods, ?_, ?_⟩
  · intro hkept name category entry htaken _
    exact hkept name category entry (hmerged.hasEntry_iff_taken.mpr htaken)
  · intro hnothing name category entry hentry
    obtain ⟨profile, hprofile, hhas⟩ := mem_recorded.mp (hmerged.mem_recorded hentry)
    obtain ⟨⟨item, profile⟩, hread, rfl⟩ := List.mem_map.mp hprofile
    by_cases hpartial : IsPartial profile
    · exact hnothing name category entry (hmerged.hasEntry_iff_taken.mp hentry)
        ⟨item, profile, hread, hpartial, hhas⟩
    · exact ⟨item, profile, hread, hpartial, hhas⟩

/-! ## A pod that was attached to -/

/-- The second pod of the daemon set. -/
def attachedPod : Pod := { agentPod with name := "agent-x2" }

def attachedCluster : Cluster :=
  daemonSetCluster [agentPod, attachedPod] (agentSet ((∅ : Labels).insert "app" "agent"))

def attachedWorkload : PodWorkload :=
  agentWorkload ((∅ : Labels).insert "app" "agent") [agentPod, attachedPod]

/-- The profile of the second pod, which was recorded from the middle of its life. -/
def attachedProfile (sysCall : String) : ApplicationProfile where
  name := "pod-agent-x2"
  labels := (∅ : Labels).insert partialLabel "true"
  spec := ⟨[{ name := "app", sysCalls := [sysCall] }]⟩

def wholeProfile : ApplicationProfile where
  name := "pod-agent-x1"
  labels := ∅
  spec := ⟨[{ name := "app", sysCalls := ["read"] }]⟩

def attachedStore (sysCall : String) : ProfileStore :=
  (VersionedStore.empty.put ("default", "pod-agent-x1") wholeProfile).put
    ("default", "pod-agent-x2") (attachedProfile sysCall)

def attachedStart (sysCall : String) : Handling :=
  ⟨handleApplicationProfile agentEvent, attachedStore sysCall⟩

theorem attachedWorkload_found : attachedWorkload.Found "" attachedCluster agentEvent :=
  ⟨rfl, rfl, rfl, rfl, rfl⟩

/-- The containers merged from both profiles. -/
def attachedPlan (sysCalls : List String) : Plan :=
  attachedWorkload.plan agentEvent [{ name := "app", sysCalls := sysCalls }]

/-- The requests up to the creation of the workload's profile. -/
def agentRequests : List HandlingLabel := List.replicate 7 (.request {})

/-- What only the partial profile has is written for the daemon set. -/
theorem partial_sibling_propagated :
    ¬ ∀ (storeNamespace : String) (cluster : Cluster) (event : ProfileEvent)
      (found : PodWorkload) (start last : Handling) (labels : List HandlingLabel) (plan : Plan),
      found.Found storeNamespace cluster event →
      start.state = handleApplicationProfile event →
      (handlingMachine storeNamespace cluster event).run start labels = some last →
      last.state = .create plan ∨ last.state = .patch plan →
      PartialKeptOut (podsRead storeNamespace cluster start labels) plan := by
  intro hclaim
  have hkept := hclaim "" attachedCluster agentEvent attachedWorkload (attachedStart "mount") _
    agentRequests (attachedPlan ["read", "mount"]) attachedWorkload_found rfl rfl (Or.inl rfl)
  obtain ⟨item, profile, hread, hwhole, container, hcontainer, _, hmount⟩ :=
    hkept "app" .sysCalls "mount" ⟨_, List.mem_cons_self, rfl, by decide⟩
  have hpods : podsRead "" attachedCluster (attachedStart "mount") agentRequests =
      [(agentPod, wholeProfile), (attachedPod, attachedProfile "mount")] := rfl
  rw [hpods, List.mem_cons, List.mem_singleton] at hread
  rcases hread with heq | heq
  · obtain ⟨rfl, rfl⟩ := Prod.mk.inj heq
    rw [List.mem_singleton.mp hcontainer] at hmount
    exact absurd hmount (by decide)
  · obtain ⟨rfl, rfl⟩ := Prod.mk.inj heq
    exact hwhole (by decide)

/-- A partial profile that adds nothing does no harm. -/
theorem partial_sibling_covered :
    PartialKeptOut (podsRead "" attachedCluster (attachedStart "read") agentRequests)
      (attachedPlan ["read"]) := by
  have hpods : podsRead "" attachedCluster (attachedStart "read") agentRequests =
      [(agentPod, wholeProfile), (attachedPod, attachedProfile "read")] := rfl
  have hrun : (handlingMachine "" attachedCluster agentEvent).run (attachedStart "read")
      agentRequests = some ⟨.create (attachedPlan ["read"]), attachedStore "read"⟩ := rfl
  refine (partialKeptOut_iff attachedWorkload_found rfl hrun (Or.inl rfl)).2.mpr ?_
  rintro name category entry _ ⟨item, profile, hread, hpartial, hhas⟩
  rw [hpods, List.mem_cons, List.mem_singleton] at hread
  rcases hread with heq | heq
  · obtain ⟨rfl, rfl⟩ := Prod.mk.inj heq
    exact absurd hpartial (by decide)
  · obtain ⟨rfl, rfl⟩ := Prod.mk.inj heq
    exact ⟨agentPod, wholeProfile, hpods ▸ List.mem_cons_self, by decide, hhas⟩

end Kapprofiler.Controller
