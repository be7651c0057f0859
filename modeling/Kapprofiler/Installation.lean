import Kapprofiler.Collector.PodTables
import Kapprofiler.Collector.Provenance
import Kapprofiler.Controller.Agreement
import Kapprofiler.Controller.Entries
import Kapprofiler.Controller.OwnPods

/-! # All nodes of a cluster

On every node runs one process with a collector manager and a controller. They share nothing
but the stored profiles: what a manager writes, the API server sends to the watchers of all
nodes, and each controller handles what its watcher received, one profile after the other.
-/

namespace Kapprofiler

open Collector Controller Foundation

/-- The managers, the handlers of the controllers, the profiles that were sent to each watcher
and not yet handled, and the profiles in the store. -/
structure Installation (Node : Type) where
  managers : Node → System
  handlers : Node → HandlerState
  inboxes : Node → List ProfileEvent
  profiles : ProfileStore

namespace Installation

variable {Node : Type} [DecidableEq Node]

/-- A step of a node's manager, the sending of a stored profile to a node, the beginning of the
next handler of a node, or a request of its handler. -/
inductive Label (Node : Type)
  | collector (node : Node) (label : Collector.Label)
  | send (node : Node) (key : String × String)
  | handle (node : Node)
  | request (node : Node) (answers : Controller.Answers)

/-- The manager of the node, on the profiles that all nodes share. -/
def manager (installation : Installation Node) (node : Node) : System :=
  { installation.managers node with
    world := { (installation.managers node).world with profiles := installation.profiles } }

def step (config : CollectorManagerConfig) (installation : Installation Node) :
    Label Node → Option (Installation Node)
  | .collector node label =>
      (Collector.step config (installation.manager node) label).map fun next =>
        { installation with
          managers := Function.update installation.managers node next
          profiles := next.world.profiles }
  | .send node key =>
      (installation.profiles.get key).map fun object =>
        { installation with
          inboxes := Function.update installation.inboxes node
            (installation.inboxes node ++ [eventOf key object.value]) }
  | .handle node =>
      match installation.handlers node, installation.inboxes node with
      | .idle, event :: rest =>
          some { installation with
            handlers := Function.update installation.handlers node (handleApplicationProfile event)
            inboxes := Function.update installation.inboxes node rest }
      | _, _ => none
  | .request node answers =>
      (handlerStep config.storeNamespace answers installation.profiles
        (installation.handlers node)).map fun next =>
          { installation with
            handlers := Function.update installation.handlers node next.1
            profiles := next.2 }

/-- All nodes have just been started, on whatever profiles are stored. -/
structure Initial (installation : Installation Node) : Prop where
  managers : ∀ node, Collector.Initial (installation.managers node)
  sinks : ∀ node, ∃ filterEvents,
    (installation.managers node).world.eventSink = .new filterEvents
  handlers : ∀ node, installation.handlers node = .idle
  inboxes : ∀ node, installation.inboxes node = []

def machine (Node : Type) [DecidableEq Node] (config : CollectorManagerConfig) :
    Machine (Installation Node) (Label Node) where
  init := Initial
  step := step config

variable {config : CollectorManagerConfig} {installation next : Installation Node}

/-! ## What one step can do -/

/-- What a step changes, and where. -/
inductive Change (config : CollectorManagerConfig) (installation : Installation Node) :
    Label Node → Installation Node → Prop
  | collector {node : Node} {label : Collector.Label} {manager : System}
      (hstep : Collector.step config (installation.manager node) label = some manager) :
      Change config installation (.collector node label) { installation with
        managers := Function.update installation.managers node manager
        profiles := manager.world.profiles }
  | send {node : Node} {key : String × String} {object : Versioned ApplicationProfile}
      (hobject : installation.profiles.get key = some object) :
      Change config installation (.send node key) { installation with
        inboxes := Function.update installation.inboxes node
          (installation.inboxes node ++ [eventOf key object.value]) }
  | handle {node : Node} {event : ProfileEvent} {rest : List ProfileEvent}
      (hidle : installation.handlers node = .idle)
      (hinbox : installation.inboxes node = event :: rest) :
      Change config installation (.handle node) { installation with
        handlers := Function.update installation.handlers node (handleApplicationProfile event)
        inboxes := Function.update installation.inboxes node rest }
  | request {node : Node} {answers : Controller.Answers} {state : HandlerState}
      {profiles : ProfileStore}
      (hstep : handlerStep config.storeNamespace answers installation.profiles
        (installation.handlers node) = some (state, profiles)) :
      Change config installation (.request node answers) { installation with
        handlers := Function.update installation.handlers node state
        profiles := profiles }

theorem step_change {label : Label Node} (hstep : step config installation label = some next) :
    Change config installation label next := by
  cases label with
  | collector node label =>
      obtain ⟨manager, hmanager, rfl⟩ := Option.map_eq_some_iff.mp hstep
      exact .collector hmanager
  | send node key =>
      obtain ⟨object, hobject, rfl⟩ := Option.map_eq_some_iff.mp hstep
      exact .send hobject
  | handle node =>
      simp only [step] at hstep
      split at hstep
      next hidle hinbox =>
        cases hstep
        exact .handle hidle hinbox
      next => cases hstep
  | request node answers =>
      obtain ⟨⟨state, profiles⟩, hhandler, rfl⟩ := Option.map_eq_some_iff.mp hstep
      exact .request hhandler

/-! ## Where the entries come from -/

/-- The evidence that a step brings to the manager of a node. -/
def told (installation : Installation Node) : Label Node → List (Node × Evidence)
  | .collector node label => (Collector.told (installation.manager node) label).map (node, ·)
  | _ => []

/-- Under the key of a pod an entry must be explained for that very pod; under the key of a
workload it is enough that it is explained for some pod. -/
def Attributed (config : CollectorManagerConfig) (initially : ProfileStore)
    (source : ContainerId → Evidence → Prop) (key : String × String) (container : String)
    (entry : Entry) : Prop :=
  Explained config initially source key container entry ∨
    IsWorkloadKey key ∧ ∃ pod, Explained config initially source pod container entry

/-- Some pod explains the entry. -/
def Sourced (config : CollectorManagerConfig) (initially : ProfileStore)
    (source : ContainerId → Evidence → Prop) (container : String) (entry : Entry) : Prop :=
  ∃ pod, Explained config initially source pod container entry

section Sources

variable {initially : ProfileStore} {source source' : ContainerId → Evidence → Prop}
  {container : String} {entry : Entry}

theorem Attributed.mono {key : String × String}
    (hattributed : Attributed config initially source key container entry)
    (hsource : ∀ id evidence, source id evidence → source' id evidence) :
    Attributed config initially source' key container entry := by
  rcases hattributed with hown | ⟨hkey, pod, hpod⟩
  · exact Or.inl (hown.mono hsource)
  · exact Or.inr ⟨hkey, pod, hpod.mono hsource⟩

theorem Attributed.sourced {key : String × String}
    (hattributed : Attributed config initially source key container entry) :
    Sourced config initially source container entry := by
  rcases hattributed with hown | ⟨_, hpod⟩
  · exact ⟨key, hown⟩
  · exact hpod

end Sources

/-- The node knows the container and has seen the evidence. -/
def SeenOn (known : Node → ContainerId → Prop) (seen : Node → Evidence → Prop) (id : ContainerId)
    (evidence : Evidence) : Prop :=
  ∃ node, known node id ∧ seen node evidence

/-- Managers, controllers, messages and profiles hold only what nodes have seen. -/
structure Grounded (config : CollectorManagerConfig) (initially : ProfileStore)
    (known : Node → ContainerId → Prop) (seen : Node → Evidence → Prop)
    (installation : Installation Node) : Prop where
  managers : ∀ node, (installation.manager node).Grounded config (known node) (seen node)
    (Attributed config initially (SeenOn known seen))
  handlers : ∀ node, (installation.handlers node).Grounded
    (Sourced config initially (SeenOn known seen))
  inboxes : ∀ node, ∀ event ∈ installation.inboxes node,
    Known (Sourced config initially (SeenOn known seen)) event.profile.spec.containers
  profiles : installation.profiles.Everywhere
    (ProfileJustified (Attributed config initially (SeenOn known seen)))

section Grounded

variable {initially : ProfileStore} {known known' : Node → ContainerId → Prop}
  {seen seen' : Node → Evidence → Prop}

omit [DecidableEq Node] in
theorem justifies_attributed (node : Node) : Justifies config (known node) (seen node)
    (Attributed config initially (SeenOn known seen)) :=
  fun id evidence entry hknown hseen hconcerns hshows => Or.inl
    (justifies_explained (fun _ _ hid hevidence => ⟨node, hid, hevidence⟩) id evidence entry hknown
      hseen hconcerns hshows)

omit [DecidableEq Node] in
/-- A manager keeps what it holds when other nodes write. -/
theorem Grounded.manager {later : Installation Node} {node : Node}
    (hground : installation.Grounded config initially known seen)
    (hsame : later.managers node = installation.managers node)
    (hprofiles : later.profiles.Everywhere
      (ProfileJustified (Attributed config initially (SeenOn known seen)))) :
    (later.manager node).Grounded config (known node) (seen node)
      (Attributed config initially (SeenOn known seen)) := by
  obtain ⟨htracked, hsink, hcalls, _⟩ := hground.managers node
  refine ⟨?_, ?_, ?_, hprofiles⟩
  · rwa [Installation.manager, hsame]
  · rwa [Installation.manager, hsame]
  · rwa [Installation.manager, hsame]

omit [DecidableEq Node] in
theorem Grounded.sourced (hground : installation.Grounded config initially known seen) :
    installation.profiles.Everywhere fun _ profile =>
      Known (Sourced config initially (SeenOn known seen)) profile.spec.containers :=
  hground.profiles.mono fun _ _ hprofile container entry hentry =>
    (hprofile container entry hentry).sourced

theorem Grounded.step {label : Label Node}
    (hground : installation.Grounded config initially known seen)
    (hknown : ∀ node id attach, label = .collector node (.containerStarted id attach) →
      known node id)
    (htold : ∀ heard ∈ told installation label, seen heard.1 heard.2)
    (hstep : step config installation label = some next) :
    next.Grounded config initially known seen := by
  cases step_change hstep with
  | @collector node label manager hmanager =>
      have hheard : ∀ evidence ∈ Collector.told (installation.manager node) label,
          seen node evidence :=
        fun evidence hmem => htold (node, evidence) (List.mem_map_of_mem hmem)
      have hafter := (hground.managers node).step (justifies_attributed node)
        (fun id attach hlabel => hknown node id attach (by rw [hlabel])) hheard hmanager
      refine ⟨?_, hground.handlers, hground.inboxes, hafter.profiles⟩
      intro other
      by_cases hother : other = node
      · subst hother
        simp only [Installation.manager, Function.update_self]
        exact hafter
      · exact hground.manager (Function.update_of_ne hother ..) hafter.profiles
  | @send node key object hobject =>
      refine ⟨hground.managers, hground.handlers, ?_, hground.profiles⟩
      intro other event hevent
      by_cases hother : other = node
      · subst hother
        simp only [Function.update_self] at hevent
        rcases List.mem_append.mp hevent with hold | hnew
        · exact hground.inboxes other event hold
        · rw [List.mem_singleton.mp hnew]
          exact hground.sourced key object hobject
      · simp only [Function.update_of_ne hother] at hevent
        exact hground.inboxes other event hevent
  | @handle node event rest hidle hinbox =>
      have hinboxes := hground.inboxes node
      rw [hinbox] at hinboxes
      refine ⟨hground.managers, ?_, ?_, hground.profiles⟩
      · intro other
        by_cases hother : other = node
        · subst hother
          simp only [Function.update_self]
          exact grounded_handleApplicationProfile (hinboxes event List.mem_cons_self)
        · simp only [Function.update_of_ne hother]
          exact hground.handlers other
      · intro other
        by_cases hother : other = node
        · subst hother
          simp only [Function.update_self]
          exact fun later hlater => hinboxes later (List.mem_cons_of_mem _ hlater)
        · simp only [Function.update_of_ne hother]
          exact hground.inboxes other
  | @request node answers state profiles hhandler =>
      have hprofiles : profiles.Everywhere
          (ProfileJustified (Attributed config initially (SeenOn known seen))) := by
        refine (hground.handlers node).writes hground.profiles ?_ hhandler
        -- What a handler writes is of a workload, and consists of what it has read.
        intro key profile hkey hknown container entry hentry
        exact Or.inr ⟨hkey, hknown container entry hentry⟩
      refine ⟨?_, ?_, hground.inboxes, hprofiles⟩
      · exact fun other => hground.manager rfl hprofiles
      · intro other
        by_cases hother : other = node
        · subst hother
          simp only [Function.update_self]
          exact (hground.handlers other).step hground.sourced hhandler
        · simp only [Function.update_of_ne hother]
          exact hground.handlers other

omit [DecidableEq Node] in
theorem Grounded.mono (hground : installation.Grounded config initially known seen)
    (hknown : ∀ node id, known node id → known' node id)
    (hseen : ∀ node evidence, seen node evidence → seen' node evidence) :
    installation.Grounded config initially known' seen' := by
  have hsource : ∀ id evidence, SeenOn known seen id evidence → SeenOn known' seen' id evidence :=
    fun id evidence ⟨node, hid, hevidence⟩ =>
      ⟨node, hknown node id hid, hseen node evidence hevidence⟩
  have hsourced : ∀ container entry, Sourced config initially (SeenOn known seen) container entry →
      Sourced config initially (SeenOn known' seen') container entry :=
    fun _ _ ⟨pod, hpod⟩ => ⟨pod, hpod.mono hsource⟩
  refine ⟨?_, ?_, ?_, ?_⟩
  · exact fun node => (hground.managers node).mono (hknown node) (hseen node)
      fun _ _ _ hattributed => hattributed.mono hsource
  · exact fun node => (hground.handlers node).mono hsourced
  · exact fun node event hevent => (hground.inboxes node event hevent).mono hsourced
  · exact hground.profiles.mono fun _ _ hprofile =>
      hprofile.mono fun _ _ _ hattributed => hattributed.mono hsource

omit [DecidableEq Node] in
theorem Initial.grounded (hinit : Initial installation) :
    installation.Grounded config installation.profiles known seen := by
  have hprofiles : installation.profiles.Everywhere (ProfileJustified
      (Attributed config installation.profiles (SeenOn known seen))) :=
    fun key object hobject container entry hentry => Or.inl (Or.inl ⟨object, hobject, hentry⟩)
  refine ⟨?_, ?_, ?_, hprofiles⟩
  · intro node
    obtain ⟨filterEvents, hsink⟩ := hinit.sinks node
    obtain ⟨hcontainers, _, _, _, hcalls⟩ := hinit.managers node
    refine ⟨?_, ?_, ?_, hprofiles⟩
    · intro id hid
      rw [Installation.manager, hcontainers] at hid
      exact absurd hid Finmap.notMem_empty
    · have hnew : SinkSeen (seen node) (.new filterEvents) := SinkSeen.new filterEvents
      rw [← hsink] at hnew
      exact hnew
    · intro call hcall
      rw [Installation.manager, hcalls] at hcall
      cases hcall
  · intro node
    rw [hinit.handlers node]
    trivial
  · intro node event hevent
    rw [hinit.inboxes node] at hevent
    cases hevent

end Grounded

/-- The container was announced to the manager of the node. -/
def StartedOn (labels : List (Label Node)) (node : Node) (id : ContainerId) : Prop :=
  ∃ attach, Label.collector node (.containerStarted id attach) ∈ labels

/-- On some node the run started the container, and told its manager of the evidence. -/
def ToldOf (config : CollectorManagerConfig) (start : Installation Node)
    (labels : List (Label Node)) : ContainerId → Evidence → Prop :=
  SeenOn (StartedOn labels) fun node evidence =>
    (node, evidence) ∈ (machine Node config).trace told start labels

/-- In every run of any number of nodes: an entry that is stored for a container of a pod was
stored there at the start, or a node that started the container was told of it, by an event
whose names agree with the container's up to where their hyphens fall or by a syscall that a
pass of the container peeked. An entry that is stored for a container of a workload is so
explained for some pod's container of the same name. -/
theorem entries_attributed {start last : Installation Node} {labels : List (Label Node)}
    (hinit : Initial start) (hrun : (machine Node config).run start labels = some last)
    {key : String × String} {object : Versioned ApplicationProfile}
    (hobject : last.profiles.get key = some object) {container : String} {entry : Entry}
    (hentry : object.value.Has container entry) :
    Attributed config start.profiles (ToldOf config start labels) key container entry := by
  have hground : last.Grounded config start.profiles (StartedOn labels) fun node evidence =>
      (node, evidence) ∈ (machine Node config).trace told start labels := by
    refine (machine Node config).run_history_invariant (fun labels last =>
      last.Grounded config start.profiles (StartedOn labels) fun node evidence =>
        (node, evidence) ∈ (machine Node config).trace told start labels)
      hinit.grounded ?_ hrun
    intro labels state label next hbefore hground hstep
    have htrace : (machine Node config).trace told start (labels ++ [label]) =
        (machine Node config).trace told start labels ++ told state label :=
      (machine Node config).trace_concat hbefore
    simp only [htrace]
    refine (hground.mono ?_ ?_).step ?_ ?_ hstep
    · exact fun node id ⟨attach, hmem⟩ => ⟨attach, List.mem_append_left _ hmem⟩
    · exact fun node evidence hmem => List.mem_append_left _ hmem
    · rintro node id attach rfl
      exact ⟨attach, List.mem_append_right _ List.mem_cons_self⟩
    · exact fun heard hheard => List.mem_append_right _ hheard
  exact hground.profiles key object hobject container entry hentry

/-! ## What the controllers see of it -/

/-- The handlers of all nodes and the profiles. -/
def controllers (installation : Installation Node) : Controllers Node :=
  ⟨installation.handlers, installation.profiles⟩

theorem podProfileKey_eq (config : CollectorManagerConfig) (nameSpace podName : String) :
    ∃ rest, config.podProfileKey nameSpace podName =
      (config.profileNamespace nameSpace, "pod-" ++ rest) := by
  unfold CollectorManagerConfig.podProfileKey CollectorManagerConfig.getApplicationProfileName
  split
  · exact ⟨toLower podName ++ "-" ++ nameSpace, by
      rw [show toLower "pod" = "pod" from rfl]; simp [String.append_assoc]⟩
  · exact ⟨toLower podName, rfl⟩

/-- One write of a profile under a key, or its deletion, or nothing. -/
inductive WritesAt (key : String × String) (before after : ProfileStore) : Prop
  | nothing (hsame : after = before)
  | put (profile : ApplicationProfile) (hput : after = before.put key profile)
  | delete (hdelete : after = before.delete key)

section WritesAt

variable {key : String × String} {before after : ProfileStore}

theorem writesAt_write (object : Versioned ApplicationProfile) (profile : ApplicationProfile) :
    WritesAt key before (before.write key object profile) := by
  rcases VersionedStore.write_eq_or_put before key object profile with hsame | hput
  · exact .nothing hsame
  · exact .put profile hput

theorem writesAt_patch {change : ApplicationProfile → ApplicationProfile}
    (hpatch : before.patch key change = some after) : WritesAt key before after := by
  obtain ⟨object, _, rfl⟩ := VersionedStore.patch_eq_some.mp hpatch
  exact writesAt_write object _

end WritesAt

/-- A step of a manager leaves the profiles alone, or a call of it writes or deletes the profile
of the call's pod. -/
theorem collector_writes {system after : System} {label : Collector.Label}
    (hstep : Collector.step config system label = some after) :
    after.world.profiles = system.world.profiles ∨
      ∃ call answers current, label = .advance call answers ∧
        system.calls[call]? = some current ∧
        WritesAt (config.podProfileKey current.pod.2 current.pod.1) system.world.profiles
          after.world.profiles := by
  rcases Collector.step_cases hstep with
    ⟨call, answers, current, next, rfl, hcurrent, hcall, _⟩ | ⟨launched, hchange, _⟩
  · refine .inr ⟨call, answers, current, rfl, hcurrent, ?_⟩
    rcases Call.step_cases hcall with
      ⟨id, attach, state, started, rfl, hstarted, rfl, hafter⟩ | ⟨id, state, rfl, _, rfl, hafter⟩ |
      ⟨nameSpace, podName, rfl, rfl, hafter⟩ | ⟨nameSpace, podName, rfl, rfl, hafter⟩
    · refine .nothing ?_
      rw [hafter]
      rcases startStep_cases hstarted with ⟨_, _, _, _, _, hsame⟩ | ⟨_, _, _, hsame⟩
      · exact hsame
      · exact hsame
    · rw [hafter]
      rcases collectStep_profiles config id answers system.world state with
        hsame | ⟨_, _, _, hcreate⟩ | ⟨_, hpatch⟩ | ⟨_, _, _, _, hupdate⟩
      · exact .nothing hsame
      · exact .put _ (VersionedStore.create_eq_some.mp hcreate).2
      · exact writesAt_patch hpatch
      · obtain ⟨object, _, _, hwrite⟩ := VersionedStore.update_eq_some.mp hupdate
        rw [hwrite]
        exact writesAt_write object _
    · rw [hafter]
      unfold finalizeProfile
      split
      next hpatch => exact writesAt_patch (of_request hpatch)
      next => exact .nothing rfl
    · rw [hafter]
      unfold deleteProfile
      split
      · exact .nothing rfl
      · exact .delete rfl
  · exact .inl hchange.profiles

/-- What a step is for the controllers. A step of a manager is nothing, or a call of it writes or
deletes the profile of the call's pod; the sending of a profile is nothing; a handler begins
with the oldest profile in the inbox of its node; and a request is a request. -/
inductive Sees (config : CollectorManagerConfig) (installation : Installation Node) :
    Label Node → List (Controller.Label Node) → Prop
  | nothing {node : Node} {label : Collector.Label} :
      Sees config installation (.collector node label) []
  | podProfile {node : Node} {call : Nat} {answers : Collector.Answers} {current : Call}
      {rest : String} (profile : Option ApplicationProfile)
      (hcurrent : (installation.managers node).calls[call]? = some current)
      (hkey : config.podProfileKey current.pod.2 current.pod.1 =
        (config.profileNamespace current.pod.2, "pod-" ++ rest)) :
      Sees config installation (.collector node (.advance call answers))
        [.podProfile (config.profileNamespace current.pod.2) rest profile]
  | send {node : Node} {key : String × String} : Sees config installation (.send node key) []
  | handle {node : Node} {event : ProfileEvent} {rest : List ProfileEvent}
      (hinbox : installation.inboxes node = event :: rest) :
      Sees config installation (.handle node) [.event node event]
  | request {node : Node} {answers : Controller.Answers} :
      Sees config installation (.request node answers) [.advance node answers]

/-- One step of the installation is for the controllers what they see of it. -/
theorem step_controllers {label : Label Node} (hstep : step config installation label = some next) :
    ∃ own, Sees config installation label own ∧
      (Controller.machine config.storeNamespace).run installation.controllers own =
        some next.controllers := by
  cases step_change hstep with
  | @collector node label manager hmanager =>
      rcases collector_writes hmanager with hsame | ⟨call, answers, current, rfl, hcurrent, hwrites⟩
      · refine ⟨[], .nothing, ?_⟩
        rw [controllers, hsame]
        rfl
      -- To the controllers, the step of the call is a write of a pod's profile.
      obtain ⟨rest, hkey⟩ := podProfileKey_eq config current.pod.2 current.pod.1
      rw [hkey] at hwrites
      cases hwrites with
      | nothing hsame =>
          refine ⟨[], .nothing, ?_⟩
          rw [controllers, hsame]
          rfl
      | put profile hput =>
          refine ⟨_, .podProfile (some profile) hcurrent hkey, ?_⟩
          rw [controllers, hput]
          rfl
      | delete hdelete =>
          refine ⟨_, .podProfile none hcurrent hkey, ?_⟩
          rw [controllers, hdelete]
          rfl
  | send hobject => exact ⟨[], .send, rfl⟩
  | @handle node event rest hidle hinbox =>
      refine ⟨_, .handle hinbox, (Controller.machine config.storeNamespace).run_cons.mpr ?_⟩
      refine ⟨_, ?_, rfl⟩
      have hhandler : installation.controllers.handlers node = .idle := hidle
      simp only [Controller.machine, Controller.step, hhandler]
      rfl
  | @request node answers state profiles hhandler =>
      refine ⟨_, .request, (Controller.machine config.storeNamespace).run_cons.mpr ?_⟩
      have hrequest : handlerStep config.storeNamespace answers installation.controllers.profiles
          (installation.controllers.handlers node) = some (state, profiles) := hhandler
      refine ⟨_, ?_, rfl⟩
      simp only [Controller.machine, Controller.step, hrequest, Option.map_some]
      rfl

/-- Whatever the managers and watchers of the nodes do, the controllers see a run of their own
machine: step by step nothing, the beginning of a handler, a request of one, or one write or
deletion of a pod's profile by a manager. -/
theorem controllers_of_run {start last : Installation Node} {labels : List (Label Node)}
    (hrun : (machine Node config).run start labels = some last) :
    ∃ own, (machine Node config).Translates (Controller.machine config.storeNamespace) controllers
        (Sees config) start labels own ∧
      (Controller.machine config.storeNamespace).run start.controllers own =
        some last.controllers := by
  have hstep : ∀ state, ∀ label ∈ labels, ∀ next,
      (machine Node config).step state label = some next → ∃ own, Sees config state label own ∧
        (Controller.machine config.storeNamespace).run state.controllers own =
          some next.controllers :=
    fun _ _ _ _ hstep => step_controllers hstep
  obtain ⟨own, htranslates⟩ := (machine Node config).exists_translates hstep hrun
  exact ⟨own, htranslates, htranslates.run hrun⟩

/-! ## A shell on one node in the profile that another node writes -/

def twoNodes : Installation Bool where
  managers _ := freshSystem
  handlers _ := .idle
  inboxes _ := []
  profiles := .empty

theorem initial_twoNodes : Initial twoNodes where
  managers _ := initial_freshSystem
  sinks _ := ⟨true, rfl⟩
  handlers _ := rfl
  inboxes _ := rfl

def nginxPod : Pod where
  name := "nginx"
  nameSpace := "default"
  ownerReferences := [⟨"DaemonSet", "web", some true⟩]

def nginxCluster : Cluster := daemonSetCluster [nginxPod] ⟨"web", "default", [], ∅⟩

/-- The first node records the shell, the second one merges the pod's profile. -/
def mergedRun : List (Label Bool) :=
  shellStoredRun.map (.collector false) ++
    .send true (nginx.profileKey mainConfig) :: .handle true ::
      List.replicate 7 (.request true { cluster := nginxCluster })

theorem nginx_shell_attributed : ∃ last object,
    (machine Bool mainConfig).run twoNodes mergedRun = some last ∧
      last.profiles.get ("default", "daemonset-web") = some object ∧
      object.value.Has "app" (.exec (ExecCalls.ofEvent shellEvent)) ∧
      Attributed mainConfig twoNodes.profiles (ToldOf mainConfig twoNodes mergedRun)
        ("default", "daemonset-web") "app" (.exec (ExecCalls.ofEvent shellEvent)) := by
  have hends : ((machine Bool mainConfig).run twoNodes mergedRun).any (fun last =>
      (last.profiles.get ("default", "daemonset-web")).any fun object =>
        decide (∃ profile ∈ object.value.spec.containers, profile.name = "app" ∧
          ExecCalls.ofEvent shellEvent ∈ profile.execs)) = true := by
    decide +kernel
  obtain ⟨last, hrun, hlast⟩ := (Option.any_eq_true _ _).mp hends
  obtain ⟨object, hobject, hentry⟩ := (Option.any_eq_true _ _).mp hlast
  have hstored := of_decide_eq_true hentry
  have hshell : object.value.Has "app" (.exec (ExecCalls.ofEvent shellEvent)) := hstored
  exact ⟨last, object, hrun, hobject, hshell,
    entries_attributed initial_twoNodes hrun hobject hshell⟩

theorem mergedRun_controllers : ∃ last own,
    (machine Bool mainConfig).run twoNodes mergedRun = some last ∧
      (machine Bool mainConfig).Translates (Controller.machine mainConfig.storeNamespace)
        controllers (Sees mainConfig) twoNodes mergedRun own ∧
      (Controller.machine mainConfig.storeNamespace).run twoNodes.controllers own =
        some last.controllers := by
  have hends : ((machine Bool mainConfig).run twoNodes mergedRun).isSome = true := by
    decide +kernel
  obtain ⟨last, hrun⟩ := Option.isSome_iff_exists.mp hends
  obtain ⟨own, htranslates, hown⟩ := controllers_of_run hrun
  exact ⟨last, own, hrun, htranslates, hown⟩

end Installation

end Kapprofiler
