import Kapprofiler.Collector.Batching
import Kapprofiler.Collector.Capabilities

/-! # The events of a stopped container

`ContainerStopped` untracks its container and then launches one last pass. The
pass looks the container up before it drains anything, finds it untracked, and
returns: what the buckets held when the container stopped stays in them.
-/

namespace Kapprofiler.Collector

open Tracing Foundation

variable {config : CollectorManagerConfig} {id : ContainerId}

/-- What the buckets of the container hold. -/
def waiting (id : ContainerId) (sink : EventSink) : TotalEvents where
  execEvents := sink.execve.db.get (id.bucketOf "execve")
  openEvents := sink.opens.db.get (id.bucketOf "open")
  capabilitiesEvents := sink.capabilities.db.get (id.bucketOf "capabilities")
  dnsEvents := sink.dns.db.get (id.bucketOf "dns")
  networkEvents := sink.network.db.get (id.bucketOf "network")

/-- Every event has its place in the profile, unless it is an open that the
configuration leaves out. -/
structure EventsRepresented (config : CollectorManagerConfig) (mounts : List String)
    (events : TotalEvents) (profile : ContainerProfile) : Prop where
  execs : ∀ event ∈ events.execEvents, ExecCalls.ofEvent event ∈ profile.execs
  opens : ∀ event ∈ events.openEvents,
    shouldIncludeOpenEvent config mounts profile.opens event = false
  capabilities : ∀ event ∈ events.capabilitiesEvents,
    HasCapability profile event.syscall event.capabilityName
  dns : ∀ event ∈ events.dnsEvents, ∃ call ∈ profile.dns,
    call.dnsName = event.dnsName ∧ event.addresses ⊆ call.addresses
  outgoing : connections "OUTGOING" events.networkEvents ⊆ profile.networkActivity.outgoing
  incoming : connections "HOST" events.networkEvents ⊆ profile.networkActivity.incoming

/-- None of the events is waiting in its bucket. -/
structure NoneLeft (events left : TotalEvents) : Prop where
  execs : events.execEvents.Disjoint left.execEvents
  opens : events.openEvents.Disjoint left.openEvents
  capabilities : events.capabilitiesEvents.Disjoint left.capabilitiesEvents
  dns : events.dnsEvents.Disjoint left.dnsEvents
  network : events.networkEvents.Disjoint left.networkEvents

/-- All of the events are waiting in their buckets, ahead of any later ones. -/
structure AllLeft (events left : TotalEvents) : Prop where
  execs : events.execEvents <+: left.execEvents
  opens : events.openEvents <+: left.openEvents
  capabilities : events.capabilitiesEvents <+: left.capabilitiesEvents
  dns : events.dnsEvents <+: left.dnsEvents
  network : events.networkEvents <+: left.networkEvents

/-- The step finds the pod's profile not final, its requests succeed, and it brings
no further events. -/
def Succeeds (config : CollectorManagerConfig) (id : ContainerId) (system : System)
    (label : Label) : Prop :=
  (∀ stored ∈ system.world.profiles.get (id.profileKey config), stored.value.isFinal = false) ∧
    match label with
    | .advance _ answers => answers.Succeed
    | .sink _ => False
    | _ => True

/-- What stopping the container should achieve: once the pass that the stop
launches has returned, the events that the buckets held are in the profile. -/
def StopCollects (config : CollectorManagerConfig) (id : ContainerId) (system : System) : Prop :=
  ∀ stopped labels last exit, step config system (.containerStopped id) = some stopped →
    (machine config).Along (Succeeds config id) stopped labels →
    (machine config).run stopped labels = some last →
    last.calls[system.calls.length]? = some (.collectContainerEvents id (.returned exit)) →
    EventsRepresented config (system.world.mounts id) (waiting id system.world.eventSink)
        (last.world.stored config id) ∧
      NoneLeft (waiting id system.world.eventSink) (waiting id last.world.eventSink)

/-- The bucket of the container that a source is read from. -/
def EventSource.kind : EventSource → Option String
  | .execve => some "execve"
  | .opens => some "open"
  | .syscalls => none
  | .capabilities => some "capabilities"
  | .dns => some "dns"
  | .network => some "network"

/-- The next step of the call tracks the container. -/
def Call.tracks (id : ContainerId) : Call → Prop
  | .containerStarted other _ .track => other = id
  | _ => False

/-- The next step of the call drains a bucket of the container. -/
def Call.drains (id : ContainerId) : Call → Prop
  | .collectContainerEvents other (.load _ (source :: _) _) =>
      ∃ kind ∈ source.kind, other.bucketOf kind = id.bucketOf kind
  | _ => False

/-- The condition on a step: no other call tracks the container again or drains its
buckets. -/
def Undisturbed (id : ContainerId) (launched : Nat) (system : System) : Label → Prop
  | .advance call _ => call = launched ∨ ∀ current ∈ system.calls[call]?,
      ¬ current.tracks id ∧ ¬ current.drains id
  | _ => True

/-! ## The buckets -/

theorem AllLeft.refl (events : TotalEvents) : AllLeft events events where
  execs := List.prefix_refl _
  opens := List.prefix_refl _
  capabilities := List.prefix_refl _
  dns := List.prefix_refl _
  network := List.prefix_refl _

theorem AllLeft.trans {first second third : TotalEvents} (hfirst : AllLeft first second)
    (hsecond : AllLeft second third) : AllLeft first third where
  execs := hfirst.execs.trans hsecond.execs
  opens := hfirst.opens.trans hsecond.opens
  capabilities := hfirst.capabilities.trans hsecond.capabilities
  dns := hfirst.dns.trans hsecond.dns
  network := hfirst.network.trans hsecond.network

/-- Events that are all left are not all gone. -/
theorem AllLeft.not_noneLeft {events left : TotalEvents} (hleft : AllLeft events left)
    (hsyscalls : events.syscallEvents = []) (hevents : shouldProcessEvents events = true) :
    ¬ NoneLeft events left := by
  intro hnone
  have hempty : ∀ {Event : Type} {first second : List Event}, first <+: second →
      first.Disjoint second → first = [] := by
    intro Event first second hinitial hdisjoint
    cases first with
    | nil => rfl
    | cons event rest =>
        exact absurd (hinitial.subset List.mem_cons_self) (hdisjoint List.mem_cons_self)
  simp [shouldProcessEvents, hsyscalls, hempty hleft.execs hnone.execs,
    hempty hleft.opens hnone.opens, hempty hleft.capabilities hnone.capabilities,
    hempty hleft.dns hnone.dns, hempty hleft.network hnone.network] at hevents

/-- The tracers and the workers only append to buckets. -/
theorem allLeft_sinkStep {sink next : EventSink} {op : EventSink.Op}
    (hstep : sink.step op = some next) : AllLeft (waiting id sink) (waiting id next) where
  execs := (EventSink.prefix_step hstep _).1
  opens := (EventSink.prefix_step hstep _).2.1
  capabilities := (EventSink.prefix_step hstep _).2.2.1
  dns := (EventSink.prefix_step hstep _).2.2.2.1
  network := (EventSink.prefix_step hstep _).2.2.2.2

theorem waiting_addFilter (sink : EventSink) (filter : EventSinkFilter) :
    waiting id (sink.addFilter filter) = waiting id sink := by
  obtain ⟨eventFilters, heq⟩ := sink.addFilter_eq filter
  rw [heq]
  rfl

/-- Loading from another bucket leaves the buckets of the container alone. -/
theorem waiting_loadEvents {other : ContainerId} {peek : Except String (List String)}
    {totalEvents : TotalEvents} {sink : EventSink} {source : EventSource}
    (hother : ∀ kind ∈ source.kind, other.bucketOf kind ≠ id.bucketOf kind) :
    waiting id (loadEvents other peek totalEvents sink source).2 = waiting id sink := by
  have hkept {Event : Type} (stream : EventStream Event) {kind : String}
      (hkind : source.kind = some kind) :
      (stream.getEvents (other.bucketOf kind)).2.db.get (id.bucketOf kind) =
        stream.db.get (id.bucketOf kind) :=
    InMemoryMapDB.get_getNClean_of_ne stream.db (hother kind hkind).symm
  cases source with
  | execve => simp only [waiting, loadEvents, hkept sink.execve rfl]
  | opens => simp only [waiting, loadEvents, hkept sink.opens rfl]
  | syscalls => rfl
  | capabilities => simp only [waiting, loadEvents, hkept sink.capabilities rfl]
  | dns => simp only [waiting, loadEvents, hkept sink.dns rfl]
  | network => simp only [waiting, loadEvents, hkept sink.network rfl]

/-! ## After the stop -/

/-- The container is untracked, the pass that was launched has found it so or will,
and the events are all left. -/
structure Abandoned (id : ContainerId) (launched : Nat) (events : TotalEvents)
    (system : System) : Prop where
  untracked : id ∉ system.world.containers
  pass : system.calls[launched]? = some (.collectContainerEvents id .lookup) ∨
    system.calls[launched]? = some (.collectContainerEvents id (.returned .notTracked))
  left : AllLeft events (waiting id system.world.eventSink)

theorem stopped_abandoned {system stopped : System}
    (hstep : step config system (.containerStopped id) = some stopped) :
    Abandoned id system.calls.length (waiting id system.world.eventSink) stopped := by
  cases hstep
  obtain ⟨hcontainers, _, _, hsink⟩ := containerStopped_untracks system.world id
  refine ⟨?_, Or.inl List.getElem?_concat_length, ?_⟩
  · change id ∉ (containerStopped system.world id).containers
    rw [hcontainers]
    exact Finmap.notMem_erase_self
  · change AllLeft _ (waiting id (containerStopped system.world id).eventSink)
    rcases hsink with heq | heq <;> rw [heq]
    · apply AllLeft.refl
    · apply AllLeft.refl

/-- A step of a call that neither tracks the container nor drains its buckets. -/
theorem Call.step_undisturbed {call next : Call} {answers : Answers} {world after : World}
    (hstep : call.step config answers world = some (next, after)) (htracks : ¬ call.tracks id)
    (hdrains : ¬ call.drains id) (huntracked : id ∉ world.containers) :
    id ∉ after.containers ∧ waiting id after.eventSink = waiting id world.eventSink := by
  rcases Call.step_cases hstep with
    ⟨other, attach, state, started, rfl, hstarted, rfl, rfl⟩ | ⟨other, state, rfl, _, rfl, rfl⟩ |
    ⟨nameSpace, podName, rfl, rfl, rfl⟩ | ⟨nameSpace, podName, rfl, rfl, rfl⟩
  · rcases startStep_cases hstarted with
      ⟨rfl, _, hcontainers, hsink, _⟩ | ⟨hcontainers, hsink, _⟩
    · rw [hcontainers, hsink]
      refine ⟨?_, waiting_addFilter _ _⟩
      rw [Finmap.mem_insert, not_or]
      exact ⟨fun heq => htracks heq.symm, huntracked⟩
    · rw [hcontainers, hsink]
      exact ⟨huntracked, rfl⟩
  · refine ⟨?_, ?_⟩
    · rcases (collectStep_tracks config other answers world state).1 with heq | ⟨_, heq⟩ <;>
        rw [heq]
      · exact huntracked
      · exact fun hmem => huntracked (Finmap.mem_erase.mp hmem).2
    · rcases collectStep_eventSink config other answers world state with
        heq | heq | ⟨found, source, rest, totalEvents, rfl, heq⟩ <;> rw [heq]
      · rfl
      · exact waiting_loadEvents fun kind hkind heq => hdrains ⟨kind, hkind, heq⟩
  · obtain ⟨profiles, heq⟩ := finalizeProfile_eq config answers world nameSpace podName
    rw [heq]
    exact ⟨huntracked, rfl⟩
  · obtain ⟨profiles, heq⟩ := deleteProfile_eq config answers world nameSpace podName
    rw [heq]
    exact ⟨huntracked, rfl⟩

theorem Abandoned.advance {launched call : Nat} {answers : Answers} {events : TotalEvents}
    {system next : System} (habandoned : Abandoned id launched events system)
    (hundisturbed : Undisturbed id launched system (.advance call answers))
    (hstep : step config system (.advance call answers) = some next) :
    Abandoned id launched events next := by
  obtain ⟨current, after, hcurrent, hcall, hcalls⟩ := step_advance hstep
  have hbound : call < system.calls.length := (List.getElem?_eq_some_iff.mp hcurrent).1
  by_cases hlaunched : call = launched
  · -- The pass that the stop launched finds its container untracked.
    subst hlaunched
    rcases habandoned.pass with hpass | hpass
    · have heq : current = .collectContainerEvents id .lookup :=
        Option.some.inj (hcurrent.symm.trans hpass)
      subst heq
      have hlookup : system.world.containers.lookup id = none :=
        Finmap.lookup_eq_none.mpr habandoned.untracked
      simp only [Call.step, collectStep, hlookup, Option.some.injEq, Prod.mk.injEq] at hcall
      obtain ⟨rfl, hworld⟩ := hcall
      refine ⟨hworld ▸ habandoned.untracked, Or.inr ?_, hworld ▸ habandoned.left⟩
      rw [hcalls]
      exact List.getElem?_set_self hbound
    · have heq : current = .collectContainerEvents id (.returned .notTracked) :=
        Option.some.inj (hcurrent.symm.trans hpass)
      subst heq
      cases hcall
  · obtain ⟨htracks, hdrains⟩ := (hundisturbed.resolve_left hlaunched) current hcurrent
    obtain ⟨huntracked, hwaiting⟩ :=
      Call.step_undisturbed hcall htracks hdrains habandoned.untracked
    refine ⟨huntracked, ?_, hwaiting ▸ habandoned.left⟩
    rw [hcalls, List.getElem?_set_ne hlaunched]
    exact habandoned.pass

theorem LabelChange.keeps_waiting {world next : World} {label : Label} {launched : List Call}
    (hchange : LabelChange config world label next launched) (id : ContainerId) :
    (id ∉ world.containers → id ∉ next.containers) ∧
      AllLeft (waiting id world.eventSink) (waiting id next.eventSink) := by
  cases hchange with
  | stopped other =>
      -- The stopped container may be the same one once more.
      obtain ⟨hcontainers, _, _, hsink⟩ := containerStopped_untracks world other
      refine ⟨?_, ?_⟩
      · rw [hcontainers]
        exact fun huntracked hmem => huntracked (Finmap.mem_erase.mp hmem).2
      · rcases hsink with heq | heq <;> rw [heq] <;> apply AllLeft.refl
  | sink hsink => exact ⟨fun huntracked => huntracked, allLeft_sinkStep hsink⟩
  | _ => exact ⟨fun huntracked => huntracked, AllLeft.refl _⟩

theorem step_abandoned {launched : Nat} {events : TotalEvents} {system next : System}
    {label : Label} (habandoned : Abandoned id launched events system)
    (hundisturbed : Undisturbed id launched system label)
    (hstep : step config system label = some next) : Abandoned id launched events next := by
  rcases step_cases hstep with ⟨call, answers, _, _, rfl, _, _, _⟩ | ⟨calls, hchange, hcalls⟩
  · exact habandoned.advance hundisturbed hstep
  · obtain ⟨huntracked, hleft⟩ := hchange.keeps_waiting id
    refine ⟨huntracked habandoned.untracked, ?_, habandoned.left.trans hleft⟩
    have hbound : launched < system.calls.length := by
      rcases habandoned.pass with hpass | hpass <;>
        exact (List.getElem?_eq_some_iff.mp hpass).1
    rw [hcalls, List.getElem?_append_left hbound]
    exact habandoned.pass

/-- Whatever runs besides, the events stay in their buckets. -/
theorem run_abandoned {system stopped last : System} {labels : List Label}
    (hstop : step config system (.containerStopped id) = some stopped)
    (hundisturbed : (machine config).Along (Undisturbed id system.calls.length) stopped labels)
    (hrun : (machine config).run stopped labels = some last) :
    Abandoned id system.calls.length (waiting id system.world.eventSink) last :=
  Machine.run_invariant_along (machine config)
    (fun _ _ _ habandoned hmeets hstep => step_abandoned habandoned hmeets hstep)
    (stopped_abandoned hstop) hundisturbed hrun

/-- The launched pass can run right after the stop, and then returns at once. -/
theorem stopped_returns {system stopped : System}
    (hstop : step config system (.containerStopped id) = some stopped) :
    ∃ last, (machine config).run stopped [.advance system.calls.length {}] = some last ∧
      last.calls[system.calls.length]? =
        some (.collectContainerEvents id (.returned .notTracked)) ∧
      Abandoned id system.calls.length (waiting id system.world.eventSink) last := by
  have habandoned := stopped_abandoned hstop
  have hlookup : stopped.world.containers.lookup id = none :=
    Finmap.lookup_eq_none.mpr habandoned.untracked
  have hpass : stopped.calls[system.calls.length]? =
      some (.collectContainerEvents id .lookup) := by
    cases hstop
    exact List.getElem?_concat_length
  have hbound := (List.getElem?_eq_some_iff.mp hpass).1
  have hrun : (machine config).run stopped [.advance system.calls.length {}] =
      some ⟨stopped.world, stopped.calls.set system.calls.length
        (.collectContainerEvents id (.returned .notTracked))⟩ := by
    simp [Machine.run, machine, step, hpass, Call.step, collectStep, hlookup]
  have hundisturbed : (machine config).Along (Undisturbed id system.calls.length) stopped
      [.advance system.calls.length {}] := ⟨Or.inl rfl, fun _ _ => trivial⟩
  exact ⟨_, hrun, List.getElem?_set_self hbound, run_abandoned hstop hundisturbed hrun⟩

theorem not_stopCollects {system : System}
    (hfinal : ∀ stored ∈ system.world.profiles.get (id.profileKey config),
      stored.value.isFinal = false)
    (hevents : shouldProcessEvents (waiting id system.world.eventSink) = true) :
    ¬ StopCollects config id system := by
  intro hcollects
  obtain ⟨stopped, hstop⟩ : ∃ stopped,
      step config system (.containerStopped id) = some stopped := ⟨_, rfl⟩
  have hprofiles : stopped.world.profiles = system.world.profiles := by
    cases hstop
    exact (containerStopped_untracks system.world id).2.2.1
  obtain ⟨last, hrun, hreturned, habandoned⟩ := stopped_returns hstop
  have hsucceeds : (machine config).Along (Succeeds config id) stopped
      [.advance system.calls.length {}] :=
    ⟨⟨hprofiles ▸ hfinal, rfl, rfl, rfl, rfl, rfl, rfl, rfl⟩, fun _ _ => trivial⟩
  have hnone := (hcollects stopped _ last _ hstop hsucceeds hrun hreturned).2
  exact habandoned.left.not_noneLeft rfl hevents hnone

/-- However the events came into the buckets, a stop never collects them: the run
in which its pass goes next leaves all of them where they are, and so does every
run in which no other call tracks the container again or drains its buckets. -/
theorem stopped_container_events_left {system : System}
    (hfinal : ∀ stored ∈ system.world.profiles.get (id.profileKey config),
      stored.value.isFinal = false)
    (hevents : shouldProcessEvents (waiting id system.world.eventSink) = true) :
    ¬ StopCollects config id system ∧
      ∀ stopped labels last, step config system (.containerStopped id) = some stopped →
        (machine config).Along (Undisturbed id system.calls.length) stopped labels →
        (machine config).run stopped labels = some last →
        AllLeft (waiting id system.world.eventSink) (waiting id last.world.eventSink) := by
  refine ⟨not_stopCollects hfinal hevents, ?_⟩
  intro stopped labels last hstop hundisturbed hrun
  exact (run_abandoned hstop hundisturbed hrun).left

/-! ## A container that runs a shell and stops -/

/-- Where `recordingRun` leads. -/
def recordingSystem : System :=
  ((machine mainConfig).run freshSystem recordingRun).getD freshSystem

theorem nginx_events_left :
    shouldProcessEvents (waiting nginx recordingSystem.world.eventSink) = true ∧
      ¬ StopCollects mainConfig nginx recordingSystem ∧
      ∀ stopped labels last,
        step mainConfig recordingSystem (.containerStopped nginx) = some stopped →
        (machine mainConfig).Along (Undisturbed nginx recordingSystem.calls.length)
          stopped labels →
        (machine mainConfig).run stopped labels = some last →
        AllLeft (waiting nginx recordingSystem.world.eventSink)
          (waiting nginx last.world.eventSink) :=
  ⟨by decide, stopped_container_events_left (by decide) (by decide)⟩

/-- The container is tracked and the shell is in its bucket when it stops. -/
theorem nginx_stop_collects_nothing :
    ∃ system, (machine mainConfig).Reachable system ∧ nginx ∈ system.world.containers ∧
      shellEvent ∈ (waiting nginx system.world.eventSink).execEvents ∧
      ¬ StopCollects mainConfig nginx system := by
  refine ⟨recordingSystem, ⟨freshSystem, recordingRun, initial_freshSystem, rfl⟩, ?_⟩
  exact ⟨by decide, by decide, not_stopCollects (by decide) (by decide)⟩

end Kapprofiler.Collector
