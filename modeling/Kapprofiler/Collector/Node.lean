import Kapprofiler.Collector.Provenance
import Kapprofiler.Tracing.Callbacks

/-! # The manager on its node

The gadgets report to the manager's sink through the callbacks of the tracer, and containers
are announced to the manager as its activity listener. Everything in a stored profile is about
a container that was announced, and was reported by a gadget after the announcement.
-/

namespace Kapprofiler.Collector

open Tracing Foundation

/-! ## The node -/

/-- The container of an announcement, as the manager names it. -/
def containerIdOf (event : ContainerActivityEvent) : ContainerId where
  nameSpace := event.container.nameSpace
  podName := event.container.podName
  container := event.container.containerName
  containerID := event.container.containerID
  nsMntId := event.container.nsMntId
  pid := event.container.pid

/-- The call that the manager makes of an announcement. -/
def onContainerActivityEvent (event : ContainerActivityEvent) : Label :=
  match event.activity with
  | .start => .containerStarted (containerIdOf event) false
  | .stop => .containerStopped (containerIdOf event)
  | .attached => .containerStarted (containerIdOf event) true

/-- Steps of the manager that nobody else causes: its calls go on, its timers and workers run,
pods change, and a finalization is asked for. -/
def Label.own : Label → Bool
  | .containerStarted _ _ | .containerStopped _ => false
  | .sink op =>
      match op with
      | .execveEventWorker | .openEventWorker | .capabilitiesEventWorker | .dnsEventWorker
      | .networkEventWorker => true
      | _ => false
  | _ => true

inductive NodeLabel
  | gadget (event : GadgetEvent)
  | activity (event : ContainerActivityEvent)
  | own (label : Label)

/-- The tracer of `main` has the manager's sink as its only one. -/
def nodeStep (config : CollectorManagerConfig) (enrich : Enricher) (system : System) :
    NodeLabel → Option System
  | .gadget event => (event.callback enrich).bind fun callback =>
      match callback with
      | .send op => step config system (.sink op)
      | .sendRandomXEvent | .reportError _ _ | .nothing => some system
  | .activity event => step config system (onContainerActivityEvent event)
  | .own label => if label.own then step config system label else none

def nodeMachine (config : CollectorManagerConfig) (enrich : Enricher) :
    Machine System NodeLabel where
  init := Initial
  step := nodeStep config enrich

/-! ## What is announced and reported -/

/-- The container was announced as one that started or was found running. -/
def Announced (labels : List NodeLabel) (id : ContainerId) : Prop :=
  ∃ event, NodeLabel.activity event ∈ labels ∧ event.activity ≠ .stop ∧ containerIdOf event = id

/-- The gadget's event is one that counts: it is attributed to a container and shows an entry.
A program that could not be executed or a file that could not be opened shows nothing. -/
inductive GadgetShows (config : CollectorManagerConfig) (enrich : Enricher) :
    GadgetEvent → GeneralEvent → Entry → Prop
  | exec {event : TracerExecEvent} {pathName : String} {args : List String}
      (htype : event.type = .normal) (hretval : -1 < event.retval)
      (hargs : event.args = pathName :: args) :
      GadgetShows config enrich (.exec event) event.common
        (.exec { path := pathName, upperLayer := event.upperLayer, args := args, envs := [] })
  | opened {event : TracerOpenEvent} (htype : event.type = .normal) (hret : -1 < event.ret)
      (hprefixes : config.ignorePrefixes.any (hasPrefix event.fullPath) = false) :
      GadgetShows config enrich (.opened event) event.common
        (.opened { path := event.fullPath, flags := event.flags })
  | capability {event : TracerCapabilitiesEvent} (htype : event.type = .normal) :
      GadgetShows config enrich (.capabilities event) event.common
        (.capability event.syscall event.capName)
  | dns {event : TracerDnsEvent} (htype : event.type = .normal) :
      GadgetShows config enrich (.dns event) (enrich.enriched event.toGadgetData)
        (.dns { dnsName := event.dnsName, addresses := event.addresses })
  | incoming {event : TracerNetworkEvent} (htype : event.type = .normal)
      (hpacket : event.pktType = "HOST") :
      GadgetShows config enrich (.network event) (enrich.enriched event.toGadgetData)
        (.incoming { protocol := event.proto, port := event.port
                     dstEndpoint := event.dstEndpoint })
  | outgoing {event : TracerNetworkEvent} (htype : event.type = .normal)
      (hpacket : event.pktType = "OUTGOING") :
      GadgetShows config enrich (.network event) (enrich.enriched event.toGadgetData)
        (.outgoing { protocol := event.proto, port := event.port
                     dstEndpoint := event.dstEndpoint })

/-- A gadget reported the entry, for a container of these names that had been announced under
its container's ID before. -/
def ReportedByGadget (config : CollectorManagerConfig) (enrich : Enricher)
    (labels : List NodeLabel) (names : ContainerNames) (entry : Entry) : Prop :=
  ∃ before event after general, labels = before ++ .gadget event :: after ∧
    GadgetShows config enrich event general entry ∧ general.names.segments = names.segments ∧
    ∃ id, Announced before id ∧ id.containerID = general.containerID

/-- A pass of the container peeks the syscalls of its mount namespace, and is answered with this
one among them. -/
def Peeks (id : ContainerId) (name : String) (system : System) : NodeLabel → Prop
  | .own (.advance call answers) => ∃ found rest batch syscalls, system.calls[call]? =
      some (.collectContainerEvents id (.load found (.syscalls :: rest) batch)) ∧
        answers.peek = .ok syscalls ∧ name ∈ syscalls
  | _ => False

/-- The syscall was peeked for the container. -/
def Peeked (config : CollectorManagerConfig) (enrich : Enricher) (start : System)
    (labels : List NodeLabel) (id : ContainerId) (name : String) : Prop :=
  (nodeMachine config enrich).Happens (Peeks id name) start labels

/-- The entry was stored at the start, or it is about an announced container and was reported
for it by a gadget or by the seccomp tracer. -/
def Reported (config : CollectorManagerConfig) (enrich : Enricher) (start : System)
    (labels : List NodeLabel) (key : String × String) (container : String) (entry : Entry) :
    Prop :=
  (∃ object, start.world.profiles.get key = some object ∧ object.value.Has container entry) ∨
    ∃ id, Announced labels id ∧ id.profileKey config = key ∧ id.container = container ∧
      (ReportedByGadget config enrich labels id.names entry ∨
        ∃ name, entry = .syscall name ∧ Peeked config enrich start labels id name)

variable {config : CollectorManagerConfig} {enrich : Enricher} {start : System}
  {labels : List NodeLabel} {system next : System}

theorem Announced.concat {id : ContainerId} (hannounced : Announced labels id)
    (label : NodeLabel) : Announced (labels ++ [label]) id := by
  obtain ⟨event, hevent, hactivity⟩ := hannounced
  exact ⟨event, List.mem_append_left _ hevent, hactivity⟩

theorem ReportedByGadget.concat {names : ContainerNames} {entry : Entry}
    (hreported : ReportedByGadget config enrich labels names entry) (label : NodeLabel) :
    ReportedByGadget config enrich (labels ++ [label]) names entry := by
  obtain ⟨before, event, after, general, rfl, hreported⟩ := hreported
  refine ⟨before, event, after ++ [label], general, ?_, hreported⟩
  rw [List.append_assoc, List.cons_append]

/-- Whatever the evidence shows of a container was reported for it. -/
def Heard (config : CollectorManagerConfig) (enrich : Enricher) (start : System)
    (labels : List NodeLabel) (evidence : Evidence) : Prop :=
  ∀ (id : ContainerId) entry, evidence.Concerns id → evidence.Shows config entry →
    ReportedByGadget config enrich labels id.names entry ∨
      ∃ name, entry = .syscall name ∧ Peeked config enrich start labels id name

theorem Heard.concat {evidence : Evidence} (hheard : Heard config enrich start labels evidence)
    (label : NodeLabel) : Heard config enrich start (labels ++ [label]) evidence := by
  intro id entry hconcerns hshows
  rcases hheard id entry hconcerns hshows with hreported | ⟨name, rfl, hpeeked⟩
  · exact Or.inl (hreported.concat label)
  · exact Or.inr ⟨name, rfl, hpeeked.concat⟩

theorem Reported.concat {key : String × String} {container : String} {entry : Entry}
    (hreported : Reported config enrich start labels key container entry)
    (label : NodeLabel) :
    Reported config enrich start (labels ++ [label]) key container entry := by
  rcases hreported with hold | ⟨id, hannounced, hkey, hname, hreported⟩
  · exact Or.inl hold
  · refine Or.inr ⟨id, hannounced.concat label, hkey, hname, ?_⟩
    rcases hreported with hgadget | ⟨name, rfl, hpeeked⟩
    · exact Or.inl (hgadget.concat label)
    · exact Or.inr ⟨name, rfl, hpeeked.concat⟩

theorem justifies_reported : Justifies config (Announced labels)
    (Heard config enrich start labels) (Reported config enrich start labels) :=
  fun id _ entry hannounced hheard hconcerns hshows =>
    Or.inr ⟨id, hannounced, rfl, rfl, hheard id entry hconcerns hshows⟩

/-! ## The filters of the sink -/

/-- The sink filters, and each of its filters is of a known container. -/
structure Filtered (known : ContainerId → Prop) (sink : EventSink) : Prop where
  filtering : sink.filterEvents = true
  filters : ∀ filter ∈ sink.eventFilters, ∃ id, known id ∧ id.containerID = filter.containerID

namespace Filtered

variable {known : ContainerId → Prop} {sink : EventSink}

theorem mono {known' : ContainerId → Prop} (hfiltered : Filtered known sink)
    (hknown : ∀ id, known id → known' id) : Filtered known' sink where
  filtering := hfiltered.filtering
  filters filter hfilter := by
    obtain ⟨id, hid, hcontainer⟩ := hfiltered.filters filter hfilter
    exact ⟨id, hknown id hid, hcontainer⟩

/-- What the filters let pass is of a known container. -/
theorem known_of_accepts (hfiltered : Filtered known sink) {eventType : EventType}
    {containerID : String} (haccepts : sink.accepts eventType containerID = true) :
    ∃ id, known id ∧ id.containerID = containerID := by
  rw [EventSink.accepts, hfiltered.filtering, Bool.not_true, Bool.false_or] at haccepts
  obtain ⟨filter, hfilter, hmatches⟩ := List.any_eq_true.mp haccepts
  obtain ⟨id, hid, hcontainer⟩ := hfiltered.filters filter hfilter
  exact ⟨id, hid, hcontainer.trans (of_decide_eq_true hmatches).1⟩

theorem addFilter (hfiltered : Filtered known sink) {id : ContainerId} (hid : known id) :
    Filtered known (sink.addFilter ⟨.allEventType, id.containerID⟩) := by
  unfold EventSink.addFilter
  split
  · exact hfiltered
  · refine ⟨hfiltered.filtering, fun filter hfilter => ?_⟩
    rcases List.mem_append.mp hfilter with hold | hnew
    · exact hfiltered.filters filter hold
    · rw [List.mem_singleton.mp hnew]
      exact ⟨id, hid, rfl⟩

theorem removeFilter (hfiltered : Filtered known sink) (removed : EventSinkFilter) :
    Filtered known (sink.removeFilter removed) where
  filtering := hfiltered.filtering
  filters filter hfilter := hfiltered.filters filter (List.mem_of_mem_eraseP hfilter)

theorem loadEvents (hfiltered : Filtered known sink) (id : ContainerId)
    (peek : Except String (List String)) (totalEvents : TotalEvents) (source : EventSource) :
    Filtered known (Collector.loadEvents id peek totalEvents sink source).2 := by
  cases source <;> exact ⟨hfiltered.filtering, hfiltered.filters⟩

theorem sinkStep {op : EventSink.Op} {after : EventSink} (hfiltered : Filtered known sink)
    (hstep : sink.step op = some after) : Filtered known after := by
  obtain ⟨hfiltering, hfilters⟩ := EventSink.step_filters hstep
  refine ⟨hfiltering.trans hfiltered.filtering, ?_⟩
  rw [hfilters]
  exact hfiltered.filters

/-- Only a start adds a filter, and it is the one of its container. -/
theorem step {label : Label} (hfiltered : Filtered known system.world.eventSink)
    (hstarts : ∀ id attach state, Call.containerStarted id attach state ∈ system.calls → known id)
    (hstep : Collector.step config system label = some next) :
    Filtered known next.world.eventSink := by
  cases sinkChange_of_step hstep with
  | same hsink => rwa [hsink]
  | addFilter hcall hsink =>
      rw [hsink]
      exact hfiltered.addFilter (hstarts _ _ _ (List.mem_of_getElem? hcall))
  | removeFilter filter hsink =>
      rw [hsink]
      exact hfiltered.removeFilter filter
  | load hcall hcalls hsink =>
      rw [hsink]
      exact hfiltered.loadEvents _ _ _ _
  | sink hsink => exact hfiltered.sinkStep hsink

end Filtered

/-! ## One step of the node -/

/-- What a step of the node is for its manager. -/
inductive NodeChange (config : CollectorManagerConfig) (enrich : Enricher) (system : System) :
    NodeLabel → System → Prop
  | dropped {event : GadgetEvent} : NodeChange config enrich system (.gadget event) system
  | sent {event : GadgetEvent} {op : EventSink.Op} {next : System}
      (hsend : event.callback enrich = some (.send op))
      (hstep : step config system (.sink op) = some next) :
      NodeChange config enrich system (.gadget event) next
  | announced {event : ContainerActivityEvent} {next : System}
      (hstep : step config system (onContainerActivityEvent event) = some next) :
      NodeChange config enrich system (.activity event) next
  | own {label : Label} {next : System} (hown : label.own = true)
      (hstep : step config system label = some next) :
      NodeChange config enrich system (.own label) next

theorem nodeStep_change {label : NodeLabel}
    (hstep : nodeStep config enrich system label = some next) :
    NodeChange config enrich system label next := by
  cases label with
  | gadget event =>
      obtain ⟨callback, hcallback, hstep⟩ := Option.bind_eq_some_iff.mp hstep
      cases callback with
      | send op => exact .sent hcallback hstep
      | _ =>
          cases hstep
          exact .dropped
  | activity event => exact .announced hstep
  | own label =>
      simp only [nodeStep] at hstep
      split at hstep
      next hown => exact .own hown hstep
      next => cases hstep

/-- What the sink accepts of a gadget's event shows no more than the event, and a filter of
the sink is of its container. -/
theorem shows_of_accepted {event : GadgetEvent} {op : EventSink.Op} {sink : EventSink}
    (hsend : event.callback enrich = some (.send op)) {evidence : Evidence}
    (haccepted : evidence ∈ accepted sink op) {id : ContainerId} {entry : Entry}
    (hconcerns : evidence.Concerns id) (hshows : evidence.Shows config entry) :
    ∃ general eventType, GadgetShows config enrich event general entry ∧
      general.names.segments = id.names.segments ∧
      sink.accepts eventType general.containerID = true := by
  cases event with
  | exec event =>
      obtain ⟨htype, hretval, pathName, args, hargs, rfl⟩ := execEventCallback_send hsend
      obtain ⟨haccepts, hevidence⟩ := List.mem_ite_nil_right.mp haccepted
      rw [List.mem_singleton.mp hevidence] at hconcerns hshows
      cases entry with
      | exec call =>
          rw [show call = _ from hshows]
          exact ⟨event.common, _, .exec htype hretval hargs, hconcerns, haccepts⟩
      | _ => cases hshows
  | opened event =>
      obtain ⟨⟨htype, hret⟩, rfl⟩ := GadgetData.send_of_ite (Option.some.inj hsend)
      obtain ⟨haccepts, hevidence⟩ := List.mem_ite_nil_right.mp haccepted
      rw [List.mem_singleton.mp hevidence] at hconcerns hshows
      cases entry with
      | opened call =>
          rw [show call = _ from hshows.1]
          exact ⟨event.common, _, .opened htype hret hshows.2, hconcerns, haccepts⟩
      | _ => cases hshows
  | capabilities event =>
      obtain ⟨htype, rfl⟩ := GadgetData.send_of_ite (Option.some.inj hsend)
      obtain ⟨haccepts, hevidence⟩ := List.mem_ite_nil_right.mp haccepted
      rw [List.mem_singleton.mp hevidence] at hconcerns hshows
      cases entry with
      | capability syscall capability =>
          obtain ⟨rfl, rfl⟩ := hshows
          exact ⟨event.common, _, .capability htype, hconcerns, haccepts⟩
      | _ => cases hshows
  -- The enricher fills in the names, so they are not those of the gadget's event.
  | dns event =>
      obtain ⟨htype, rfl⟩ := GadgetData.send_of_ite (Option.some.inj hsend)
      obtain ⟨haccepts, hevidence⟩ := List.mem_ite_nil_right.mp haccepted
      rw [List.mem_singleton.mp hevidence] at hconcerns hshows
      cases entry with
      | dns call =>
          rw [show call = _ from hshows]
          exact ⟨enrich.enriched event.toGadgetData, _, .dns htype, hconcerns, haccepts⟩
      | _ => cases hshows
  | network event =>
      obtain ⟨htype, rfl⟩ := GadgetData.send_of_ite (Option.some.inj hsend)
      obtain ⟨haccepts, hevidence⟩ := List.mem_ite_nil_right.mp haccepted
      rw [List.mem_singleton.mp hevidence] at hconcerns hshows
      cases entry with
      | incoming call =>
          rw [show call = _ from hshows.2]
          exact ⟨enrich.enriched event.toGadgetData, _, .incoming htype hshows.1, hconcerns,
            haccepts⟩
      | outgoing call =>
          rw [show call = _ from hshows.2]
          exact ⟨enrich.enriched event.toGadgetData, _, .outgoing htype hshows.1, hconcerns,
            haccepts⟩
      | _ => cases hshows
  | randomx event => exact absurd (Option.some.inj hsend) (randomxEventCallback_ne_send event op)

theorem heard_of_gadget {event : GadgetEvent} {op : EventSink.Op}
    (hfiltered : Filtered (Announced labels) system.world.eventSink)
    (hsend : event.callback enrich = some (.send op)) :
    ∀ evidence ∈ told system (.sink op),
      Heard config enrich start (labels ++ [.gadget event]) evidence := by
  intro evidence haccepted id entry hconcerns hshows
  obtain ⟨general, eventType, hgadget, hnames, haccepts⟩ :=
    shows_of_accepted hsend haccepted hconcerns hshows
  exact Or.inl ⟨labels, event, [], general, rfl, hgadget, hnames,
    hfiltered.known_of_accepts haccepts⟩

/-- Of its own accord the manager is told syscalls only, by a pass that peeks them. -/
theorem heard_of_own {label : Label} (hown : label.own = true)
    (hrun : (nodeMachine config enrich).run start labels = some system) :
    ∀ evidence ∈ told system label,
      Heard config enrich start (labels ++ [.own label]) evidence := by
  intro evidence hevidence
  cases label with
  | advance call answers =>
      simp only [told] at hevidence
      split at hevidence
      next id found rest batch hcurrent =>
        unfold peeked at hevidence
        split at hevidence
        next syscalls hpeek =>
          obtain ⟨name, hname, rfl⟩ := List.mem_map.mp hevidence
          rintro _ entry rfl hshows
          cases entry with
          | syscall shown =>
              obtain rfl : name = shown := hshows
              exact Or.inr ⟨name, rfl, (nodeMachine config enrich).happens_last hrun
                ⟨found, rest, batch, syscalls, hcurrent, hpeek, hname⟩⟩
          | _ => cases hshows
        next => cases hevidence
      next => cases hevidence
  | sink op => cases op <;> first | cases hevidence | cases hown
  | _ => cases hevidence

theorem started_of_activity {event : ContainerActivityEvent} {id : ContainerId} {attach : Bool}
    (hstart : onContainerActivityEvent event = .containerStarted id attach) :
    event.activity ≠ .stop ∧ containerIdOf event = id := by
  unfold onContainerActivityEvent at hstart
  split at hstart
  next hactivity => exact ⟨by rw [hactivity]; exact ContainerActivity.noConfusion,
    (Label.containerStarted.inj hstart).1⟩
  next => cases hstart
  next hactivity => exact ⟨by rw [hactivity]; exact ContainerActivity.noConfusion,
    (Label.containerStarted.inj hstart).1⟩

/-- The manager holds only what was announced and reported. -/
structure Attested (config : CollectorManagerConfig) (enrich : Enricher) (start : System)
    (labels : List NodeLabel) (system : System) : Prop where
  grounded : system.Grounded config (Announced labels) (Heard config enrich start labels)
    (Reported config enrich start labels)
  filtered : Filtered (Announced labels) system.world.eventSink

theorem Attested.concat (hattested : Attested config enrich start labels system)
    (label : NodeLabel) : Attested config enrich start (labels ++ [label]) system where
  grounded := hattested.grounded.mono (fun _ hannounced => hannounced.concat label)
    (fun _ hheard => hheard.concat label) (fun _ _ _ hreported => hreported.concat label)
  filtered := hattested.filtered.mono fun _ hannounced => hannounced.concat label

theorem Attested.step {label : NodeLabel}
    (hrun : (nodeMachine config enrich).run start labels = some system)
    (hattested : Attested config enrich start labels system)
    (hstep : nodeStep config enrich system label = some next) :
    Attested config enrich start (labels ++ [label]) next := by
  have hlater := hattested.concat label
  have hadvance : ∀ own,
      (∀ id attach, own = .containerStarted id attach → Announced (labels ++ [label]) id) →
      (∀ evidence ∈ told system own, Heard config enrich start (labels ++ [label]) evidence) →
      Collector.step config system own = some next →
      Attested config enrich start (labels ++ [label]) next := by
    intro own hknown htold hown
    refine ⟨hlater.grounded.step justifies_reported hknown htold hown, ?_⟩
    exact hlater.filtered.step (fun id attach state hcall => hlater.grounded.calls _ hcall) hown
  cases nodeStep_change hstep with
  | dropped => exact hlater
  | sent hsend hsink =>
      refine hadvance _ ?_ (heard_of_gadget hattested.filtered hsend) hsink
      exact fun id attach hstart => Label.noConfusion hstart
  | @announced event _ hactivity =>
      refine hadvance _ ?_ ?_ hactivity
      · intro id attach hstart
        obtain ⟨hactivity, hid⟩ := started_of_activity hstart
        exact ⟨event, List.mem_append_right _ List.mem_cons_self, hactivity, hid⟩
      · intro evidence hevidence
        unfold onContainerActivityEvent at hevidence
        split at hevidence <;> cases hevidence
  | own hown hmanager =>
      refine hadvance _ ?_ (heard_of_own hown hrun) hmanager
      rintro id attach rfl
      cases hown

/-! ## Whole runs -/

/-- In every run of a node: an entry that is stored for a container was stored at the start, or
the container was announced and the entry was reported for it, by a gadget or to a pass of the
container that peeked its syscalls. A gadget's report of it came after the announcement of the
container that the report names. -/
theorem entries_reported {last : System} (hstart : Initial start)
    (hsink : start.world.eventSink = .new true)
    (hrun : (nodeMachine config enrich).run start labels = some last) {key : String × String}
    {object : Versioned ApplicationProfile} (hobject : last.world.profiles.get key = some object)
    {container : String} {entry : Entry} (hentry : object.value.Has container entry) :
    Reported config enrich start labels key container entry := by
  have hattested : Attested config enrich start labels last := by
    refine (nodeMachine config enrich).run_history_invariant
      (Attested config enrich start) ⟨⟨?_, ?_, ?_, ?_⟩, ?_⟩ ?_ hrun
    · intro id hid
      rw [hstart.1] at hid
      exact absurd hid Finmap.notMem_empty
    · rw [hsink]
      exact SinkSeen.new true
    · intro call hcall
      rw [hstart.2.2.2.2] at hcall
      cases hcall
    · intro key object hobject container entry hentry
      exact Or.inl ⟨object, hobject, hentry⟩
    · rw [hsink]
      exact ⟨rfl, fun filter hfilter => absurd hfilter List.not_mem_nil⟩
    · exact fun labels system label next hbefore hattested hstep =>
        hattested.step hbefore hstep
  exact hattested.grounded.profiles key object hobject container entry hentry

/-! ## A shell, from the gadget to the profile -/

/-- A gadget library that knows no container. -/
def noEnricher : Enricher := ⟨fun _ general => general, fun _ general => general⟩

def nginxStart : ContainerActivityEvent where
  container := ⟨"nginx", "default", "app", 1, "1234567890", 1⟩
  activity := .start

/-- What the exec gadget reports of `shellEvent`. -/
def shellReport : GadgetEvent :=
  .exec { type := .normal, common := shellEvent.toGeneralEvent, retval := 0, args := ["/bin/sh"],
          upperLayer := false }

def shellNodeRun : List NodeLabel :=
  .activity nginxStart :: List.replicate 7 (.own (.advance 0 {})) ++
    [.gadget shellReport, .own (.sink .execveEventWorker), .own (.timerExpired nginx)] ++
      List.replicate 11 (.own (.advance 1 {}))

theorem nginx_shell_reported : ∃ last object,
    (nodeMachine mainConfig noEnricher).run freshSystem shellNodeRun = some last ∧
      last.world.profiles.get (nginx.profileKey mainConfig) = some object ∧
      object.value.Has "app" (.exec (ExecCalls.ofEvent shellEvent)) ∧
      Reported mainConfig noEnricher freshSystem shellNodeRun (nginx.profileKey mainConfig)
        "app" (.exec (ExecCalls.ofEvent shellEvent)) := by
  have hends : ((nodeMachine mainConfig noEnricher).run freshSystem shellNodeRun).any
      (fun last => (last.world.profiles.get (nginx.profileKey mainConfig)).any fun object =>
        decide (∃ profile ∈ object.value.spec.containers, profile.name = "app" ∧
          ExecCalls.ofEvent shellEvent ∈ profile.execs)) = true := by
    decide +kernel
  obtain ⟨last, hrun, hlast⟩ := (Option.any_eq_true _ _).mp hends
  obtain ⟨object, hobject, hentry⟩ := (Option.any_eq_true _ _).mp hlast
  have hstored := of_decide_eq_true hentry
  have hshell : object.value.Has "app" (.exec (ExecCalls.ofEvent shellEvent)) := hstored
  exact ⟨last, object, hrun, hobject, hshell,
    entries_reported initial_freshSystem rfl hrun hobject hshell⟩

end Kapprofiler.Collector
