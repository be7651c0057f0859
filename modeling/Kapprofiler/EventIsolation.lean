import Kapprofiler.Cluster
import Kapprofiler.EventSink
import Kapprofiler.Foundation.Machine
import Kapprofiler.Foundation.Segments

/-! # The buckets of two containers

The workers, the getters and the cleanup of `pkg/eventsink/es.go` agree on the bucket
of a container: its namespace, pod and container names, joined by hyphens. The names
may contain hyphens too, so two containers share their buckets exactly when their
names have the same segments in the same order.
-/

namespace Kapprofiler

open Tracing Foundation

/-- What the sink knows a container by. -/
structure ContainerNames where
  nameSpace : String
  podName : String
  containerName : String
  deriving DecidableEq

namespace ContainerNames

def bucket (names : ContainerNames) (kind : String) : String :=
  Kapprofiler.bucket kind names.nameSpace names.podName names.containerName

/-- The parts of the three names between their hyphens, one after the other. -/
def segments (names : ContainerNames) : List (List Char) :=
  Foundation.segments '-' names.nameSpace ++ Foundation.segments '-' names.podName ++
    Foundation.segments '-' names.containerName

end ContainerNames

def Tracing.GeneralEvent.names (event : GeneralEvent) : ContainerNames :=
  ⟨event.nameSpace, event.podName, event.containerName⟩

/-! ## The calls of the collector -/

namespace EventStream

variable {Event : Type}

def delete (stream : EventStream Event) (key : String) : EventStream Event :=
  { stream with db := stream.db.delete key }

def close (stream : EventStream Event) : EventStream Event :=
  { stream with db := stream.db.close }

end EventStream

namespace EventSink

def getExecveEvents (sink : EventSink) (names : ContainerNames) : List ExecveEvent × EventSink :=
  let drained := sink.execve.getEvents (names.bucket "execve")
  (drained.1, { sink with execve := drained.2 })

def getOpenEvents (sink : EventSink) (names : ContainerNames) : List OpenEvent × EventSink :=
  let drained := sink.opens.getEvents (names.bucket "open")
  (drained.1, { sink with opens := drained.2 })

def getCapabilitiesEvents (sink : EventSink) (names : ContainerNames) :
    List CapabilitiesEvent × EventSink :=
  let drained := sink.capabilities.getEvents (names.bucket "capabilities")
  (drained.1, { sink with capabilities := drained.2 })

def getDnsEvents (sink : EventSink) (names : ContainerNames) : List DnsEvent × EventSink :=
  let drained := sink.dns.getEvents (names.bucket "dns")
  (drained.1, { sink with dns := drained.2 })

def getNetworkEvents (sink : EventSink) (names : ContainerNames) :
    List NetworkEvent × EventSink :=
  let drained := sink.network.getEvents (names.bucket "network")
  (drained.1, { sink with network := drained.2 })

def cleanupContainer (sink : EventSink) (names : ContainerNames) : EventSink :=
  { sink with
    execve := sink.execve.delete (names.bucket "execve")
    opens := sink.opens.delete (names.bucket "open")
    capabilities := sink.capabilities.delete (names.bucket "capabilities")
    dns := sink.dns.delete (names.bucket "dns")
    network := sink.network.delete (names.bucket "network") }

def close (sink : EventSink) : EventSink :=
  { sink with
    execve := sink.execve.close
    opens := sink.opens.close
    capabilities := sink.capabilities.close
    dns := sink.dns.close
    network := sink.network.close }

/-- What can happen to a sink: a step of a tracer or a worker, or a call. -/
inductive Call
  | op (op : Op)
  | addFilter (filter : EventSinkFilter)
  | removeFilter (filter : EventSinkFilter)
  | getExecveEvents (names : ContainerNames)
  | getOpenEvents (names : ContainerNames)
  | getCapabilitiesEvents (names : ContainerNames)
  | getDnsEvents (names : ContainerNames)
  | getNetworkEvents (names : ContainerNames)
  | cleanupContainer (names : ContainerNames)
  | close

def call (sink : EventSink) : Call → Option EventSink
  | .op op => sink.step op
  | .addFilter filter => some (sink.addFilter filter)
  | .removeFilter filter => some (sink.removeFilter filter)
  | .getExecveEvents names => some (sink.getExecveEvents names).2
  | .getOpenEvents names => some (sink.getOpenEvents names).2
  | .getCapabilitiesEvents names => some (sink.getCapabilitiesEvents names).2
  | .getDnsEvents names => some (sink.getDnsEvents names).2
  | .getNetworkEvents names => some (sink.getNetworkEvents names).2
  | .cleanupContainer names => some (sink.cleanupContainer names)
  | .close => some sink.close

/-- The machine of a sink that was started empty, with or without filtering. -/
def machine : Machine EventSink Call where
  init sink := ∃ filterEvents, sink = .new filterEvents
  step := call

/-- No call for the second container returns or removes an event of the first. -/
structure Spares (sink : EventSink) (first second : ContainerNames) : Prop where
  execve : ∀ event ∈ (sink.getExecveEvents second).1, event.names ≠ first
  opens : ∀ event ∈ (sink.getOpenEvents second).1, event.names ≠ first
  capabilities : ∀ event ∈ (sink.getCapabilitiesEvents second).1, event.names ≠ first
  dns : ∀ event ∈ (sink.getDnsEvents second).1, event.names ≠ first
  network : ∀ event ∈ (sink.getNetworkEvents second).1, event.names ≠ first
  execveKept : ∀ key, ∀ event ∈ sink.execve.db.get key, event.names = first →
    event ∈ (sink.cleanupContainer second).execve.db.get key
  opensKept : ∀ key, ∀ event ∈ sink.opens.db.get key, event.names = first →
    event ∈ (sink.cleanupContainer second).opens.db.get key
  capabilitiesKept : ∀ key, ∀ event ∈ sink.capabilities.db.get key, event.names = first →
    event ∈ (sink.cleanupContainer second).capabilities.db.get key
  dnsKept : ∀ key, ∀ event ∈ sink.dns.db.get key, event.names = first →
    event ∈ (sink.cleanupContainer second).dns.db.get key
  networkKept : ∀ key, ∀ event ∈ sink.network.db.get key, event.names = first →
    event ∈ (sink.cleanupContainer second).network.db.get key

/-- In every run the events of the first container stay with it, as far as the calls
for the second one go. -/
def EventsStay (first second : ContainerNames) : Prop :=
  ∀ sink, machine.Reachable sink → sink.Spares first second

end EventSink

/-! ## Bucket names -/

theorem ContainerNames.segments_bucket (names : ContainerNames) (kind : String) :
    Foundation.segments '-' (names.bucket kind) =
      Foundation.segments '-' kind ++ names.segments := by
  have hhyphen : "-" = String.singleton '-' := rfl
  unfold bucket Kapprofiler.bucket ContainerNames.segments
  rw [hhyphen, segments_join, segments_join, segments_join]

/-- Two containers share a bucket exactly when their names have the same segments. -/
theorem ContainerNames.bucket_eq_iff {first second : ContainerNames} {kind : String} :
    first.bucket kind = second.bucket kind ↔ first.segments = second.segments := by
  rw [← segments_inj '-', segments_bucket, segments_bucket,
    List.append_cancel_left_eq]

/-! ## One stream -/

namespace EventStream

variable {Event : Type} {stream next : EventStream Event} {bucketOf : Event → String}

/-- Every event is in the bucket that its worker computes for it. -/
def Sorted (stream : EventStream Event) (bucketOf : Event → String) : Prop :=
  ∀ key, ∀ event ∈ stream.db.get key, bucketOf event = key

theorem sorted_new : (new : EventStream Event).Sorted bucketOf := by
  intro key event hevent
  simp [new, InMemoryMapDB.new, InMemoryMapDB.get] at hevent

theorem Sorted.send {event : Event} (hsorted : stream.Sorted bucketOf)
    (hsend : stream.send event = some next) : next.Sorted bucketOf := by
  unfold Sorted
  rw [send_db hsend]
  exact hsorted

theorem Sorted.worker (hsorted : stream.Sorted bucketOf)
    (hworker : stream.worker bucketOf = some next) : next.Sorted bucketOf := by
  intro key event hevent
  unfold EventStream.worker at hworker
  split at hworker
  next => cases hworker
  next oldest rest _ =>
    obtain ⟨db, hput, rfl⟩ := Option.map_eq_some_iff.mp hworker
    by_cases hkey : key = bucketOf oldest
    · subst hkey
      change event ∈ db.get _ at hevent
      rw [InMemoryMapDB.get_put hput] at hevent
      rcases List.mem_append.mp hevent with hold | hnew
      · exact hsorted _ event hold
      · rw [List.mem_singleton.mp hnew]
    · change event ∈ db.get _ at hevent
      rw [InMemoryMapDB.get_put_of_ne hput hkey] at hevent
      exact hsorted key event hevent

theorem Sorted.getEvents (hsorted : stream.Sorted bucketOf) (drained : String) :
    (stream.getEvents drained).2.Sorted bucketOf := by
  intro key event hevent
  change event ∈ (stream.db.getNClean drained).2.get key at hevent
  by_cases hkey : key = drained
  · subst hkey
    rw [InMemoryMapDB.get_getNClean] at hevent
    cases hevent
  · rw [InMemoryMapDB.get_getNClean_of_ne _ hkey] at hevent
    exact hsorted key event hevent

theorem Sorted.delete (hsorted : stream.Sorted bucketOf) (deleted : String) :
    (stream.delete deleted).Sorted bucketOf := by
  intro key event hevent
  change event ∈ (stream.db.delete deleted).get key at hevent
  by_cases hkey : key = deleted
  · subst hkey
    rw [InMemoryMapDB.get_delete] at hevent
    cases hevent
  · rw [InMemoryMapDB.get_delete_of_ne _ hkey] at hevent
    exact hsorted key event hevent

theorem Sorted.close : stream.close.Sorted bucketOf := by
  intro key event hevent
  cases hevent

/-- A getter returns events of its own bucket only. -/
theorem Sorted.bucketOf_of_getEvents (hsorted : stream.Sorted bucketOf) {key : String}
    {event : Event} (hevent : event ∈ (stream.getEvents key).1) : bucketOf event = key := by
  apply hsorted key event
  rw [← InMemoryMapDB.getNClean_fst]
  exact hevent

/-- A cleanup keeps the events of the other buckets. -/
theorem Sorted.mem_delete (hsorted : stream.Sorted bucketOf) {key other : String} {event : Event}
    (hevent : event ∈ stream.db.get other) (hne : bucketOf event ≠ key) :
    event ∈ (stream.delete key).db.get other := by
  have hother : other ≠ key := fun heq => hne ((hsorted other event hevent).trans heq)
  change event ∈ (stream.db.delete key).get other
  rw [InMemoryMapDB.get_delete_of_ne _ hother]
  exact hevent

end EventStream

/-! ## Whole runs -/

namespace EventSink

variable {sink next : EventSink} {first second : ContainerNames}

/-- Every event is in the bucket of its container. -/
structure Sorted (sink : EventSink) : Prop where
  execve : sink.execve.Sorted fun event => event.names.bucket "execve"
  opens : sink.opens.Sorted fun event => event.names.bucket "open"
  capabilities : sink.capabilities.Sorted fun event => event.names.bucket "capabilities"
  dns : sink.dns.Sorted fun event => event.names.bucket "dns"
  network : sink.network.Sorted fun event => event.names.bucket "network"

theorem sorted_new (filterEvents : Bool) : (new filterEvents).Sorted where
  execve := EventStream.sorted_new
  opens := EventStream.sorted_new
  capabilities := EventStream.sorted_new
  dns := EventStream.sorted_new
  network := EventStream.sorted_new

theorem Sorted.step {op : Op} (hsorted : sink.Sorted) (hstep : sink.step op = some next) :
    next.Sorted := by
  have hstreams := @step_streams
    (fun bucketOf stream next => stream.Sorted bucketOf → next.Sorted bucketOf)
    (fun _ _ hstream => hstream) (fun _ _ _ _ hsend hstream => hstream.send hsend)
    (fun hworker hstream => hstream.worker hworker) sink next op hstep
  obtain ⟨hexecve, hopens, hcapabilities, hdns, hnetwork⟩ := hstreams
  exact ⟨hexecve hsorted.execve, hopens hsorted.opens, hcapabilities hsorted.capabilities,
    hdns hsorted.dns, hnetwork hsorted.network⟩

theorem Sorted.call {label : Call} (hsorted : sink.Sorted) (hcall : sink.call label = some next) :
    next.Sorted := by
  cases label with
  | op op => exact hsorted.step hcall
  | addFilter filter =>
      cases hcall
      obtain ⟨eventFilters, heq⟩ := sink.addFilter_eq filter
      rw [heq]
      exact { hsorted with }
  | removeFilter filter =>
      cases hcall
      exact { hsorted with }
  | getExecveEvents names =>
      cases hcall
      exact { hsorted with execve := hsorted.execve.getEvents _ }
  | getOpenEvents names =>
      cases hcall
      exact { hsorted with opens := hsorted.opens.getEvents _ }
  | getCapabilitiesEvents names =>
      cases hcall
      exact { hsorted with capabilities := hsorted.capabilities.getEvents _ }
  | getDnsEvents names =>
      cases hcall
      exact { hsorted with dns := hsorted.dns.getEvents _ }
  | getNetworkEvents names =>
      cases hcall
      exact { hsorted with network := hsorted.network.getEvents _ }
  | cleanupContainer names =>
      cases hcall
      exact {
        execve := hsorted.execve.delete _
        opens := hsorted.opens.delete _
        capabilities := hsorted.capabilities.delete _
        dns := hsorted.dns.delete _
        network := hsorted.network.delete _ }
  | close =>
      cases hcall
      exact {
        execve := EventStream.Sorted.close
        opens := EventStream.Sorted.close
        capabilities := EventStream.Sorted.close
        dns := EventStream.Sorted.close
        network := EventStream.Sorted.close }

theorem reachable_sorted (hreach : machine.Reachable sink) : sink.Sorted := by
  refine hreach.invariant ?_ (fun _ _ _ hsorted hcall => hsorted.call hcall)
  rintro start ⟨filterEvents, rfl⟩
  exact sorted_new filterEvents

/-- In a sorted sink containers with different buckets do not meet. -/
theorem Sorted.spares (hsorted : sink.Sorted) (hapart : first.segments ≠ second.segments) :
    sink.Spares first second := by
  have hbucket : ∀ (names : ContainerNames) (kind : String), names = first →
      names.bucket kind ≠ second.bucket kind := by
    rintro names kind rfl heq
    exact hapart (ContainerNames.bucket_eq_iff.mp heq)
  exact {
    execve := fun event hevent hnames =>
      hbucket _ _ hnames (hsorted.execve.bucketOf_of_getEvents hevent)
    opens := fun event hevent hnames =>
      hbucket _ _ hnames (hsorted.opens.bucketOf_of_getEvents hevent)
    capabilities := fun event hevent hnames =>
      hbucket _ _ hnames (hsorted.capabilities.bucketOf_of_getEvents hevent)
    dns := fun event hevent hnames =>
      hbucket _ _ hnames (hsorted.dns.bucketOf_of_getEvents hevent)
    network := fun event hevent hnames =>
      hbucket _ _ hnames (hsorted.network.bucketOf_of_getEvents hevent)
    execveKept := fun _ _ hevent hnames =>
      hsorted.execve.mem_delete hevent (hbucket _ _ hnames)
    opensKept := fun _ _ hevent hnames =>
      hsorted.opens.mem_delete hevent (hbucket _ _ hnames)
    capabilitiesKept := fun _ _ hevent hnames =>
      hsorted.capabilities.mem_delete hevent (hbucket _ _ hnames)
    dnsKept := fun _ _ hevent hnames =>
      hsorted.dns.mem_delete hevent (hbucket _ _ hnames)
    networkKept := fun _ _ hevent hnames =>
      hsorted.network.mem_delete hevent (hbucket _ _ hnames) }

/-- An exec of the container. -/
def execOf (names : ContainerNames) : ExecveEvent where
  nameSpace := names.nameSpace
  podName := names.podName
  containerName := names.containerName
  pathName := "/bin/sh"
  upperLayer := false
  args := []
  env := []

/-- Some run puts an exec of the container into its bucket. -/
theorem exists_exec (names : ContainerNames) : ∃ sink, machine.Reachable sink ∧
    execOf names ∈ sink.execve.db.get (names.bucket "execve") := by
  obtain ⟨db, hput⟩ : ∃ db, (InMemoryMapDB.new : InMemoryMapDB ExecveEvent).put
      (names.bucket "execve") (execOf names) = some db := ⟨_, rfl⟩
  refine ⟨{ new false with execve := ⟨[], db⟩ }, ⟨new false,
    [.op (.sendExecveEvent (execOf names)), .op .execveEventWorker], ⟨false, rfl⟩, ?_⟩, ?_⟩
  · rw [← Option.some.inj hput]
    rfl
  · change execOf names ∈ db.get _
    rw [InMemoryMapDB.get_put hput]
    exact List.mem_append_right _ List.mem_cons_self

/-- A getter for one container returns an exec of the other if they share a bucket. -/
theorem not_eventsStay (hsame : first.segments = second.segments) :
    ¬ EventsStay first second := by
  intro hstay
  obtain ⟨sink, hreach, hexec⟩ := exists_exec first
  rw [ContainerNames.bucket_eq_iff.mpr hsame] at hexec
  refine (hstay sink hreach).execve (execOf first) ?_ rfl
  change execOf first ∈ (sink.execve.db.getNClean (second.bucket "execve")).1
  rw [InMemoryMapDB.getNClean_fst]
  exact hexec

/-- The events of one container stay with it exactly if its names do not have the
same segments as those of the other one. -/
theorem eventsStay_iff : EventsStay first second ↔ first.segments ≠ second.segments := by
  constructor
  · exact fun hstay hsame => not_eventsStay hsame hstay
  · exact fun hapart sink hreach => (reachable_sorted hreach).spares hapart

end EventSink

def ContainerNames.valid (names : ContainerNames) : Bool :=
  validName names.nameSpace && validName names.podName && validName names.containerName

/-- The container `cache` of the pod `web-redis`, and `redis-cache` of the pod `web`. -/
theorem redis_events_mixed : ∃ first second : ContainerNames, first ≠ second ∧
    first.valid = true ∧ second.valid = true ∧ ¬ EventSink.EventsStay first second := by
  exact ⟨⟨"default", "web-redis", "cache"⟩, ⟨"default", "web", "redis-cache"⟩, by decide,
    by decide, by decide, EventSink.not_eventsStay (by decide)⟩

end Kapprofiler
