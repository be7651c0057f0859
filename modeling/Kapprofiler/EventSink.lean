import Kapprofiler.InMemoryMapDB
import Kapprofiler.Tracing.Events

/-! # The event sink

`pkg/eventsink/es.go`: events that pass the filters are queued in the channel of
their type, and a worker for each type moves them into the bucket of their
container. The collector drains a container's buckets by name.
-/

namespace Kapprofiler

open Tracing

structure EventSinkFilter where
  eventType : EventType
  containerID : String
  deriving DecidableEq

/-- The channel of one event type and the database its worker fills. -/
structure EventStream (Event : Type) where
  channel : List Event
  db : InMemoryMapDB Event

structure EventSink where
  filterEvents : Bool
  eventFilters : List EventSinkFilter
  execve : EventStream ExecveEvent
  opens : EventStream OpenEvent
  capabilities : EventStream CapabilitiesEvent
  dns : EventStream DnsEvent
  network : EventStream NetworkEvent

/-- `fmt.Sprintf("<kind>-%s-%s-%s", ...)`, the bucket of a container. -/
def bucket (kind nameSpace podName containerName : String) : String :=
  kind ++ "-" ++ (nameSpace ++ "-" ++ podName ++ "-" ++ containerName)

def channelCapacity : Nat := 10000

namespace EventStream

variable {Event : Type}

def new : EventStream Event := ⟨[], .new⟩

/-- A send blocks while the channel is full. -/
def send (stream : EventStream Event) (event : Event) : Option (EventStream Event) :=
  if stream.channel.length < channelCapacity then
    some { stream with channel := stream.channel ++ [event] }
  else none

/-- One iteration of a worker: take the oldest event and put it into its bucket. -/
def worker (stream : EventStream Event) (bucketOf : Event → String) :
    Option (EventStream Event) :=
  match stream.channel with
  | [] => none
  | event :: rest => (stream.db.put (bucketOf event) event).map fun db => ⟨rest, db⟩

def getEvents (stream : EventStream Event) (key : String) : List Event × EventStream Event :=
  ((stream.db.getNClean key).1, { stream with db := (stream.db.getNClean key).2 })

theorem send_db {stream next : EventStream Event} {event : Event}
    (hsend : stream.send event = some next) : next.db = stream.db := by
  unfold send at hsend
  split at hsend
  · exact (Option.some.inj hsend) ▸ rfl
  · cases hsend

/-- An event sent to an idle worker ends up in its bucket. -/
theorem send_worker {stream : EventStream Event} (bucketOf : Event → String) (event : Event)
    (hidle : stream.channel = []) (hopen : stream.db.m.isSome) : ∃ sent next,
    stream.send event = some sent ∧ sent.worker bucketOf = some next ∧
      next.channel = [] ∧ next.db.m.isSome ∧
      next.db.get (bucketOf event) = stream.db.get (bucketOf event) ++ [event] := by
  obtain ⟨db, hput, hnext⟩ := InMemoryMapDB.exists_put hopen (bucketOf event) event
  refine ⟨⟨[event], stream.db⟩, ⟨[], db⟩, ?_, ?_, rfl, hnext, InMemoryMapDB.get_put hput⟩
  · simp [send, hidle, channelCapacity]
  · simp [worker, hput]

/-- A worker only appends to buckets. -/
theorem prefix_worker {stream next : EventStream Event} {bucketOf : Event → String}
    (hworker : stream.worker bucketOf = some next) (key : String) :
    stream.db.get key <+: next.db.get key := by
  unfold worker at hworker
  split at hworker
  next => cases hworker
  next event rest _ =>
    obtain ⟨db, hput, rfl⟩ := Option.map_eq_some_iff.mp hworker
    by_cases hkey : key = bucketOf event
    · subst hkey
      rw [InMemoryMapDB.get_put hput]
      exact List.prefix_append _ _
    · rw [InMemoryMapDB.get_put_of_ne hput hkey]

end EventStream

namespace EventSink

/-- An empty sink, as `NewEventSink` and `Start` leave it. -/
def new (filterEvents : Bool) : EventSink :=
  ⟨filterEvents, [], .new, .new, .new, .new, .new⟩

/-- A filter that already exists is not added again. -/
def addFilter (sink : EventSink) (filter : EventSinkFilter) : EventSink :=
  if sink.eventFilters.any (fun f =>
      f.eventType = filter.eventType ∧ f.containerID = filter.containerID) then sink
  else { sink with eventFilters := sink.eventFilters ++ [filter] }

/-- Only the first matching filter is removed. -/
def removeFilter (sink : EventSink) (filter : EventSinkFilter) : EventSink :=
  { sink with eventFilters := sink.eventFilters.eraseP fun f =>
      f.containerID = filter.containerID ∧
        (f.eventType = filter.eventType ∨ filter.eventType = .allEventType) }

/-- Whether a `Send*Event` of this type queues an event of this container. -/
def accepts (sink : EventSink) (eventType : EventType) (containerID : String) : Bool :=
  !sink.filterEvents || sink.eventFilters.any fun filter =>
    filter.containerID = containerID ∧
      (filter.eventType = .allEventType ∨ filter.eventType = eventType)

/-- What the tracers and the workers do to the sink, one step at a time. -/
inductive Op
  | sendExecveEvent (event : ExecveEvent)
  | sendOpenEvent (event : OpenEvent)
  | sendCapabilitiesEvent (event : CapabilitiesEvent)
  | sendDnsEvent (event : DnsEvent)
  | sendNetworkEvent (event : NetworkEvent)
  | execveEventWorker
  | openEventWorker
  | capabilitiesEventWorker
  | dnsEventWorker
  | networkEventWorker

def step (sink : EventSink) : Op → Option EventSink
  | .sendExecveEvent event =>
      if sink.accepts .execveEventType event.containerID then
        (sink.execve.send event).map fun stream => { sink with execve := stream }
      else some sink
  | .sendOpenEvent event =>
      if sink.accepts .openEventType event.containerID then
        (sink.opens.send event).map fun stream => { sink with opens := stream }
      else some sink
  | .sendCapabilitiesEvent event =>
      if sink.accepts .capabilitiesEventType event.containerID then
        (sink.capabilities.send event).map fun stream => { sink with capabilities := stream }
      else some sink
  | .sendDnsEvent event =>
      if sink.accepts .dnsEventType event.containerID then
        (sink.dns.send event).map fun stream => { sink with dns := stream }
      else some sink
  | .sendNetworkEvent event =>
      if sink.accepts .networkEventType event.containerID then
        (sink.network.send event).map fun stream => { sink with network := stream }
      else some sink
  | .execveEventWorker =>
      (sink.execve.worker fun event =>
        bucket "execve" event.nameSpace event.podName event.containerName).map
          fun stream => { sink with execve := stream }
  | .openEventWorker =>
      (sink.opens.worker fun event =>
        bucket "open" event.nameSpace event.podName event.containerName).map
          fun stream => { sink with opens := stream }
  | .capabilitiesEventWorker =>
      (sink.capabilities.worker fun event =>
        bucket "capabilities" event.nameSpace event.podName event.containerName).map
          fun stream => { sink with capabilities := stream }
  | .dnsEventWorker =>
      (sink.dns.worker fun event =>
        bucket "dns" event.nameSpace event.podName event.containerName).map
          fun stream => { sink with dns := stream }
  | .networkEventWorker =>
      (sink.network.worker fun event =>
        bucket "network" event.nameSpace event.podName event.containerName).map
          fun stream => { sink with network := stream }

/-- What every send and every iteration of a worker does to its stream, a step does to
each stream of the sink. -/
theorem step_streams {relates : ∀ {Event : Type}, (Event → String) → EventStream Event →
      EventStream Event → Prop}
    (hrefl : ∀ {Event : Type} (bucketOf : Event → String) (stream : EventStream Event),
      relates bucketOf stream stream)
    (hsend : ∀ {Event : Type} (bucketOf : Event → String) {stream next : EventStream Event}
      {event : Event}, stream.send event = some next → relates bucketOf stream next)
    (hworker : ∀ {Event : Type} {bucketOf : Event → String} {stream next : EventStream Event},
      stream.worker bucketOf = some next → relates bucketOf stream next)
    {sink next : EventSink} {op : Op} (hstep : sink.step op = some next) :
    relates (fun event => bucket "execve" event.nameSpace event.podName event.containerName)
        sink.execve next.execve ∧
      relates (fun event => bucket "open" event.nameSpace event.podName event.containerName)
        sink.opens next.opens ∧
      relates (fun event =>
          bucket "capabilities" event.nameSpace event.podName event.containerName)
        sink.capabilities next.capabilities ∧
      relates (fun event => bucket "dns" event.nameSpace event.podName event.containerName)
        sink.dns next.dns ∧
      relates (fun event => bucket "network" event.nameSpace event.podName event.containerName)
        sink.network next.network := by
  cases op with
  | sendExecveEvent event =>
      simp only [step] at hstep
      split at hstep
      · obtain ⟨stream, hsent, rfl⟩ := Option.map_eq_some_iff.mp hstep
        exact ⟨hsend _ hsent, hrefl _ _, hrefl _ _, hrefl _ _, hrefl _ _⟩
      · cases hstep
        exact ⟨hrefl _ _, hrefl _ _, hrefl _ _, hrefl _ _, hrefl _ _⟩
  | sendOpenEvent event =>
      simp only [step] at hstep
      split at hstep
      · obtain ⟨stream, hsent, rfl⟩ := Option.map_eq_some_iff.mp hstep
        exact ⟨hrefl _ _, hsend _ hsent, hrefl _ _, hrefl _ _, hrefl _ _⟩
      · cases hstep
        exact ⟨hrefl _ _, hrefl _ _, hrefl _ _, hrefl _ _, hrefl _ _⟩
  | sendCapabilitiesEvent event =>
      simp only [step] at hstep
      split at hstep
      · obtain ⟨stream, hsent, rfl⟩ := Option.map_eq_some_iff.mp hstep
        exact ⟨hrefl _ _, hrefl _ _, hsend _ hsent, hrefl _ _, hrefl _ _⟩
      · cases hstep
        exact ⟨hrefl _ _, hrefl _ _, hrefl _ _, hrefl _ _, hrefl _ _⟩
  | sendDnsEvent event =>
      simp only [step] at hstep
      split at hstep
      · obtain ⟨stream, hsent, rfl⟩ := Option.map_eq_some_iff.mp hstep
        exact ⟨hrefl _ _, hrefl _ _, hrefl _ _, hsend _ hsent, hrefl _ _⟩
      · cases hstep
        exact ⟨hrefl _ _, hrefl _ _, hrefl _ _, hrefl _ _, hrefl _ _⟩
  | sendNetworkEvent event =>
      simp only [step] at hstep
      split at hstep
      · obtain ⟨stream, hsent, rfl⟩ := Option.map_eq_some_iff.mp hstep
        exact ⟨hrefl _ _, hrefl _ _, hrefl _ _, hrefl _ _, hsend _ hsent⟩
      · cases hstep
        exact ⟨hrefl _ _, hrefl _ _, hrefl _ _, hrefl _ _, hrefl _ _⟩
  | execveEventWorker =>
      obtain ⟨stream, hmoved, rfl⟩ := Option.map_eq_some_iff.mp hstep
      exact ⟨hworker hmoved, hrefl _ _, hrefl _ _, hrefl _ _, hrefl _ _⟩
  | openEventWorker =>
      obtain ⟨stream, hmoved, rfl⟩ := Option.map_eq_some_iff.mp hstep
      exact ⟨hrefl _ _, hworker hmoved, hrefl _ _, hrefl _ _, hrefl _ _⟩
  | capabilitiesEventWorker =>
      obtain ⟨stream, hmoved, rfl⟩ := Option.map_eq_some_iff.mp hstep
      exact ⟨hrefl _ _, hrefl _ _, hworker hmoved, hrefl _ _, hrefl _ _⟩
  | dnsEventWorker =>
      obtain ⟨stream, hmoved, rfl⟩ := Option.map_eq_some_iff.mp hstep
      exact ⟨hrefl _ _, hrefl _ _, hrefl _ _, hworker hmoved, hrefl _ _⟩
  | networkEventWorker =>
      obtain ⟨stream, hmoved, rfl⟩ := Option.map_eq_some_iff.mp hstep
      exact ⟨hrefl _ _, hrefl _ _, hrefl _ _, hrefl _ _, hworker hmoved⟩

/-- No step of the tracers and the workers takes an event out of a bucket. -/
theorem prefix_step {sink next : EventSink} {op : Op} (hstep : sink.step op = some next)
    (key : String) :
    sink.execve.db.get key <+: next.execve.db.get key ∧
      sink.opens.db.get key <+: next.opens.db.get key ∧
      sink.capabilities.db.get key <+: next.capabilities.db.get key ∧
      sink.dns.db.get key <+: next.dns.db.get key ∧
      sink.network.db.get key <+: next.network.db.get key := by
  refine @step_streams (fun _ stream next => stream.db.get key <+: next.db.get key)
    ?_ ?_ ?_ sink next op hstep
  · intro Event bucketOf stream
    exact List.prefix_refl _
  · intro Event bucketOf stream sent event hsend
    rw [EventStream.send_db hsend]
  · intro Event bucketOf stream moved hworker
    exact EventStream.prefix_worker hworker key

/-- The tracers and the workers do not touch the filters. -/
theorem step_filters {sink next : EventSink} {op : Op} (hstep : sink.step op = some next) :
    next.filterEvents = sink.filterEvents ∧ next.eventFilters = sink.eventFilters := by
  cases op <;> simp only [step] at hstep
  case sendExecveEvent | sendOpenEvent | sendCapabilitiesEvent | sendDnsEvent |
      sendNetworkEvent =>
    split at hstep
    · obtain ⟨stream, _, rfl⟩ := Option.map_eq_some_iff.mp hstep
      exact ⟨rfl, rfl⟩
    · rw [← Option.some.inj hstep]
      exact ⟨rfl, rfl⟩
  all_goals
    obtain ⟨stream, _, rfl⟩ := Option.map_eq_some_iff.mp hstep
    exact ⟨rfl, rfl⟩

/-- Filters are added without touching the streams. -/
theorem addFilter_eq (sink : EventSink) (filter : EventSinkFilter) : ∃ eventFilters,
    sink.addFilter filter = { sink with eventFilters := eventFilters } := by
  unfold addFilter
  split
  · exact ⟨sink.eventFilters, rfl⟩
  · exact ⟨_, rfl⟩

end EventSink

end Kapprofiler
