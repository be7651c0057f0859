import Kapprofiler.Collector.Entries
import Kapprofiler.EventIsolation

/-! # Evidence on its way to a profile

An event that the sink accepts waits in a channel and then in a bucket, until a pass drains
it into a batch. Nothing else gets into a batch, apart from the syscalls that are peeked.
-/

namespace Kapprofiler

open Tracing Foundation

/-! ## The sink -/

/-- Every event in the stream has been seen, and those in a bucket belong there. -/
structure EventStream.AllSeen {Event : Type} (stream : EventStream Event) (seen : Event → Prop)
    (bucketOf : Event → String) : Prop where
  queued : ∀ event ∈ stream.channel, seen event
  stored : ∀ key, ∀ event ∈ stream.db.get key, seen event
  sorted : stream.Sorted bucketOf

namespace EventStream.AllSeen

variable {Event : Type} {stream next : EventStream Event} {seen : Event → Prop}
  {bucketOf : Event → String}

theorem new : (EventStream.new : EventStream Event).AllSeen seen bucketOf where
  queued event hevent := by cases hevent
  stored key event hevent := by cases hevent
  sorted := EventStream.sorted_new

theorem mono {seen' : Event → Prop} (hall : stream.AllSeen seen bucketOf)
    (hmono : ∀ event, seen event → seen' event) : stream.AllSeen seen' bucketOf where
  queued event hevent := hmono event (hall.queued event hevent)
  stored key event hevent := hmono event (hall.stored key event hevent)
  sorted := hall.sorted

theorem send {event : Event} (hall : stream.AllSeen seen bucketOf) (hseen : seen event)
    (hsend : stream.send event = some next) : next.AllSeen seen bucketOf where
  queued := by
    unfold EventStream.send at hsend
    split at hsend
    next =>
      obtain rfl := Option.some.inj hsend
      intro other hother
      rcases List.mem_append.mp hother with hold | hnew
      · exact hall.queued other hold
      · rw [List.mem_singleton.mp hnew]
        exact hseen
    next => cases hsend
  stored := by
    rw [send_db hsend]
    exact hall.stored
  sorted := hall.sorted.send hsend

/-- The worker moves the oldest queued event into its bucket. -/
theorem worker_cases (hworker : stream.worker bucketOf = some next) : ∃ oldest rest db,
    stream.channel = oldest :: rest ∧ stream.db.put (bucketOf oldest) oldest = some db ∧
      next = ⟨rest, db⟩ := by
  unfold EventStream.worker at hworker
  split at hworker
  next => cases hworker
  next oldest rest hchannel =>
    obtain ⟨db, hput, rfl⟩ := Option.map_eq_some_iff.mp hworker
    exact ⟨oldest, rest, db, hchannel, hput, rfl⟩

theorem worker (hall : stream.AllSeen seen bucketOf)
    (hworker : stream.worker bucketOf = some next) : next.AllSeen seen bucketOf := by
  have hsorted := hall.sorted.worker hworker
  obtain ⟨oldest, rest, db, hchannel, hput, rfl⟩ := worker_cases hworker
  have hqueued : ∀ event ∈ oldest :: rest, seen event := hchannel ▸ hall.queued
  refine ⟨fun event hevent => hqueued event (List.mem_cons_of_mem _ hevent), ?_, hsorted⟩
  intro key event hevent
  by_cases hkey : key = bucketOf oldest
  · subst hkey
    rw [InMemoryMapDB.get_put hput] at hevent
    rcases List.mem_append.mp hevent with hold | hnew
    · exact hall.stored _ event hold
    · rw [List.mem_singleton.mp hnew]
      exact hqueued oldest List.mem_cons_self
  · rw [InMemoryMapDB.get_put_of_ne hput hkey] at hevent
    exact hall.stored key event hevent

theorem getEvents (hall : stream.AllSeen seen bucketOf) (drained : String) :
    (stream.getEvents drained).2.AllSeen seen bucketOf where
  queued := hall.queued
  stored key event hevent := by
    change event ∈ (stream.db.getNClean drained).2.get key at hevent
    by_cases hkey : key = drained
    · subst hkey
      rw [InMemoryMapDB.get_getNClean] at hevent
      cases hevent
    · rw [InMemoryMapDB.get_getNClean_of_ne _ hkey] at hevent
      exact hall.stored key event hevent
  sorted := hall.sorted.getEvents drained

theorem seen_of_getEvents (hall : stream.AllSeen seen bucketOf) {key : String} {event : Event}
    (hevent : event ∈ (stream.getEvents key).1) : seen event ∧ bucketOf event = key := by
  refine ⟨?_, hall.sorted.bucketOf_of_getEvents hevent⟩
  apply hall.stored key event
  rw [← InMemoryMapDB.getNClean_fst]
  exact hevent

end EventStream.AllSeen

namespace Collector

variable {seen : Evidence → Prop}

/-- Every event in the sink has been seen. -/
structure SinkSeen (seen : Evidence → Prop) (sink : EventSink) : Prop where
  execve : sink.execve.AllSeen (fun event => seen (.execve event))
    fun event => event.names.bucket "execve"
  opens : sink.opens.AllSeen (fun event => seen (.opened event))
    fun event => event.names.bucket "open"
  capabilities : sink.capabilities.AllSeen (fun event => seen (.capabilities event))
    fun event => event.names.bucket "capabilities"
  dns : sink.dns.AllSeen (fun event => seen (.dns event))
    fun event => event.names.bucket "dns"
  network : sink.network.AllSeen (fun event => seen (.network event))
    fun event => event.names.bucket "network"

/-- The event that a step of the sink queues, if the filters let it pass. -/
def accepted (sink : EventSink) : EventSink.Op → List Evidence
  | .sendExecveEvent event =>
      if sink.accepts .execveEventType event.containerID then [.execve event] else []
  | .sendOpenEvent event =>
      if sink.accepts .openEventType event.containerID then [.opened event] else []
  | .sendCapabilitiesEvent event =>
      if sink.accepts .capabilitiesEventType event.containerID then [.capabilities event] else []
  | .sendDnsEvent event =>
      if sink.accepts .dnsEventType event.containerID then [.dns event] else []
  | .sendNetworkEvent event =>
      if sink.accepts .networkEventType event.containerID then [.network event] else []
  | .execveEventWorker | .openEventWorker | .capabilitiesEventWorker | .dnsEventWorker
  | .networkEventWorker => []

theorem SinkSeen.new (filterEvents : Bool) : SinkSeen seen (.new filterEvents) where
  execve := EventStream.AllSeen.new
  opens := EventStream.AllSeen.new
  capabilities := EventStream.AllSeen.new
  dns := EventStream.AllSeen.new
  network := EventStream.AllSeen.new

theorem SinkSeen.mono {seen' : Evidence → Prop} {sink : EventSink} (hsink : SinkSeen seen sink)
    (hmono : ∀ evidence, seen evidence → seen' evidence) : SinkSeen seen' sink where
  execve := hsink.execve.mono fun event => hmono (.execve event)
  opens := hsink.opens.mono fun event => hmono (.opened event)
  capabilities := hsink.capabilities.mono fun event => hmono (.capabilities event)
  dns := hsink.dns.mono fun event => hmono (.dns event)
  network := hsink.network.mono fun event => hmono (.network event)

theorem SinkSeen.step {sink next : EventSink} {op : EventSink.Op} (hsink : SinkSeen seen sink)
    (haccepted : ∀ evidence ∈ accepted sink op, seen evidence)
    (hstep : sink.step op = some next) : SinkSeen seen next := by
  cases op <;> simp only [EventSink.step, accepted] at hstep haccepted
  case sendExecveEvent event =>
    split at hstep
    next hpass =>
      rw [if_pos hpass] at haccepted
      obtain ⟨stream, hsent, rfl⟩ := Option.map_eq_some_iff.mp hstep
      exact { hsink with execve := hsink.execve.send (haccepted _ List.mem_cons_self) hsent }
    next => exact Option.some.inj hstep ▸ hsink
  case sendOpenEvent event =>
    split at hstep
    next hpass =>
      rw [if_pos hpass] at haccepted
      obtain ⟨stream, hsent, rfl⟩ := Option.map_eq_some_iff.mp hstep
      exact { hsink with opens := hsink.opens.send (haccepted _ List.mem_cons_self) hsent }
    next => exact Option.some.inj hstep ▸ hsink
  case sendCapabilitiesEvent event =>
    split at hstep
    next hpass =>
      rw [if_pos hpass] at haccepted
      obtain ⟨stream, hsent, rfl⟩ := Option.map_eq_some_iff.mp hstep
      exact { hsink with
        capabilities := hsink.capabilities.send (haccepted _ List.mem_cons_self) hsent }
    next => exact Option.some.inj hstep ▸ hsink
  case sendDnsEvent event =>
    split at hstep
    next hpass =>
      rw [if_pos hpass] at haccepted
      obtain ⟨stream, hsent, rfl⟩ := Option.map_eq_some_iff.mp hstep
      exact { hsink with dns := hsink.dns.send (haccepted _ List.mem_cons_self) hsent }
    next => exact Option.some.inj hstep ▸ hsink
  case sendNetworkEvent event =>
    split at hstep
    next hpass =>
      rw [if_pos hpass] at haccepted
      obtain ⟨stream, hsent, rfl⟩ := Option.map_eq_some_iff.mp hstep
      exact { hsink with network := hsink.network.send (haccepted _ List.mem_cons_self) hsent }
    next => exact Option.some.inj hstep ▸ hsink
  -- The workers only move what is in the stream.
  all_goals obtain ⟨stream, hmoved, rfl⟩ := Option.map_eq_some_iff.mp hstep
  case execveEventWorker => exact { hsink with execve := hsink.execve.worker hmoved }
  case openEventWorker => exact { hsink with opens := hsink.opens.worker hmoved }
  case capabilitiesEventWorker =>
    exact { hsink with capabilities := hsink.capabilities.worker hmoved }
  case dnsEventWorker => exact { hsink with dns := hsink.dns.worker hmoved }
  case networkEventWorker => exact { hsink with network := hsink.network.worker hmoved }

theorem SinkSeen.addFilter {sink : EventSink} (hsink : SinkSeen seen sink)
    (filter : EventSinkFilter) : SinkSeen seen (sink.addFilter filter) := by
  obtain ⟨eventFilters, heq⟩ := sink.addFilter_eq filter
  rw [heq]
  exact { hsink with }

theorem SinkSeen.removeFilter {sink : EventSink} (hsink : SinkSeen seen sink)
    (filter : EventSinkFilter) : SinkSeen seen (sink.removeFilter filter) :=
  { hsink with }

/-! ## A batch -/

/-- What the sink knows the container by. -/
def ContainerId.names (id : ContainerId) : ContainerNames :=
  ⟨id.nameSpace, id.podName, id.container⟩

/-- The sink takes the event for one of the container, as their names agree up to where the
hyphens fall, or a pass of the container has peeked the syscall. -/
def Evidence.Concerns (id : ContainerId) : Evidence → Prop
  | .execve event => event.names.segments = id.names.segments
  | .opened event => event.names.segments = id.names.segments
  | .capabilities event => event.names.segments = id.names.segments
  | .dns event => event.names.segments = id.names.segments
  | .network event => event.names.segments = id.names.segments
  | .syscall peekedFor _ => peekedFor = id

/-- A batch loaded for the container consists of evidence that concerns it. -/
def BatchSeen (seen : Evidence → Prop) (id : ContainerId) (batch : TotalEvents) : Prop :=
  ∀ evidence, batch.Contains id evidence → seen evidence ∧ evidence.Concerns id

/-- The syscalls that a peek for the container returns. -/
def peeked (id : ContainerId) : Except String (List String) → List Evidence
  | .ok syscalls => syscalls.map (.syscall id)
  | .error _ => []

theorem batchSeen_empty (id : ContainerId) : BatchSeen seen id {} := by
  intro evidence hcontains
  cases evidence with
  | syscall peekedFor name => cases hcontains.2
  | _ => cases hcontains

/-- Loading from one source adds the evidence that was waiting there. -/
theorem BatchSeen.load {id : ContainerId} {batch : TotalEvents} {sink : EventSink}
    {peek : Except String (List String)} {source : EventSource}
    (hbatch : BatchSeen seen id batch) (hsink : SinkSeen seen sink)
    (hpeek : source = .syscalls → ∀ evidence ∈ peeked id peek, seen evidence) :
    BatchSeen seen id (loadEvents id peek batch sink source).1 ∧
      SinkSeen seen (loadEvents id peek batch sink source).2 := by
  -- Buckets are named by joined names: what is drained agrees in the segments.
  have hnames : ∀ {names : ContainerNames} {kind : String},
      names.bucket kind = id.bucketOf kind → names.segments = id.names.segments :=
    fun hbucket => ContainerNames.bucket_eq_iff.mp hbucket
  cases source with
  | execve =>
      refine ⟨?_, { hsink with execve := hsink.execve.getEvents _ }⟩
      intro evidence hcontains
      cases evidence with
      | execve event =>
          obtain ⟨hseen, hbucket⟩ := hsink.execve.seen_of_getEvents hcontains
          exact ⟨hseen, hnames hbucket⟩
      | _ => exact hbatch _ hcontains
  | opens =>
      refine ⟨?_, { hsink with opens := hsink.opens.getEvents _ }⟩
      intro evidence hcontains
      cases evidence with
      | opened event =>
          obtain ⟨hseen, hbucket⟩ := hsink.opens.seen_of_getEvents hcontains
          exact ⟨hseen, hnames hbucket⟩
      | _ => exact hbatch _ hcontains
  | syscalls =>
      refine ⟨?_, hsink⟩
      intro evidence hcontains
      cases evidence with
      | syscall peekedFor name =>
          obtain ⟨rfl, hname⟩ := hcontains
          cases peek with
          | ok syscalls =>
              exact ⟨hpeek rfl _ (List.mem_map.mpr ⟨name, hname, rfl⟩), rfl⟩
          | error message => cases hname
      | _ => exact hbatch _ hcontains
  | capabilities =>
      refine ⟨?_, { hsink with capabilities := hsink.capabilities.getEvents _ }⟩
      intro evidence hcontains
      cases evidence with
      | capabilities event =>
          obtain ⟨hseen, hbucket⟩ := hsink.capabilities.seen_of_getEvents hcontains
          exact ⟨hseen, hnames hbucket⟩
      | _ => exact hbatch _ hcontains
  | dns =>
      refine ⟨?_, { hsink with dns := hsink.dns.getEvents _ }⟩
      intro evidence hcontains
      cases evidence with
      | dns event =>
          obtain ⟨hseen, hbucket⟩ := hsink.dns.seen_of_getEvents hcontains
          exact ⟨hseen, hnames hbucket⟩
      | _ => exact hbatch _ hcontains
  | network =>
      refine ⟨?_, { hsink with network := hsink.network.getEvents _ }⟩
      intro evidence hcontains
      cases evidence with
      | network event =>
          obtain ⟨hseen, hbucket⟩ := hsink.network.seen_of_getEvents hcontains
          exact ⟨hseen, hnames hbucket⟩
      | _ => exact hbatch _ hcontains

end Collector

end Kapprofiler
