import Kapprofiler.EventIsolation
import Kapprofiler.SliceMapDB

/-! # Every accepted event once and in order

The workers and the getters of `pkg/eventsink/es.go` over the buffers of their
databases. What a container's getter returned so far, what its bucket holds and what
is queued for it are, one after the other, the events that were accepted for it; and
the slices that were returned keep their content, whatever is put into the buckets
later.
-/

namespace Kapprofiler

open Tracing Foundation

/-! ## One stream of lists -/

/-- What a getter returned for a bucket. -/
structure Drained (Event : Type) where
  key : String
  events : List Event

namespace EventStream

variable {Event : Type} {stream next : EventStream Event} {bucketOf : Event → String}
  {accepted : List Event} {drained : List (Drained Event)}

/-- The events drained from a bucket, in it and queued for it are those accepted for it. -/
def Accounts (stream : EventStream Event) (bucketOf : Event → String) (accepted : List Event)
    (drained : List (Drained Event)) : Prop :=
  ∀ key, accepted.filter (bucketOf · = key) =
    (drained.filter (·.key = key)).flatMap Drained.events ++ stream.db.get key ++
      stream.channel.filter (bucketOf · = key)

theorem accounts_new : (new : EventStream Event).Accounts bucketOf [] [] := by
  intro key
  rfl

theorem Accounts.send {event : Event} (haccounts : stream.Accounts bucketOf accepted drained)
    (hsend : stream.send event = some next) :
    next.Accounts bucketOf (accepted ++ [event]) drained := by
  intro key
  unfold EventStream.send at hsend
  split at hsend
  next =>
    obtain rfl := Option.some.inj hsend
    rw [List.filter_append, haccounts key, List.filter_append]
    simp only [List.append_assoc]
  next => cases hsend

/-- The oldest queued event moves to the end of its bucket. -/
theorem Accounts.worker (haccounts : stream.Accounts bucketOf accepted drained)
    (hworker : stream.worker bucketOf = some next) :
    next.Accounts bucketOf accepted drained := by
  intro key
  unfold EventStream.worker at hworker
  split at hworker
  next => cases hworker
  next event rest hchannel =>
    obtain ⟨db, hput, rfl⟩ := Option.map_eq_some_iff.mp hworker
    rw [haccounts key, hchannel]
    by_cases hkey : key = bucketOf event
    · subst hkey
      simp [InMemoryMapDB.get_put hput]
    · simp [InMemoryMapDB.get_put_of_ne hput hkey, Ne.symm hkey]

/-- A drained bucket moves to the end of what was returned. -/
theorem Accounts.getEvents (haccounts : stream.Accounts bucketOf accepted drained)
    (bucket : String) :
    (stream.getEvents bucket).2.Accounts bucketOf accepted
      (drained ++ [⟨bucket, (stream.getEvents bucket).1⟩]) := by
  intro key
  rw [haccounts key]
  unfold EventStream.getEvents
  rw [InMemoryMapDB.getNClean_fst]
  by_cases hkey : key = bucket
  · subst hkey
    simp [InMemoryMapDB.get_getNClean]
  · simp [InMemoryMapDB.get_getNClean_of_ne _ hkey, Ne.symm hkey]

end EventStream

/-! ## The five streams -/

/-- The event types that the sink queues. -/
inductive EventKind
  | execve
  | opens
  | capabilities
  | dns
  | network
  deriving DecidableEq

namespace EventKind

def Event : EventKind → Type
  | .execve => ExecveEvent
  | .opens => OpenEvent
  | .capabilities => CapabilitiesEvent
  | .dns => DnsEvent
  | .network => NetworkEvent

def eventType : EventKind → EventType
  | .execve => .execveEventType
  | .opens => .openEventType
  | .capabilities => .capabilitiesEventType
  | .dns => .dnsEventType
  | .network => .networkEventType

/-- What the names of the type's buckets start with. -/
def name : EventKind → String
  | .execve => "execve"
  | .opens => "open"
  | .capabilities => "capabilities"
  | .dns => "dns"
  | .network => "network"

def general : (kind : EventKind) → kind.Event → GeneralEvent
  | .execve, event => ExecveEvent.toGeneralEvent event
  | .opens, event => OpenEvent.toGeneralEvent event
  | .capabilities, event => CapabilitiesEvent.toGeneralEvent event
  | .dns, event => DnsEvent.toGeneralEvent event
  | .network, event => NetworkEvent.toGeneralEvent event

/-- The bucket that the type's worker computes for an event. -/
def bucketOf (kind : EventKind) (event : kind.Event) : String :=
  (kind.general event).names.bucket kind.name

end EventKind

/-- The channel of one event type and the database its worker fills, with its buffers. -/
structure SliceStream (Event : Type) where
  channel : List Event
  db : SliceMapDB Event

/-- What a getter returned: the slice, and the events that were in it. -/
structure Returned (Event : Type) extends Drained Event where
  slice : Slice

namespace SliceStream

variable {Event : Type}

def new : SliceStream Event := ⟨[], .new 100⟩

def send (stream : SliceStream Event) (event : Event) : Option (SliceStream Event) :=
  if stream.channel.length < channelCapacity then
    some { stream with channel := stream.channel ++ [event] }
  else none

def worker (stream : SliceStream Event) (growth : Growth) (bucketOf : Event → String) :
    Option (SliceStream Event) :=
  match stream.channel with
  | [] => none
  | event :: rest => (stream.db.put growth (bucketOf event) event).map fun db => ⟨rest, db⟩

def getEvents (stream : SliceStream Event) (key : String) : Slice × SliceStream Event :=
  ((stream.db.getNClean key).1, { stream with db := (stream.db.getNClean key).2 })

/-- The stream has the content of the stream of lists, which accounts for all events, and
the slices that were returned are out of its reach. -/
structure Sound (stream : SliceStream Event) (lists : EventStream Event)
    (bucketOf : Event → String) (accepted : List Event) (returned : List (Returned Event)) :
    Prop where
  channel : stream.channel = lists.channel
  holds : stream.db.Holds lists.db
  accounts : lists.Accounts bucketOf accepted (returned.map Returned.toDrained)
  apart : stream.db.Apart fun slice => slice = .nil ∨ ∃ drained ∈ returned, drained.slice = slice
  unchanged : ∀ drained ∈ returned, stream.db.heap.read drained.slice = drained.events

variable {stream next : SliceStream Event} {lists : EventStream Event}
  {bucketOf : Event → String} {accepted : List Event} {returned : List (Returned Event)}

theorem sound_new : (new : SliceStream Event).Sound .new bucketOf [] [] where
  channel := rfl
  holds := SliceMapDB.new_holds 100
  accounts := EventStream.accounts_new
  apart := by
    intro m hm
    refine (SliceMapDB.new_apart 100 m hm).mono ?_
    rintro slice (rfl | ⟨drained, hdrained, _⟩)
    · rfl
    · cases hdrained
  unchanged := nofun

theorem Sound.send (hsound : stream.Sound lists bucketOf accepted returned) {event : Event}
    (hsend : stream.send event = some next) : ∃ nextLists,
      lists.send event = some nextLists ∧
        next.Sound nextLists bucketOf (accepted ++ [event]) returned := by
  unfold SliceStream.send at hsend
  split at hsend
  next hroom =>
    obtain rfl := Option.some.inj hsend
    have hlists : lists.send event =
        some { lists with channel := lists.channel ++ [event] } := by
      rw [EventStream.send, if_pos (hsound.channel ▸ hroom)]
    refine ⟨_, hlists, ?_⟩
    exact { hsound with
      channel := by rw [hsound.channel]
      accounts := hsound.accounts.send hlists }
  next => cases hsend

theorem Sound.worker (hsound : stream.Sound lists bucketOf accepted returned)
    {growth : Growth} (hworker : stream.worker growth bucketOf = some next) : ∃ nextLists,
      lists.worker bucketOf = some nextLists ∧
        next.Sound nextLists bucketOf accepted returned := by
  unfold SliceStream.worker at hworker
  cases hchannel : stream.channel with
  | nil => simp [hchannel] at hworker
  | cons event rest =>
      simp only [hchannel] at hworker
      obtain ⟨db, hput, rfl⟩ := Option.map_eq_some_iff.mp hworker
      obtain ⟨⟨listsDb, hlistsPut, hholds⟩, hapart, hsame⟩ :=
        SliceMapDB.put_spec hsound.holds hsound.apart growth hput
      have hlists : lists.worker bucketOf = some ⟨rest, listsDb⟩ := by
        rw [EventStream.worker, ← hsound.channel, hchannel]
        simp only [hlistsPut, Option.map_some]
      refine ⟨_, hlists, rfl, hholds, hsound.accounts.worker hlists, hapart, ?_⟩
      intro drained hdrained
      rw [hsame drained.slice (.inr ⟨drained, hdrained, rfl⟩)]
      exact hsound.unchanged drained hdrained

theorem Sound.getEvents (hsound : stream.Sound lists bucketOf accepted returned)
    (key : String) :
    (stream.getEvents key).2.Sound (lists.getEvents key).2 bucketOf accepted
      (returned ++ [{
        key := key
        events := stream.db.heap.read (stream.getEvents key).1
        slice := (stream.getEvents key).1 }]) := by
  obtain ⟨hread, hholds, hapart, hsame⟩ :=
    SliceMapDB.getNClean_spec hsound.holds hsound.apart (.inl rfl) key
  refine ⟨hsound.channel, hholds, ?_, ?_, ?_⟩
  · have haccounts := hsound.accounts.getEvents key
    rw [List.map_append, List.map_singleton]
    unfold SliceStream.getEvents
    rw [hread]
    exact haccounts
  · intro m hm
    refine (hapart m hm).mono ?_
    rintro slice (hnil | ⟨drained, hdrained, rfl⟩)
    · exact .inl (.inl hnil)
    · rcases List.mem_append.mp hdrained with hbefore | hlast
      · exact .inl (.inr ⟨drained, hbefore, rfl⟩)
      · rw [List.mem_singleton.mp hlast]
        exact .inr rfl
  · intro drained hdrained
    rw [SliceStream.getEvents, hsame]
    rcases List.mem_append.mp hdrained with hbefore | hlast
    · exact hsound.unchanged drained hbefore
    · rw [List.mem_singleton.mp hlast]

end SliceStream

/-! ## The sink -/

/-- The sink with the buffers of its databases. -/
structure SliceSink where
  filterEvents : Bool
  eventFilters : List EventSinkFilter
  stream : (kind : EventKind) → SliceStream kind.Event

namespace EventSink

def stream (sink : EventSink) : (kind : EventKind) → EventStream kind.Event
  | .execve => sink.execve
  | .opens => sink.opens
  | .capabilities => sink.capabilities
  | .dns => sink.dns
  | .network => sink.network

def setStream (sink : EventSink) : (kind : EventKind) → EventStream kind.Event → EventSink
  | .execve, stream => { sink with execve := stream }
  | .opens, stream => { sink with opens := stream }
  | .capabilities, stream => { sink with capabilities := stream }
  | .dns, stream => { sink with dns := stream }
  | .network, stream => { sink with network := stream }

/-- `Send*Event` of the type. -/
def Call.sendEvent : (kind : EventKind) → kind.Event → Call
  | .execve, event => .op (.sendExecveEvent event)
  | .opens, event => .op (.sendOpenEvent event)
  | .capabilities, event => .op (.sendCapabilitiesEvent event)
  | .dns, event => .op (.sendDnsEvent event)
  | .network, event => .op (.sendNetworkEvent event)

/-- An iteration of the type's worker. -/
def Call.worker : EventKind → Call
  | .execve => .op .execveEventWorker
  | .opens => .op .openEventWorker
  | .capabilities => .op .capabilitiesEventWorker
  | .dns => .op .dnsEventWorker
  | .network => .op .networkEventWorker

/-- `Get*Events` of the type. -/
def Call.getEvents : EventKind → ContainerNames → Call
  | .execve, names => .getExecveEvents names
  | .opens, names => .getOpenEvents names
  | .capabilities, names => .getCapabilitiesEvents names
  | .dns, names => .getDnsEvents names
  | .network, names => .getNetworkEvents names

variable (sink : EventSink) (kind : EventKind)

theorem stream_setStream (stream : EventStream kind.Event) :
    (sink.setStream kind stream).stream kind = stream := by
  cases kind <;> rfl

theorem stream_setStream_of_ne {other : EventKind} (hne : other ≠ kind)
    (stream : EventStream kind.Event) :
    (sink.setStream kind stream).stream other = sink.stream other := by
  cases kind <;> cases other <;> first | rfl | exact absurd rfl hne

theorem setStream_filterEvents (stream : EventStream kind.Event) :
    (sink.setStream kind stream).filterEvents = sink.filterEvents := by
  cases kind <;> rfl

theorem setStream_eventFilters (stream : EventStream kind.Event) :
    (sink.setStream kind stream).eventFilters = sink.eventFilters := by
  cases kind <;> rfl

theorem call_sendEvent (event : kind.Event) : sink.call (.sendEvent kind event) =
    if sink.accepts kind.eventType (kind.general event).containerID then
      ((sink.stream kind).send event).map (sink.setStream kind)
    else some sink := by
  cases kind <;> rfl

theorem call_worker : sink.call (.worker kind) =
    ((sink.stream kind).worker kind.bucketOf).map (sink.setStream kind) := by
  cases kind <;> rfl

theorem call_getEvents (names : ContainerNames) : sink.call (.getEvents kind names) =
    some (sink.setStream kind ((sink.stream kind).getEvents (names.bucket kind.name)).2) := by
  cases kind <;> rfl

end EventSink

namespace SliceSink

/-- An empty sink, as `NewEventSink` and `Start` leave it. -/
def new (filterEvents : Bool) : SliceSink := ⟨filterEvents, [], fun _ => .new⟩

/-- The filters, with nothing in the streams. -/
def filters (sink : SliceSink) : EventSink :=
  { EventSink.new sink.filterEvents with eventFilters := sink.eventFilters }

def accepts (sink : SliceSink) (kind : EventKind) (event : kind.Event) : Bool :=
  sink.filters.accepts kind.eventType (kind.general event).containerID

def setStream (sink : SliceSink) (kind : EventKind) (stream : SliceStream kind.Event) :
    SliceSink :=
  { sink with stream := Function.update sink.stream kind stream }

/-- `Send*Event` queues an event that passes the filters. -/
def sendEvent (sink : SliceSink) (kind : EventKind) (event : kind.Event) : Option SliceSink :=
  if sink.accepts kind event then ((sink.stream kind).send event).map (sink.setStream kind)
  else some sink

def worker (sink : SliceSink) (growth : Growth) (kind : EventKind) : Option SliceSink :=
  ((sink.stream kind).worker growth kind.bucketOf).map (sink.setStream kind)

def getEvents (sink : SliceSink) (kind : EventKind) (names : ContainerNames) :
    Slice × SliceSink :=
  let drained := (sink.stream kind).getEvents (names.bucket kind.name)
  (drained.1, sink.setStream kind drained.2)

def addFilter (sink : SliceSink) (filter : EventSinkFilter) : SliceSink :=
  { sink with eventFilters := (sink.filters.addFilter filter).eventFilters }

def removeFilter (sink : SliceSink) (filter : EventSinkFilter) : SliceSink :=
  { sink with eventFilters := (sink.filters.removeFilter filter).eventFilters }

/-- What happens to a sink that is neither stopped nor closed. -/
inductive Label
  | sendEvent (kind : EventKind) (event : kind.Event)
  | worker (kind : EventKind)
  | getEvents (kind : EventKind) (names : ContainerNames)
  | addFilter (filter : EventSinkFilter)
  | removeFilter (filter : EventSinkFilter)

/-- The same of the sink of lists. -/
def Label.call : Label → EventSink.Call
  | .sendEvent kind event => .sendEvent kind event
  | .worker kind => .worker kind
  | .getEvents kind names => .getEvents kind names
  | .addFilter filter => .addFilter filter
  | .removeFilter filter => .removeFilter filter

/-- A sink with the record of the events it accepted and the slices it returned. -/
structure Observed where
  sink : SliceSink
  accepted : (kind : EventKind) → List kind.Event
  returned : (kind : EventKind) → List (Returned kind.Event)

namespace Observed

def start (filterEvents : Bool) : Observed := ⟨.new filterEvents, fun _ => [], fun _ => []⟩

def step (growth : Growth) (observed : Observed) : Label → Option Observed
  | .sendEvent kind event => (observed.sink.sendEvent kind event).map fun sink =>
      { observed with
        sink := sink
        accepted := if observed.sink.accepts kind event then
          Function.update observed.accepted kind (observed.accepted kind ++ [event])
          else observed.accepted }
  | .worker kind => (observed.sink.worker growth kind).map fun sink =>
      { observed with sink := sink }
  | .getEvents kind names =>
      let drained := observed.sink.getEvents kind names
      some { observed with
        sink := drained.2
        returned := Function.update observed.returned kind (observed.returned kind ++ [{
          key := names.bucket kind.name
          events := (observed.sink.stream kind).db.heap.read drained.1
          slice := drained.1 }]) }
  | .addFilter filter => some { observed with sink := observed.sink.addFilter filter }
  | .removeFilter filter => some { observed with sink := observed.sink.removeFilter filter }

def machine (growth : Growth) : Machine Observed Label where
  init observed := ∃ filterEvents, observed = start filterEvents
  step := step growth

/-- The sink has the content of the sink of lists, and the record accounts for it. -/
structure Sound (observed : Observed) (lists : EventSink) : Prop where
  filterEvents : observed.sink.filterEvents = lists.filterEvents
  eventFilters : observed.sink.eventFilters = lists.eventFilters
  stream : ∀ kind, (observed.sink.stream kind).Sound (lists.stream kind) kind.bucketOf
    (observed.accepted kind) (observed.returned kind)

theorem sound_start (filterEvents : Bool) : (start filterEvents).Sound (.new filterEvents) where
  filterEvents := rfl
  eventFilters := rfl
  stream := by
    intro kind
    cases kind <;> exact SliceStream.sound_new

variable {observed next : Observed} {lists : EventSink}

theorem Sound.accepts (hsound : observed.Sound lists) (kind : EventKind) (event : kind.Event) :
    observed.sink.accepts kind event =
      lists.accepts kind.eventType (kind.general event).containerID := by
  unfold SliceSink.accepts EventSink.accepts SliceSink.filters
  rw [← hsound.filterEvents, ← hsound.eventFilters]
  rfl

/-- A step of one stream leaves the four others as they are. -/
theorem Sound.setStream (hsound : observed.Sound lists) {kind : EventKind}
    {stream : SliceStream kind.Event} {listsStream : EventStream kind.Event}
    {accepted : List kind.Event} {returned : List (Returned kind.Event)}
    (hstream : stream.Sound listsStream kind.bucketOf accepted returned) :
    Sound {
      sink := observed.sink.setStream kind stream
      accepted := Function.update observed.accepted kind accepted
      returned := Function.update observed.returned kind returned }
      (lists.setStream kind listsStream) where
  filterEvents := by
    rw [EventSink.setStream_filterEvents]
    exact hsound.filterEvents
  eventFilters := by
    rw [EventSink.setStream_eventFilters]
    exact hsound.eventFilters
  stream := by
    intro other
    unfold SliceSink.setStream
    by_cases hother : other = kind
    · subst hother
      simp only [Function.update_self, EventSink.stream_setStream]
      exact hstream
    · simp only [Function.update_of_ne hother, EventSink.stream_setStream_of_ne lists kind hother]
      exact hsound.stream other

/-- A step is the same step of the sink of lists, and the record keeps accounting for it. -/
theorem Sound.step (hsound : observed.Sound lists) {growth : Growth} {label : Label}
    (hstep : observed.step growth label = some next) :
    ∃ nextLists, lists.call label.call = some nextLists ∧ next.Sound nextLists := by
  cases label with
  | sendEvent kind event =>
      obtain ⟨sink, hsend, rfl⟩ := Option.map_eq_some_iff.mp hstep
      rw [Label.call, EventSink.call_sendEvent, ← hsound.accepts kind event]
      unfold SliceSink.sendEvent at hsend
      split at hsend
      next haccepts =>
        obtain ⟨stream, hstream, rfl⟩ := Option.map_eq_some_iff.mp hsend
        -- The send on slices succeeds where that on lists does.
        obtain ⟨listsStream, hlists, hnext⟩ := (hsound.stream kind).send hstream
        refine ⟨lists.setStream kind listsStream, ?_, ?_⟩
        · rw [if_pos haccepts, hlists, Option.map_some]
        · have hset := hsound.setStream hnext
          rw [Function.update_eq_self] at hset
          rw [if_pos haccepts]
          exact hset
      next haccepts =>
        obtain rfl := Option.some.inj hsend
        exact ⟨lists, by rw [if_neg haccepts], by rw [if_neg haccepts]; exact hsound⟩
  | worker kind =>
      obtain ⟨sink, hworker, rfl⟩ := Option.map_eq_some_iff.mp hstep
      obtain ⟨stream, hstream, rfl⟩ := Option.map_eq_some_iff.mp hworker
      obtain ⟨listsStream, hlists, hnext⟩ := (hsound.stream kind).worker hstream
      refine ⟨lists.setStream kind listsStream, ?_, ?_⟩
      · rw [Label.call, EventSink.call_worker, hlists, Option.map_some]
      · have hset := hsound.setStream hnext
        rw [Function.update_eq_self, Function.update_eq_self] at hset
        exact hset
  | getEvents kind names =>
      obtain rfl := Option.some.inj hstep
      have hnext := (hsound.stream kind).getEvents (names.bucket kind.name)
      refine ⟨_, EventSink.call_getEvents lists kind names, ?_⟩
      have hset := hsound.setStream hnext
      rw [Function.update_eq_self] at hset
      exact hset
  | addFilter filter =>
      obtain rfl := Option.some.inj hstep
      refine ⟨lists.addFilter filter, rfl, ?_⟩
      obtain ⟨eventFilters, heq⟩ := lists.addFilter_eq filter
      constructor
      · rw [heq]
        exact hsound.filterEvents
      · change (observed.sink.filters.addFilter filter).eventFilters = _
        unfold EventSink.addFilter SliceSink.filters
        simp only [hsound.eventFilters]
        split <;> rfl
      · intro kind
        rw [heq]
        exact hsound.stream kind
  | removeFilter filter =>
      obtain rfl := Option.some.inj hstep
      refine ⟨lists.removeFilter filter, rfl, hsound.filterEvents, ?_, hsound.stream⟩
      change (observed.sink.filters.removeFilter filter).eventFilters = _
      unfold EventSink.removeFilter SliceSink.filters
      rw [← hsound.eventFilters]

/-- A run of the sink is a run of the sink of lists. -/
theorem sound_run {growth : Growth} {filterEvents : Bool} {labels : List Label}
    (hrun : (machine growth).run (start filterEvents) labels = some observed) :
    ∃ lists, EventSink.machine.run (.new filterEvents) (labels.map Label.call) = some lists ∧
      observed.Sound lists := by
  refine (machine growth).run_history_invariant
    (fun labels observed => ∃ lists,
      EventSink.machine.run (.new filterEvents) (labels.map Label.call) = some lists ∧
        observed.Sound lists) ?_ ?_ hrun
  · exact ⟨.new filterEvents, rfl, sound_start filterEvents⟩
  · rintro before observed label next _ ⟨lists, hbefore, hsound⟩ hstep
    obtain ⟨nextLists, hcall, hnext⟩ := hsound.step hstep
    refine ⟨nextLists, ?_, hnext⟩
    rw [List.map_append, Machine.run_append]
    exact ⟨lists, hbefore, Machine.run_cons _ |>.mpr ⟨nextLists, hcall, rfl⟩⟩

/-- What the getters returned for a bucket, what the bucket holds and what is queued for it
are the events accepted for it, each once and in order, and no slice that was returned has
changed since. -/
structure Delivered (observed : Observed) (kind : EventKind) : Prop where
  once_in_order : ∀ key, (observed.accepted kind).filter (kind.bucketOf · = key) =
    ((observed.returned kind).filter (·.key = key)).flatMap (·.events) ++
      (observed.sink.stream kind).db.get key ++
      (observed.sink.stream kind).channel.filter (kind.bucketOf · = key)
  unchanged : ∀ drained ∈ observed.returned kind,
    (observed.sink.stream kind).db.heap.read drained.slice = drained.events

/-- However sends, workers and getters interleave. -/
theorem delivered_of_run {growth : Growth} {filterEvents : Bool} {labels : List Label}
    (hrun : (machine growth).run (start filterEvents) labels = some observed)
    (kind : EventKind) : observed.Delivered kind := by
  obtain ⟨lists, _, hsound⟩ := sound_run hrun
  have hstream := hsound.stream kind
  refine ⟨?_, hstream.unchanged⟩
  intro key
  have haccounts := hstream.accounts key
  rw [hstream.holds.get key, hstream.channel, haccounts, List.filter_map, List.flatMap_map]
  rfl

/-- A full array is replaced by one with twice its room. -/
def doubling : Growth := ⟨fun full => 2 * full + 1, fun full => by omega⟩

/-- Two execs of a container are drained, and a third one is put into the bucket later. -/
def redisRun : List Label :=
  let redis : ContainerNames := ⟨"default", "redis", "cache"⟩
  [.sendEvent .execve (EventSink.execOf redis), .worker .execve,
    .sendEvent .execve (EventSink.execOf redis), .worker .execve, .getEvents .execve redis,
    .sendEvent .execve (EventSink.execOf redis), .worker .execve]

theorem redis_execs_delivered : ∃ last,
    (machine doubling).run (start false) redisRun = some last ∧
      (last.returned .execve).map (·.events.length) = [2] ∧
      (last.accepted .execve).length = 3 ∧ last.Delivered .execve := by
  have hends : ((machine doubling).run (start false) redisRun).map (fun last =>
      decide ((last.returned .execve).map (·.events.length) = [2] ∧
        (last.accepted .execve).length = 3)) = some true := by
    decide
  obtain ⟨last, hrun, hlast⟩ := Option.map_eq_some_iff.mp hends
  obtain ⟨hreturned, haccepted⟩ := of_decide_eq_true hlast
  exact ⟨last, hrun, hreturned, haccepted, delivered_of_run hrun .execve⟩

end Observed

end SliceSink

end Kapprofiler
