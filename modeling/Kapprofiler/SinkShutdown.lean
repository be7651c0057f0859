import Mathlib.Data.List.Infix
import Kapprofiler.EventDelivery

/-! # Shutting down the sink

`Stop` closes the channels of the sink and `Close` sets the maps of its databases to nil,
both without waiting for anyone: a worker goes on with the events that are still queued,
and puts them into a map that may be nil by then, and a `Send*Event` that waits for room
finds its channel closed.
-/

namespace Kapprofiler

open Tracing Foundation

/-- A step waits, kills the process, or is taken. -/
inductive Outcome (State : Type)
  | blocked
  | panic
  | next (state : State)

namespace Outcome

variable {State Other : Type}

def map (f : State → Other) : Outcome State → Outcome Other
  | .blocked => .blocked
  | .panic => .panic
  | .next state => .next (f state)

def toOption : Outcome State → Option State
  | .blocked | .panic => none
  | .next state => some state

theorem toOption_eq_some {outcome : Outcome State} {state : State} :
    outcome.toOption = some state ↔ outcome = .next state := by
  cases outcome <;> simp [toOption]

theorem map_eq_next {f : State → Other} {outcome : Outcome State} {other : Other} :
    outcome.map f = .next other ↔ ∃ state, outcome = .next state ∧ f state = other := by
  cases outcome <;> simp [map]

theorem map_eq_panic {f : State → Other} {outcome : Outcome State} :
    outcome.map f = .panic ↔ outcome = .panic := by
  cases outcome <;> simp [map]

end Outcome

/-! ## One event type -/

namespace EventStream

variable {Event : Type}

/-- A worker takes the oldest event out of its channel. -/
def receive (stream : EventStream Event) : Option (Event × EventStream Event) :=
  match stream.channel with
  | [] => none
  | event :: rest => some (event, { stream with channel := rest })

/-- A worker puts an event that it has received into its bucket. -/
def put (stream : EventStream Event) (key : String) (event : Event) :
    Option (EventStream Event) :=
  (stream.db.put key event).map fun db => { stream with db := db }

/-- An iteration of a worker is the two together. -/
theorem worker_eq_receive_put (stream : EventStream Event) (bucketOf : Event → String) :
    stream.worker bucketOf =
      stream.receive.bind fun received => received.2.put (bucketOf received.1) received.1 := by
  unfold worker receive put
  cases stream.channel <;> rfl

end EventStream

/-- The stream of an event type, with the calls of its `Send*Event` that have passed the
filters and wait for room, and the event that its worker has received last. -/
structure Lane (Event : Type) where
  stream : EventStream Event
  sending : List Event
  received : Option Event
  channelClosed : Bool

namespace Lane

variable {Event : Type}

def new : Lane Event := ⟨.new, [], none, false⟩

def sendEvent (lane : Lane Event) (event : Event) : Lane Event :=
  { lane with sending := lane.sending ++ [event] }

/-- One of the waiting calls sends on the channel, which panics if it is closed. -/
def queueEvent (lane : Lane Event) (index : Nat) : Outcome (Lane Event) :=
  match lane.sending[index]? with
  | none => .blocked
  | some event =>
      if lane.channelClosed then .panic
      else match lane.stream.send event with
        | none => .blocked
        | some stream => .next
            { lane with stream := stream, sending := lane.sending.eraseIdx index }

def receive (lane : Lane Event) : Outcome (Lane Event) :=
  match lane.received with
  | some _ => .blocked
  | none =>
      match lane.stream.receive with
      -- of a closed channel, this is the end of the worker
      | none => .blocked
      | some received => .next { lane with stream := received.2, received := some received.1 }

def put (lane : Lane Event) (bucketOf : Event → String) : Outcome (Lane Event) :=
  match lane.received with
  | none => .blocked
  | some event =>
      match lane.stream.put (bucketOf event) event with
      | none => .panic
      | some stream => .next { lane with stream := stream, received := none }

def getEvents (lane : Lane Event) (key : String) : Lane Event :=
  { lane with stream := (lane.stream.getEvents key).2 }

def delete (lane : Lane Event) (key : String) : Lane Event :=
  { lane with stream := lane.stream.delete key }

/-- Closing a closed channel panics. -/
def closeChannel (lane : Lane Event) : Outcome (Lane Event) :=
  if lane.channelClosed then .panic else .next { lane with channelClosed := true }

def closeDB (lane : Lane Event) : Lane Event := { lane with stream := lane.stream.close }

/-- Nobody waits to send on a closed channel, and there is nothing left for a nil map. -/
structure Quiet (lane : Lane Event) : Prop where
  sending : lane.channelClosed = true → lane.sending = []
  drained : lane.stream.db.m = none → lane.stream.channel = [] ∧ lane.received = none

end Lane

/-! ## The sink -/

/-- What the calls of `Stop` and `Close` do, one after the other. -/
inductive ShutdownStep
  | closeChannel (kind : EventKind)
  | closeDB (kind : EventKind)
  deriving DecidableEq

def EventKind.all : List EventKind := [.execve, .opens, .capabilities, .dns, .network]

/-- One call of `Stop`, and one of `Close` after it. -/
def shutdownSteps : List ShutdownStep :=
  EventKind.all.map .closeChannel ++ EventKind.all.map .closeDB

/-- A sink, and the rest of its shutdown. -/
structure StoppableSink where
  filterEvents : Bool
  eventFilters : List EventSinkFilter
  lane : (kind : EventKind) → Lane kind.Event
  remaining : List ShutdownStep

namespace StoppableSink

/-- The sink as `Start` leaves it. -/
def start (filterEvents : Bool) : StoppableSink :=
  ⟨filterEvents, [], fun _ => .new, shutdownSteps⟩

/-- The filters, with nothing in the streams. -/
def filters (sink : StoppableSink) : EventSink :=
  { EventSink.new sink.filterEvents with eventFilters := sink.eventFilters }

def setLane (sink : StoppableSink) (kind : EventKind) (lane : Lane kind.Event) :
    StoppableSink :=
  { sink with lane := Function.update sink.lane kind lane }

inductive Label
  | sendEvent (kind : EventKind) (event : kind.Event)
  | queueEvent (kind : EventKind) (index : Nat)
  | receive (kind : EventKind)
  | put (kind : EventKind)
  | getEvents (kind : EventKind) (names : ContainerNames)
  | cleanupContainer (names : ContainerNames)
  | addFilter (filter : EventSinkFilter)
  | removeFilter (filter : EventSinkFilter)
  | shutdown

def outcome (sink : StoppableSink) : Label → Outcome StoppableSink
  | .sendEvent kind event =>
      -- nobody calls `Send*Event` any more once `Stop` is called
      if sink.remaining = shutdownSteps then
        if sink.filters.accepts kind.eventType (kind.general event).containerID then
          .next (sink.setLane kind ((sink.lane kind).sendEvent event))
        else .next sink
      else .blocked
  | .queueEvent kind index => ((sink.lane kind).queueEvent index).map (sink.setLane kind)
  | .receive kind => (sink.lane kind).receive.map (sink.setLane kind)
  | .put kind => ((sink.lane kind).put kind.bucketOf).map (sink.setLane kind)
  | .getEvents kind names =>
      .next (sink.setLane kind ((sink.lane kind).getEvents (names.bucket kind.name)))
  | .cleanupContainer names =>
      .next { sink with lane := fun kind => (sink.lane kind).delete (names.bucket kind.name) }
  | .addFilter filter =>
      .next { sink with eventFilters := (sink.filters.addFilter filter).eventFilters }
  | .removeFilter filter =>
      .next { sink with eventFilters := (sink.filters.removeFilter filter).eventFilters }
  | .shutdown =>
      match sink.remaining with
      | [] => .blocked
      | .closeChannel kind :: rest =>
          (sink.lane kind).closeChannel.map fun lane =>
            { sink.setLane kind lane with remaining := rest }
      | .closeDB kind :: rest =>
          .next { sink.setLane kind (sink.lane kind).closeDB with remaining := rest }

def machine : Machine StoppableSink Label where
  init sink := ∃ filterEvents, sink = start filterEvents
  step sink label := (sink.outcome label).toOption

/-- Until `Stop` or `Close` goes on, no step panics, whatever is done in whatever order. -/
def Calm (sink : StoppableSink) : Prop :=
  ∀ (labels : List Label) (last : StoppableSink) (label : Label),
    (∀ other ∈ labels, other ≠ .shutdown) → machine.run sink labels = some last →
    last.outcome label ≠ .panic

/-- A channel may be closed when nobody waits to send on it, and a map may be set to nil when
the channel is drained and the worker has put what it has received. -/
def DrainedFor (sink : StoppableSink) : ShutdownStep → Prop
  | .closeChannel kind => (sink.lane kind).sending = []
  | .closeDB kind => (sink.lane kind).stream.channel = [] ∧ (sink.lane kind).received = none

/-- The condition on a step: `Stop` and `Close` go on when they may. -/
def Drained (sink : StoppableSink) : Label → Prop
  | .shutdown => ∀ step ∈ sink.remaining.head?, sink.DrainedFor step
  | _ => True

instance (sink : StoppableSink) : DecidablePred sink.DrainedFor
  | .closeChannel _ => inferInstanceAs (Decidable (_ = []))
  | .closeDB _ => inferInstanceAs (Decidable (_ = [] ∧ _ = none))

instance (sink : StoppableSink) : DecidablePred sink.Drained
  | .shutdown => inferInstanceAs (Decidable (∀ step ∈ sink.remaining.head?, sink.DrainedFor step))
  | .sendEvent _ _ | .queueEvent _ _ | .receive _ | .put _ | .getEvents _ _
  | .cleanupContainer _ | .addFilter _ | .removeFilter _ => .isTrue trivial

end StoppableSink

/-! ## What a step does to its event type -/

namespace Lane

variable {Event : Type} {lane next : Lane Event}

/-- The step neither closes the channel nor the database, and leaves a quiet lane quiet if the
channel is closed before the database. -/
structure Kept (lane next : Lane Event) : Prop where
  channelClosed : next.channelClosed = lane.channelClosed
  dbClosed : next.stream.db.m = none ↔ lane.stream.db.m = none
  quiet : (lane.stream.db.m = none → lane.channelClosed = true) → lane.Quiet → next.Quiet

theorem Kept.refl (lane : Lane Event) : lane.Kept lane := ⟨rfl, Iff.rfl, fun _ hquiet => hquiet⟩

theorem kept_sendEvent (hopen : lane.channelClosed = false) (event : Event) :
    lane.Kept (lane.sendEvent event) := by
  refine ⟨rfl, Iff.rfl, fun horder hquiet => ⟨fun hclosed => ?_, hquiet.drained⟩⟩
  cases hopen.symm.trans hclosed

theorem kept_queueEvent {index : Nat} (hstep : lane.queueEvent index = .next next) :
    lane.Kept next := by
  unfold queueEvent at hstep
  split at hstep
  next => cases hstep
  next event _ =>
    split at hstep
    next => cases hstep
    next hopen =>
      split at hstep
      next => cases hstep
      next stream hsend =>
        cases hstep
        have hdb := EventStream.send_db hsend
        refine ⟨rfl, by rw [hdb], fun horder _ => ⟨fun hclosed => absurd hclosed hopen, ?_⟩⟩
        intro hnil
        exact absurd (horder (hdb ▸ hnil)) hopen

theorem kept_receive (hstep : lane.receive = .next next) : lane.Kept next := by
  unfold receive EventStream.receive at hstep
  split at hstep
  next => cases hstep
  next =>
    cases hchannel : lane.stream.channel with
    | nil =>
        rw [hchannel] at hstep
        cases hstep
    | cons event rest =>
        rw [hchannel] at hstep
        cases hstep
        refine ⟨rfl, Iff.rfl, fun _ hquiet => ⟨hquiet.sending, fun hnil => ?_⟩⟩
        have hempty := (hquiet.drained hnil).1
        rw [hchannel] at hempty
        cases hempty

theorem kept_put {bucketOf : Event → String} (hstep : lane.put bucketOf = .next next) :
    lane.Kept next := by
  unfold put EventStream.put at hstep
  split at hstep
  next => cases hstep
  next event _ =>
    split at hstep
    next => cases hstep
    next stream hput =>
      cases hstep
      obtain ⟨db, hdb, rfl⟩ := Option.map_eq_some_iff.mp hput
      obtain ⟨m, hm, rfl⟩ := Option.map_eq_some_iff.mp hdb
      refine ⟨rfl, by simp [hm], fun _ hquiet => ⟨hquiet.sending, fun hnil => ?_⟩⟩
      cases hnil

theorem kept_getEvents (lane : Lane Event) (key : String) : lane.Kept (lane.getEvents key) := by
  have hdb : (lane.getEvents key).stream.db.m = none ↔ lane.stream.db.m = none := by
    simp only [getEvents, EventStream.getEvents, InMemoryMapDB.getNClean]
    split
    next hnil => simp [hnil]
    next m hm => split <;> simp [hm]
  exact ⟨rfl, hdb, fun _ hquiet => ⟨hquiet.sending, fun hnil => hquiet.drained (hdb.mp hnil)⟩⟩

theorem kept_delete (lane : Lane Event) (key : String) : lane.Kept (lane.delete key) := by
  have hdb : (lane.delete key).stream.db.m = none ↔ lane.stream.db.m = none :=
    Option.map_eq_none_iff
  exact ⟨rfl, hdb, fun _ hquiet => ⟨hquiet.sending, fun hnil => hquiet.drained (hdb.mp hnil)⟩⟩

/-- Only a call that waits to send on a closed channel panics, -/
theorem queueEvent_eq_panic {index : Nat} (hstep : lane.queueEvent index = .panic) :
    lane.channelClosed = true ∧ lane.sending ≠ [] := by
  unfold queueEvent at hstep
  split at hstep
  next => cases hstep
  next event hevent =>
    split at hstep
    next hclosed =>
      refine ⟨hclosed, fun hempty => ?_⟩
      rw [hempty] at hevent
      cases hevent
    next => split at hstep <;> cases hstep

/-- and a worker with an event for a nil map. -/
theorem put_eq_panic_iff {bucketOf : Event → String} :
    lane.put bucketOf = .panic ↔ lane.stream.db.m = none ∧ lane.received ≠ none := by
  unfold put EventStream.put InMemoryMapDB.put
  cases lane.received with
  | none => simp
  | some event => cases lane.stream.db.m <;> simp

end Lane

/-! ## What a step does to the sink -/

namespace StoppableSink

variable {sink next : StoppableSink} {label : Label}

theorem setLane_lane (lane : Lane kind.Event) : (sink.setLane kind lane).lane kind = lane :=
  Function.update_self ..

theorem setLane_lane_of_ne {kind other : EventKind} (hne : other ≠ kind)
    (lane : Lane kind.Event) : (sink.setLane kind lane).lane other = sink.lane other :=
  Function.update_of_ne hne ..

/-- The steps of the shutdown that are left are the last ones of it, and the channels and
databases that are closed are those of the other steps. -/
structure Ordered (sink : StoppableSink) : Prop where
  suffix : sink.remaining <:+ shutdownSteps
  channels : ∀ kind, (sink.lane kind).channelClosed = true ↔
    .closeChannel kind ∉ sink.remaining
  dbs : ∀ kind, (sink.lane kind).stream.db.m = none ↔ .closeDB kind ∉ sink.remaining

/-- In whatever order the kinds come, channels are closed before databases. -/
theorem closeChannel_notMem {remaining : List ShutdownStep}
    (hsuffix : remaining <:+ shutdownSteps) {kind : EventKind}
    (hdb : .closeDB kind ∉ remaining) : .closeChannel kind ∉ remaining := by
  have hall : ∀ rest ∈ shutdownSteps.tails, ∀ kind ∈ EventKind.all,
      ShutdownStep.closeDB kind ∉ rest → ShutdownStep.closeChannel kind ∉ rest := by decide
  exact hall remaining ((List.mem_tails _ _).mpr hsuffix) kind (by cases kind <;> decide) hdb

theorem mem_shutdownSteps (shutdownStep : ShutdownStep) : shutdownStep ∈ shutdownSteps := by
  cases shutdownStep with
  | closeChannel kind => cases kind <;> decide
  | closeDB kind => cases kind <;> decide

theorem ordered_start (filterEvents : Bool) : (start filterEvents).Ordered where
  suffix := List.suffix_refl _
  channels _ := iff_of_false Bool.noConfusion (not_not_intro (mem_shutdownSteps _))
  dbs _ := iff_of_false (fun h => nomatch h) (not_not_intro (mem_shutdownSteps _))

theorem Ordered.closed (hordered : sink.Ordered) (kind : EventKind)
    (hnil : (sink.lane kind).stream.db.m = none) : (sink.lane kind).channelClosed = true :=
  (hordered.channels kind).mpr
    (closeChannel_notMem hordered.suffix ((hordered.dbs kind).mp hnil))

/-- What a step leaves of the shutdown and does to the lanes: `Stop` and `Close` take their
next step, or all other steps keep the lanes. -/
inductive Effect (sink : StoppableSink) (label : Label) (next : StoppableSink) : Prop
  | kept (hlabel : label ≠ .shutdown) (hremaining : next.remaining = sink.remaining)
      (hlanes : ∀ kind, (sink.lane kind).Kept (next.lane kind))
  | closeChannel (kind : EventKind) (hlabel : label = .shutdown)
      (hremaining : sink.remaining = .closeChannel kind :: next.remaining)
      (hlane : next.lane kind = { sink.lane kind with channelClosed := true })
      (hothers : ∀ other, other ≠ kind → next.lane other = sink.lane other)
  | closeDB (kind : EventKind) (hlabel : label = .shutdown)
      (hremaining : sink.remaining = .closeDB kind :: next.remaining)
      (hlane : next.lane kind = (sink.lane kind).closeDB)
      (hothers : ∀ other, other ≠ kind → next.lane other = sink.lane other)

/-- Keeping one lane is keeping all. -/
theorem Effect.of_setLane {kind : EventKind} {lane : Lane kind.Event}
    (hlabel : label ≠ .shutdown) (hlane : (sink.lane kind).Kept lane) :
    Effect sink label (sink.setLane kind lane) := by
  refine .kept hlabel rfl fun other => ?_
  by_cases hother : other = kind
  · subst hother
    rw [setLane_lane]
    exact hlane
  · rw [setLane_lane_of_ne hother]
    exact .refl _

theorem effect (hordered : sink.Ordered) (hstep : sink.outcome label = .next next) :
    Effect sink label next := by
  cases label with
  | sendEvent kind event =>
      simp only [outcome] at hstep
      split at hstep
      next hrunning =>
        split at hstep
        · cases hstep
          refine .of_setLane Label.noConfusion (Lane.kept_sendEvent ?_ event)
          -- While the sink runs, no step of its shutdown is done, so the channel is open.
          rw [Bool.eq_false_iff, ne_eq, hordered.channels kind, not_not, hrunning]
          exact mem_shutdownSteps _
        · cases hstep
          exact .kept Label.noConfusion rfl fun kind => .refl _
      next => cases hstep
  | queueEvent kind index =>
      obtain ⟨lane, hlane, rfl⟩ := Outcome.map_eq_next.mp hstep
      exact .of_setLane Label.noConfusion (Lane.kept_queueEvent hlane)
  | receive kind =>
      obtain ⟨lane, hlane, rfl⟩ := Outcome.map_eq_next.mp hstep
      exact .of_setLane Label.noConfusion (Lane.kept_receive hlane)
  | put kind =>
      obtain ⟨lane, hlane, rfl⟩ := Outcome.map_eq_next.mp hstep
      exact .of_setLane Label.noConfusion (Lane.kept_put hlane)
  | getEvents kind names =>
      cases hstep
      exact .of_setLane Label.noConfusion (Lane.kept_getEvents _ _)
  | cleanupContainer names =>
      cases hstep
      exact .kept Label.noConfusion rfl fun kind => Lane.kept_delete _ _
  | addFilter filter | removeFilter filter =>
      cases hstep
      exact .kept Label.noConfusion rfl fun kind => .refl _
  | shutdown =>
      simp only [outcome] at hstep
      split at hstep
      next => cases hstep
      next kind rest hremaining =>
        obtain ⟨lane, hlane, rfl⟩ := Outcome.map_eq_next.mp hstep
        unfold Lane.closeChannel at hlane
        split at hlane
        · cases hlane
        · cases hlane
          exact .closeChannel kind rfl hremaining (setLane_lane _)
            fun other hother => setLane_lane_of_ne hother _
      next kind rest hremaining =>
        cases hstep
        exact .closeDB kind rfl hremaining (setLane_lane _)
          fun other hother => setLane_lane_of_ne hother _

/-- In the rest of the shutdown every step comes once. -/
theorem nodup_of_suffix {remaining : List ShutdownStep} (hsuffix : remaining <:+ shutdownSteps) :
    remaining.Nodup := by
  have hnodup : shutdownSteps.Nodup := by decide
  exact hsuffix.sublist.nodup hnodup

theorem Ordered.step (hordered : sink.Ordered) (hstep : sink.outcome label = .next next) :
    next.Ordered := by
  have hnodup := nodup_of_suffix hordered.suffix
  cases effect hordered hstep with
  | kept _ hremaining hlanes =>
      refine ⟨hremaining ▸ hordered.suffix, fun kind => ?_, fun kind => ?_⟩
      · rw [(hlanes kind).channelClosed, hordered.channels kind, hremaining]
      · rw [(hlanes kind).dbClosed, hordered.dbs kind, hremaining]
  | closeChannel kind _ hremaining hlane hothers =>
      have hchannels := hordered.channels
      have hdbs := hordered.dbs
      rw [hremaining] at hnodup hchannels hdbs
      refine ⟨(List.suffix_cons _ _).trans (hremaining ▸ hordered.suffix), fun other => ?_,
        fun other => ?_⟩
      · by_cases hother : other = kind
        · subst hother
          rw [hlane]
          exact iff_of_true rfl (List.nodup_cons.mp hnodup).1
        · rw [hothers other hother, hchannels other]
          simp [hother]
      · have hdb : (next.lane other).stream.db.m = (sink.lane other).stream.db.m := by
          by_cases hother : other = kind
          · subst hother
            rw [hlane]
          · rw [hothers other hother]
        rw [hdb, hdbs other]
        simp
  | closeDB kind _ hremaining hlane hothers =>
      have hchannels := hordered.channels
      have hdbs := hordered.dbs
      rw [hremaining] at hnodup hchannels hdbs
      refine ⟨(List.suffix_cons _ _).trans (hremaining ▸ hordered.suffix), fun other => ?_,
        fun other => ?_⟩
      · have hchannel : (next.lane other).channelClosed = (sink.lane other).channelClosed := by
          by_cases hother : other = kind
          · subst hother
            rw [hlane]
            rfl
          · rw [hothers other hother]
        rw [hchannel, hchannels other]
        simp
      · by_cases hother : other = kind
        · subst hother
          rw [hlane]
          exact iff_of_true rfl (List.nodup_cons.mp hnodup).1
        · rw [hothers other hother, hdbs other]
          simp [hother]

/-! ## Panics -/

/-- In a quiet sink no step panics. -/
theorem Ordered.no_panic (hordered : sink.Ordered) (hquiet : ∀ kind, (sink.lane kind).Quiet)
    (label : Label) : sink.outcome label ≠ .panic := by
  intro hpanic
  cases label with
  | sendEvent kind event =>
      simp only [outcome] at hpanic
      split at hpanic
      · split at hpanic <;> cases hpanic
      · cases hpanic
  | queueEvent kind index =>
      obtain ⟨hclosed, hsending⟩ := Lane.queueEvent_eq_panic (Outcome.map_eq_panic.mp hpanic)
      exact hsending ((hquiet kind).sending hclosed)
  | receive kind =>
      have hreceive := Outcome.map_eq_panic.mp hpanic
      unfold Lane.receive at hreceive
      split at hreceive
      · cases hreceive
      · split at hreceive <;> cases hreceive
  | put kind =>
      obtain ⟨hnil, hreceived⟩ := Lane.put_eq_panic_iff.mp (Outcome.map_eq_panic.mp hpanic)
      exact hreceived ((hquiet kind).drained hnil).2
  | getEvents | cleanupContainer | addFilter | removeFilter => cases hpanic
  | shutdown =>
      simp only [outcome] at hpanic
      split at hpanic
      next => cases hpanic
      next kind rest hremaining =>
        have hclose := Outcome.map_eq_panic.mp hpanic
        unfold Lane.closeChannel at hclose
        split at hclose
        next hclosed =>
          -- A channel that is still to be closed has not been closed.
          apply (hordered.channels kind).mp hclosed
          rw [hremaining]
          exact List.mem_cons_self
        next => cases hclose
      next => cases hpanic

/-- Nothing panics until the shutdown goes on exactly if all event types are quiet. -/
theorem Ordered.calm_iff (hordered : sink.Ordered) :
    sink.Calm ↔ ∀ kind, (sink.lane kind).Quiet := by
  constructor
  · intro hcalm kind
    have hput : ∀ labels last, (∀ other ∈ labels, other ≠ .shutdown) →
        machine.run sink labels = some last → (last.lane kind).stream.db.m = none →
        (last.lane kind).received = none := by
      intro labels last hlabels hrun hnil
      by_contra hreceived
      apply hcalm labels last (.put kind) hlabels hrun
      exact Outcome.map_eq_panic.mpr (Lane.put_eq_panic_iff.mpr ⟨hnil, hreceived⟩)
    refine ⟨fun hclosed => ?_, fun hnil => ?_⟩
    · -- a waiting call goes on and panics
      by_contra hsending
      obtain ⟨event, rest, hevent⟩ := List.exists_cons_of_ne_nil hsending
      apply hcalm [] sink (.queueEvent kind 0) (fun _ hmem => nomatch hmem) rfl
      simp [outcome, Lane.queueEvent, hevent, hclosed, Outcome.map]
    · have hreceived := hput [] sink (fun _ hmem => nomatch hmem) rfl hnil
      refine ⟨?_, hreceived⟩
      -- the worker takes the next event, and panics with it
      by_contra hchannel
      obtain ⟨event, rest, hevent⟩ := List.exists_cons_of_ne_nil hchannel
      have hreceive : (sink.lane kind).receive = .next { sink.lane kind with
          stream := { (sink.lane kind).stream with channel := rest }
          received := some event } := by
        simp [Lane.receive, hreceived, EventStream.receive, hevent]
      have hstep : machine.step sink (.receive kind) = some (sink.setLane kind
          { sink.lane kind with
            stream := { (sink.lane kind).stream with channel := rest }
            received := some event }) :=
        Outcome.toOption_eq_some.mpr (Outcome.map_eq_next.mpr ⟨_, hreceive, rfl⟩)
      have hlast := hput [.receive kind] _ (by simp) (machine.run_cons.mpr ⟨_, hstep, rfl⟩)
      rw [setLane_lane] at hlast
      cases hlast hnil
  · intro hquiet labels last label hlabels hrun
    have hpreserve : ∀ (state : StoppableSink) (other : Label) (next : StoppableSink),
        (state.Ordered ∧ ∀ kind, (state.lane kind).Quiet) → other ≠ .shutdown →
        machine.step state other = some next →
        next.Ordered ∧ ∀ kind, (next.lane kind).Quiet := by
      rintro state other next ⟨hordered, hquiet⟩ hother hstep
      rw [machine, Outcome.toOption_eq_some] at hstep
      refine ⟨hordered.step hstep, ?_⟩
      cases effect hordered hstep with
      | kept _ _ hlanes =>
          exact fun kind => (hlanes kind).quiet (hordered.closed kind) (hquiet kind)
      | closeChannel _ hlabel => exact absurd hlabel hother
      | closeDB _ hlabel => exact absurd hlabel hother
    obtain ⟨hlast, hquietLast⟩ := machine.run_invariant_along hpreserve ⟨hordered, hquiet⟩
      (machine.along_of_forall_mem fun _ other hmem => hlabels other hmem) hrun
    exact hlast.no_panic hquietLast label

/-- A step leaves the sink calm exactly if it meets the condition. -/
theorem Ordered.drained_iff (hordered : sink.Ordered) (hcalm : sink.Calm)
    (hstep : sink.outcome label = .next next) : sink.Drained label ↔ next.Calm := by
  rw [hordered.calm_iff] at hcalm
  rw [(hordered.step hstep).calm_iff]
  cases effect hordered hstep with
  | kept hlabel _ hlanes =>
      refine iff_of_true ?_ fun kind => (hlanes kind).quiet (hordered.closed kind) (hcalm kind)
      cases label with
      | shutdown => exact absurd rfl hlabel
      | _ => trivial
  | closeChannel kind hlabel hremaining hlane hothers =>
      subst hlabel
      have hdrained : sink.Drained .shutdown ↔ sink.DrainedFor (.closeChannel kind) := by
        simp [Drained, hremaining]
      rw [hdrained]
      constructor
      -- The channel may be closed exactly when no sender waits on it.
      · intro hsending other
        by_cases hother : other = kind
        · subst hother
          rw [hlane]
          exact ⟨fun _ => hsending, (hcalm other).drained⟩
        · rw [hothers other hother]
          exact hcalm other
      · intro hquiet
        have hkind := (hquiet kind).sending
        rw [hlane] at hkind
        exact hkind rfl
  | closeDB kind hlabel hremaining hlane hothers =>
      subst hlabel
      have hdrained : sink.Drained .shutdown ↔ sink.DrainedFor (.closeDB kind) := by
        simp [Drained, hremaining]
      rw [hdrained]
      constructor
      · intro hempty other
        by_cases hother : other = kind
        · subst hother
          rw [hlane]
          exact ⟨(hcalm other).sending, fun _ => hempty⟩
        · rw [hothers other hother]
          exact hcalm other
      · intro hquiet
        have hkind := (hquiet kind).drained
        rw [hlane] at hkind
        exact hkind rfl

/-! ## Runs -/

theorem calm_start (filterEvents : Bool) : (start filterEvents).Calm := by
  rw [(ordered_start filterEvents).calm_iff]
  exact fun kind => ⟨fun _ => rfl, fun _ => ⟨rfl, rfl⟩⟩

/-- Shutting down the sink never panics in a run exactly if `Stop` closes each channel when
nobody waits to send on it and `Close` each database when its events have all been put. -/
theorem shutdown_calm_iff {filterEvents : Bool} {labels : List Label} {last : StoppableSink}
    (hrun : machine.run (start filterEvents) labels = some last) :
    (∀ before state, before <+: labels →
        machine.run (start filterEvents) before = some state → state.Calm) ↔
      machine.Along Drained (start filterEvents) labels := by
  symm
  refine machine.along_iff_forall_prefix ?_ ?_ (ordered_start filterEvents)
    (calm_start filterEvents) hrun
  · intro state label next hordered hstep
    exact hordered.step (Outcome.toOption_eq_some.mp hstep)
  · intro state label next hordered hcalm _ hstep
    exact hordered.drained_iff hcalm (Outcome.toOption_eq_some.mp hstep)

def execEvent : EventKind.execve.Event :=
  { containerName := "app", containerID := "c1", podName := "web", nameSpace := "default",
    pathName := "/bin/sh", upperLayer := false, args := [], env := [] : ExecveEvent }

/-- An event is queued, and after some more steps the sink is stopped and closed. -/
def shutdownAfter (labels : List Label) : List Label :=
  .sendEvent .execve execEvent :: .queueEvent .execve 0 ::
    (labels ++ List.replicate shutdownSteps.length .shutdown)

/-- If its worker has put the event before that, nothing happens. -/
theorem drained_shutdown_calm :
    ∃ last, machine.run (start false) (shutdownAfter [.receive .execve, .put .execve]) =
      some last ∧ last.remaining = [] ∧
      ∀ before state, before <+: shutdownAfter [.receive .execve, .put .execve] →
        machine.run (start false) before = some state → state.Calm := by
  obtain ⟨last, hrun, hends⟩ := Option.map_eq_some_iff.mp
    (show (machine.run (start false) (shutdownAfter [.receive .execve, .put .execve])).map
      (·.remaining) = some [] by decide)
  exact ⟨last, hrun, hends, (shutdown_calm_iff hrun).mpr (by decide)⟩

/-- Otherwise the worker finds the event in the closed channel and the map nil. -/
theorem queued_event_panics :
    ¬ ∀ (filterEvents : Bool) (labels : List Label) (last : StoppableSink) (label : Label),
      machine.run (start filterEvents) labels = some last → last.outcome label ≠ .panic := by
  intro hclaim
  exact hclaim false (shutdownAfter [] ++ [.receive .execve]) _ (.put .execve) rfl rfl

end StoppableSink

end Kapprofiler
