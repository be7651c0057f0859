import Mathlib.Data.Fintype.EquivFin
import Mathlib.Order.Fin.Basic
import Kapprofiler.Collector.System
import Kapprofiler.Foundation.Locking

/-! # The mutexes of the manager

The calls of the manager, the tracer and the sink, each with the mutexes that it
locks and the shared fields that it touches, in the order of the source. The
manager and its sink have been started; the tracer may be started and stopped at
any time. Consecutive accesses to one field in a function are one access, a write
if one of them writes. API requests, timers and channels are taken to answer: no
call waits for a channel with a mutex locked.
-/

namespace Kapprofiler.Collector.Locks

open Foundation Tracing

/-- `lock` is that of the database of an event type. -/
inductive Mutex
  | containersMutex
  | podMountCacheMutex
  | podFinalizerStateMutex
  | tracingStateMutex
  | lock (eventType : EventType)
  deriving DecidableEq

/-- What is written once the manager and its sink are started. `m` is the map of the database
of an event type. -/
inductive Field
  | containers
  | podMountCache
  | podFinalizerState
  | eventFilters
  | running
  | cCollection
  | tracingState
  | usageReferenceCount
  | eventSinks
  | containerActivityListener
  | m (eventType : EventType)
  deriving DecidableEq

abbrev Program := Locking Mutex Field

/-! ## Calls that other calls make

Each is followed by `next`, what its caller does after it. -/

section Callees

variable (next : Program)

/-- A look at a list, which may then add to it or remove from it. -/
def change (field : Field) : Program :=
  .access field false (.branch next (.access field true next))

def addFilter : Program := change next .eventFilters

def removeFilter : Program := change next .eventFilters

def put (eventType : EventType) : Program :=
  .lock (.lock eventType) (.access (.m eventType) true (.unlock (.lock eventType) next))

def delete (eventType : EventType) : Program :=
  .lock (.lock eventType) (.access (.m eventType) true (.unlock (.lock eventType) next))

/-- A key without an entry is returned before the deferred clean-up is set. -/
def getNClean (eventType : EventType) : Program :=
  .lock (.lock eventType) (.access (.m eventType) false
    (.branch (.unlock (.lock eventType) next)
      (.access (.m eventType) true (.unlock (.lock eventType) next))))

/-- The tracing states are looked up before the mutex is taken; the first event type that is
not tracable ends the loop. -/
def startTypes : List EventType → Program
  | [] => next
  | _ :: rest => .access .tracingState false
      (.branch
        (.lock .tracingStateMutex (.access .tracingState false
          (.access .usageReferenceCount true
            (.unlock .tracingStateMutex (startTypes rest)))))
        (.branch
          (.lock .tracingStateMutex (.access .tracingState false
            (.unlock .tracingStateMutex (startTypes rest))))
          next))

/-- A tracer that is not running returns at once. -/
def startTraceContainer (eventType : EventType) : Program :=
  .access .running false (.branch next (startTypes next eventType.traced))

/-- One mutex around the whole loop. A container that is not counted is skipped. -/
def stopTypes : List EventType → Program
  | [] => .unlock .tracingStateMutex next
  | _ :: rest => .access .tracingState false
      (.branch
        (.access .usageReferenceCount false
          (.branch (stopTypes rest) (.access .usageReferenceCount true (stopTypes rest))))
        (.branch (stopTypes rest) (.unlock .tracingStateMutex next)))

def stopTraceContainer (eventType : EventType) : Program :=
  .access .running false
    (.branch next (.lock .tracingStateMutex (stopTypes next eventType.traced)))

def peekSyscallInContainer : Program :=
  .access .running false (.branch next (.access .tracingState false next))

/-- A look at the state of a pod, which may write it. -/
def changeState : Program :=
  .lock .podFinalizerStateMutex (.access .podFinalizerState false
    (.branch (.unlock .podFinalizerStateMutex next)
      (.access .podFinalizerState true (.unlock .podFinalizerStateMutex next))))

/-- A pod that is not in the table is left out. -/
def markPodNotRecording : Program := changeState next

/-- Without a state or a timer nothing is written. -/
def stopTimer : Program := changeState next

/-- The locked part of `MarkPodRecording` writes in any case. -/
def setRecording : Program :=
  .lock .podFinalizerStateMutex (.access .podFinalizerState true
    (.unlock .podFinalizerStateMutex next))

def setupContainerCollection (failed : Program) : Program :=
  .branch failed (.access .cCollection true next)

def stopContainerCollection : Program := .access .cCollection false next

/-- Four of the tracers have a map of mount namespaces and are given the container collection.
What is stored under the mutex has counts of its own. -/
def startTracing (failed : Program) (eventType : EventType) : Program :=
  let store : Program := .branch failed (.lock .tracingStateMutex (.access .tracingState true
    (.access .usageReferenceCount true (.unlock .tracingStateMutex next))))
  match eventType with
  | .execveEventType | .openEventType | .capabilitiesEventType | .randomXEventType =>
      .branch failed (.access .cCollection false store)
  | _ => store

/-- The first tracer that cannot be started ends it. -/
def startAppBehaviorTracing (failed : Program) : List EventType → Program
  | [] => next
  | eventType :: rest =>
      startTracing (startAppBehaviorTracing failed rest) failed eventType

/-- The tracers are stopped one by one, each under the mutex. -/
def stopAppBehaviorTracing : List EventType → Program
  | [] => next
  | _ :: rest => .lock .tracingStateMutex (.access .tracingState false
      (.unlock .tracingStateMutex (stopAppBehaviorTracing rest)))

end Callees

/-! ## The calls

What is left of a start or a pass at each point between its locked sections. -/

/-- An attached pod that cannot be read is not marked. -/
def atMarkRecording : Program := .branch .done (setRecording .done)

def atStartTimer : Program := .branch .done atMarkRecording

def atStartTrace : Program := startTraceContainer atStartTimer .allEventType

/-- The mutex stays locked while the pod is requested. -/
def atFetchMounts : Program :=
  .lock .podMountCacheMutex (.access .podMountCache false
    (.branch (.unlock .podMountCacheMutex atStartTrace)
      (.access .podMountCache true (.unlock .podMountCacheMutex atStartTrace))))

def atTrack : Program :=
  .lock .containersMutex (.access .containers true
    (addFilter (.unlock .containersMutex atFetchMounts)))

def containerStarted : Program := .branch .done atTrack

/-- All under the mutex of the containers, up to the launch of the last pass. -/
def containerStopped : Program :=
  .lock .containersMutex (.access .containers false
    (.branch (.unlock .containersMutex .done)
      (.access .containers true
        (markPodNotRecording (stopTraceContainer (removeFilter
          (.access .containers true
            (.branch (.unlock .containersMutex .done)
              (.lock .podMountCacheMutex (.access .podMountCache true
                (.unlock .podMountCacheMutex (.unlock .containersMutex .done)))))))
          .allEventType)))))

def atUntrack : Program :=
  .lock .containersMutex (.access .containers true (.unlock .containersMutex .done))

def atMarkNotRecording : Program := markPodNotRecording atUntrack

def atStopTrace : Program := stopTraceContainer atMarkNotRecording .allEventType

def atRemoveFilter : Program := removeFilter atStopTrace

/-- `mergeApplicationProfiles` reads the mounts where it finds the container in the profile. -/
def atUpdate : Program :=
  .branch
    (.lock .podMountCacheMutex (.access .podMountCache false
      (.unlock .podMountCacheMutex (.branch .done atRemoveFilter))))
    (.branch .done atRemoveFilter)

/-- The profile is created, is final, or is updated. -/
def atGet : Program := .branch .done (.branch atRemoveFilter atUpdate)

/-- The batch is read, and the mounts are looked up where it is not empty. -/
def atLoad : List EventSource → Program
  | [] => .branch .done
      (.lock .podMountCacheMutex (.access .podMountCache false
        (.unlock .podMountCacheMutex atGet)))
  | .execve :: rest => getNClean (atLoad rest) .execveEventType
  | .opens :: rest => getNClean (atLoad rest) .openEventType
  | .syscalls :: rest => peekSyscallInContainer (atLoad rest)
  | .capabilities :: rest => getNClean (atLoad rest) .capabilitiesEventType
  | .dns :: rest => getNClean (atLoad rest) .dnsEventType
  | .network :: rest => getNClean (atLoad rest) .networkEventType

def collectContainerEvents : Program :=
  .lock .containersMutex (.access .containers false
    (.branch (.unlock .containersMutex (atLoad EventSource.all))
      (.unlock .containersMutex .done)))

def finalizeApplicationProfile : Program :=
  .lock .containersMutex (.access .containers false (.unlock .containersMutex .done))

/-- A pod that is not in the table is added; for one that is, a timer may be started. -/
def handlePodAddEvent : Program := .branch .done (changeState .done)

/-- The mutex is given back between the two looks at the state. -/
def handlePodUpdateEvent : Program :=
  .branch .done
    (.lock .podFinalizerStateMutex (.access .podFinalizerState false
      (.branch (.unlock .podFinalizerStateMutex .done)
        (.unlock .podFinalizerStateMutex
          (.branch (changeState .done) (stopTimer .done))))))

def handlePodDeleteEvent : Program := .branch .done (stopTimer .done)

/-- With `filterEvents`, the filters are read. -/
def sendEvent (filterEvents : Bool) : Program :=
  if filterEvents then .access .eventFilters false .done else .done

def cleanupContainer : Program :=
  delete (delete (delete (delete (delete .done .networkEventType) .dnsEventType)
    .capabilitiesEventType) .openEventType) .execveEventType

/-- A gadget's event is enriched by the container collection or is not, and an error is
reported to the sinks only. -/
def eventCallback (filterEvents : Bool) : Program :=
  let send : Program := .access .eventSinks false (.branch .done (sendEvent filterEvents))
  .branch send (.access .cCollection false send)

/-- The manager is the listener. -/
def containerEventHandler : Program :=
  .access .running false (.branch .done
    (.access .containerActivityListener false
      (.branch .done (.branch containerStarted containerStopped))))

def attachContainers : Nat → Program
  | 0 => .done
  | rest + 1 => .access .containerActivityListener false
      (.branch (attachContainers rest) (containerStarted.andThen (attachContainers rest)))

/-- One container after the other is attached. -/
def generateContainerEventsOnStart (containers : Nat) : Program :=
  .access .running false (.branch .done (.access .cCollection false (attachContainers containers)))

/-- The last tracer is started on one architecture only. What fails closes the collection, but not
the tracers that have been started. -/
def start (containers : Nat) : Program :=
  let failed : Program := stopContainerCollection .done
  let started : Program := .access .running true (generateContainerEventsOnStart containers)
  .access .running false (.branch .done
    (setupContainerCollection
      (startAppBehaviorTracing
        (.branch started (startTracing started failed .randomXEventType)) failed
        [.execveEventType, .syscallEventType, .openEventType, .capabilitiesEventType,
          .dnsEventType, .networkEventType])
      .done))

def stop : Program :=
  .access .running false (.branch .done
    (stopContainerCollection
      (stopAppBehaviorTracing (.access .running true .done) [.execveEventType, .syscallEventType,
        .openEventType, .capabilitiesEventType, .dnsEventType, .networkEventType,
        .randomXEventType])))

def addContainerActivityListener : Program := change .done .containerActivityListener

def removeContainerActivityListener : Program := change .done .containerActivityListener

def addEventSink : Program := change .done .eventSinks

def removeEventSink : Program := change .done .eventSinks

/-- What runs on a goroutine of its own. Each event is one call of its worker. `start` finds as
many containers as it says. -/
inductive Goroutine
  | containerStarted
  | containerStopped
  | collectContainerEvents
  | finalizeApplicationProfile
  | finalizePodProfile
  | handlePodAddEvent
  | handlePodUpdateEvent
  | handlePodDeleteEvent
  | startTraceContainer (eventType : EventType)
  | stopTraceContainer (eventType : EventType)
  | peekSyscallInContainer
  | start (containers : Nat)
  | stop
  | addContainerActivityListener
  | removeContainerActivityListener
  | addEventSink
  | removeEventSink
  | containerEventHandler
  | eventCallback (filterEvents : Bool)
  | sendEvent (filterEvents : Bool)
  | eventWorker (eventType : EventType)
  | getEvents (eventType : EventType)
  | cleanupContainer

/-- `finalizePodProfile` makes one request and locks nothing. -/
def body : Goroutine → Program
  | .containerStarted => containerStarted
  | .containerStopped => containerStopped
  | .collectContainerEvents => collectContainerEvents
  | .finalizeApplicationProfile => finalizeApplicationProfile
  | .finalizePodProfile => .done
  | .handlePodAddEvent => handlePodAddEvent
  | .handlePodUpdateEvent => handlePodUpdateEvent
  | .handlePodDeleteEvent => handlePodDeleteEvent
  | .startTraceContainer eventType => startTraceContainer .done eventType
  | .stopTraceContainer eventType => stopTraceContainer .done eventType
  | .peekSyscallInContainer => peekSyscallInContainer .done
  | .start containers => start containers
  | .stop => stop
  | .addContainerActivityListener => addContainerActivityListener
  | .removeContainerActivityListener => removeContainerActivityListener
  | .addEventSink => addEventSink
  | .removeEventSink => removeEventSink
  | .containerEventHandler => containerEventHandler
  | .eventCallback filterEvents => eventCallback filterEvents
  | .sendEvent filterEvents => sendEvent filterEvents
  | .eventWorker eventType => put .done eventType
  | .getEvents eventType => getNClean .done eventType
  | .cleanupContainer => cleanupContainer

/-- The goroutines of a node, with their mutexes. -/
def machine : Machine (Pool Mutex Field) (Pool.Label Goroutine) := Pool.machine body

/-! ## Their order -/

/-- `containersMutex` is the only one that is held while another is taken. -/
def rank : Mutex → Fin 2
  | .containersMutex => 0
  | _ => 1

/-- The mutex that is locked at every access to a field. The tracing states have none: they are
written under one and looked up without. -/
def Field.guard : Field → Option Mutex
  | .containers => some .containersMutex
  | .podMountCache => some .podMountCacheMutex
  | .podFinalizerState => some .podFinalizerStateMutex
  | .usageReferenceCount => some .tracingStateMutex
  | .m eventType => some (.lock eventType)
  | .eventFilters | .running | .cCollection | .tracingState | .eventSinks
  | .containerActivityListener => none

/-- The accesses that the calls make with the mutexes `held`. -/
def Allowed (held : Finset Mutex) (field : Field) (_writes : Bool) : Prop :=
  ∀ mutex ∈ field.guard, mutex ∈ held

/-- `held` are given back at the end, and nothing is taken out of order. -/
abbrev Keeps (held : Finset Mutex) (program : Program) : Prop :=
  program.Disciplined rank Allowed held

section Keeps

variable {held : Finset Mutex} {next : Program}

/-- A mutex other than that of the containers may be taken with this one held. -/
theorem keeps_lock {mutex : Mutex} {rest : Program} (hheld : held ⊆ {.containersMutex})
    (hmutex : mutex ≠ .containersMutex) (hrest : Keeps (insert mutex held) rest) :
    Keeps held (.lock mutex rest) := by
  refine ⟨?_, hrest⟩
  intro other hother
  rw [Finset.mem_singleton.mp (hheld hother)]
  cases mutex with
  | containersMutex => exact absurd rfl hmutex
  | podMountCacheMutex => decide
  | podFinalizerStateMutex => decide
  | tracingStateMutex => decide
  | lock eventType => exact Fin.zero_lt_one

theorem keeps_unlock {mutex : Mutex} (hheld : held ⊆ {.containersMutex})
    (hmutex : mutex ≠ .containersMutex) (hnext : Keeps held next) :
    Keeps (insert mutex held) (.unlock mutex next) := by
  refine ⟨Finset.mem_insert_self mutex held, ?_⟩
  rwa [Finset.erase_insert]
  intro hmem
  exact hmutex (Finset.mem_singleton.mp (hheld hmem))

/-- An access under the mutex of the field. -/
theorem keeps_access {field : Field} {mutex : Mutex} {writes : Bool} {rest : Program}
    (hguard : field.guard = some mutex) (hmutex : mutex ∈ held)
    (hrest : Keeps held rest) : Keeps held (.access field writes rest) := by
  refine ⟨?_, hrest⟩
  intro other hother
  rw [hguard] at hother
  exact Option.some.inj hother ▸ hmutex

theorem keeps_unguarded {field : Field} {writes : Bool} (hguard : field.guard = none)
    (hnext : Keeps held next) : Keeps held (.access field writes next) := by
  refine ⟨?_, hnext⟩
  intro other hother
  rw [hguard] at hother
  cases hother

theorem keeps_change {field : Field} (hguard : field.guard = none) (hnext : Keeps held next) :
    Keeps held (change next field) :=
  keeps_unguarded hguard ⟨hnext, keeps_unguarded hguard hnext⟩

/-- A locked section around one access, or around a look and a write. -/
theorem keeps_section {field : Field} {mutex : Mutex} {writes : Bool}
    (hheld : held ⊆ {.containersMutex}) (hmutex : mutex ≠ .containersMutex)
    (hguard : field.guard = some mutex) (hnext : Keeps held next) :
    Keeps held (.lock mutex (.access field writes (.unlock mutex next))) := by
  apply keeps_lock hheld hmutex
  apply keeps_access hguard (Finset.mem_insert_self mutex held)
  exact keeps_unlock hheld hmutex hnext

theorem keeps_look {field : Field} {mutex : Mutex} (hheld : held ⊆ {.containersMutex})
    (hmutex : mutex ≠ .containersMutex) (hguard : field.guard = some mutex)
    (hnext : Keeps held next) :
    Keeps held (.lock mutex (.access field false
      (.branch (.unlock mutex next) (.access field true (.unlock mutex next))))) := by
  have hunlock := keeps_unlock hheld hmutex hnext
  have hmine := Finset.mem_insert_self mutex held
  apply keeps_lock hheld hmutex
  apply keeps_access hguard hmine
  exact ⟨hunlock, keeps_access hguard hmine hunlock⟩

theorem keeps_startTypes (hheld : held ⊆ {.containersMutex}) (hnext : Keeps held next)
    (types : List EventType) : Keeps held (startTypes next types) := by
  induction types with
  | nil => exact hnext
  | cons eventType rest ih =>
      have hmutex : Mutex.tracingStateMutex ≠ .containersMutex := by decide
      have hunlock := keeps_unlock hheld hmutex ih
      have hmine := Finset.mem_insert_self Mutex.tracingStateMutex held
      apply keeps_unguarded rfl
      refine ⟨?_, ?_, hnext⟩
      · apply keeps_lock hheld hmutex
        exact keeps_unguarded rfl (keeps_access rfl hmine hunlock)
      · apply keeps_lock hheld hmutex
        exact keeps_unguarded rfl hunlock

theorem keeps_startTraceContainer (hheld : held ⊆ {.containersMutex}) (hnext : Keeps held next)
    (eventType : EventType) : Keeps held (startTraceContainer next eventType) :=
  keeps_unguarded rfl ⟨hnext, keeps_startTypes hheld hnext eventType.traced⟩

theorem keeps_stopTypes (hheld : held ⊆ {.containersMutex}) (hnext : Keeps held next)
    (types : List EventType) :
    Keeps (insert .tracingStateMutex held) (stopTypes next types) := by
  have hmutex : Mutex.tracingStateMutex ≠ .containersMutex := by decide
  have hunlock := keeps_unlock hheld hmutex hnext
  have hmine := Finset.mem_insert_self Mutex.tracingStateMutex held
  induction types with
  | nil => exact hunlock
  | cons eventType rest ih =>
      apply keeps_unguarded rfl
      refine ⟨?_, ih, hunlock⟩
      exact keeps_access rfl hmine ⟨ih, keeps_access rfl hmine ih⟩

theorem keeps_stopTraceContainer (hheld : held ⊆ {.containersMutex}) (hnext : Keeps held next)
    (eventType : EventType) : Keeps held (stopTraceContainer next eventType) := by
  apply keeps_unguarded rfl
  exact ⟨hnext, keeps_lock hheld (by decide) (keeps_stopTypes hheld hnext eventType.traced)⟩

theorem keeps_peekSyscallInContainer (hnext : Keeps held next) :
    Keeps held (peekSyscallInContainer next) :=
  keeps_unguarded rfl ⟨hnext, keeps_unguarded rfl hnext⟩

theorem keeps_changeState (hheld : held ⊆ {.containersMutex}) (hnext : Keeps held next) :
    Keeps held (changeState next) :=
  keeps_look hheld (by decide) rfl hnext

theorem keeps_getNClean (hheld : held ⊆ {.containersMutex}) (hnext : Keeps held next)
    (eventType : EventType) : Keeps held (getNClean next eventType) :=
  keeps_look hheld (by simp) rfl hnext

theorem keeps_delete (hheld : held ⊆ {.containersMutex}) (hnext : Keeps held next)
    (eventType : EventType) : Keeps held (delete next eventType) :=
  keeps_section hheld (by simp) rfl hnext

theorem keeps_startTracing {failed : Program} (hheld : held ⊆ {.containersMutex})
    (hfailed : Keeps held failed) (hnext : Keeps held next) (eventType : EventType) :
    Keeps held (startTracing next failed eventType) := by
  have hstore : Keeps held (.branch failed (.lock .tracingStateMutex (.access .tracingState true
      (.access .usageReferenceCount true (.unlock .tracingStateMutex next))))) := by
    have hmutex : Mutex.tracingStateMutex ≠ .containersMutex := by decide
    refine ⟨hfailed, keeps_lock hheld hmutex (keeps_unguarded rfl ?_)⟩
    exact keeps_access rfl (Finset.mem_insert_self _ held) (keeps_unlock hheld hmutex hnext)
  cases eventType with
  | execveEventType | openEventType | capabilitiesEventType | randomXEventType =>
      exact ⟨hfailed, keeps_unguarded rfl hstore⟩
  | _ => exact hstore

theorem keeps_startAppBehaviorTracing {failed : Program} (hheld : held ⊆ {.containersMutex})
    (hfailed : Keeps held failed) (hnext : Keeps held next) (types : List EventType) :
    Keeps held (startAppBehaviorTracing next failed types) := by
  induction types with
  | nil => exact hnext
  | cons eventType rest ih => exact keeps_startTracing hheld hfailed ih eventType

theorem keeps_stopAppBehaviorTracing (hheld : held ⊆ {.containersMutex})
    (hnext : Keeps held next) (types : List EventType) :
    Keeps held (stopAppBehaviorTracing next types) := by
  induction types with
  | nil => exact hnext
  | cons eventType rest ih =>
      apply keeps_lock hheld (by decide)
      exact keeps_unguarded rfl (keeps_unlock hheld (by decide) ih)

end Keeps

/-! ## Every call keeps the order -/

theorem keeps_done : Keeps ∅ .done := rfl

/-- The first mutex that a call takes may be that of the containers. -/
theorem keeps_containers {rest : Program} {writes : Bool}
    (hrest : Keeps {.containersMutex} rest) :
    Keeps ∅ (.lock .containersMutex (.access .containers writes rest)) := by
  refine ⟨fun other hother => absurd hother (Finset.notMem_empty other), ?_⟩
  exact keeps_access rfl (Finset.mem_insert_self _ _) hrest

theorem keeps_unlock_containers {next : Program} (hnext : Keeps ∅ next) :
    Keeps {.containersMutex} (.unlock .containersMutex next) := by
  refine ⟨Finset.mem_singleton_self _, ?_⟩
  rwa [Finset.erase_singleton]

theorem keeps_containerStarted : Keeps ∅ containerStarted := by
  have hheld : (∅ : Finset Mutex) ⊆ {.containersMutex} := Finset.empty_subset _
  have hmark : Keeps ∅ atMarkRecording :=
    ⟨keeps_done, keeps_section hheld (by decide) rfl keeps_done⟩
  have htimer : Keeps ∅ atStartTimer := ⟨keeps_done, hmark⟩
  have htrace : Keeps ∅ atStartTrace := keeps_startTraceContainer hheld htimer .allEventType
  have hmounts : Keeps ∅ atFetchMounts := keeps_look hheld (by decide) rfl htrace
  refine ⟨keeps_done, ?_⟩
  apply keeps_containers
  exact keeps_change rfl (keeps_unlock_containers hmounts)

theorem keeps_containerStopped : Keeps ∅ containerStopped := by
  have hheld : ({.containersMutex} : Finset Mutex) ⊆ {.containersMutex} := Finset.Subset.refl _
  have hmine := Finset.mem_singleton_self Mutex.containersMutex
  have hunlock := keeps_unlock_containers keeps_done
  apply keeps_containers
  refine ⟨hunlock, keeps_access rfl hmine ?_⟩
  apply keeps_changeState hheld
  apply keeps_stopTraceContainer hheld
  apply keeps_change rfl
  refine keeps_access rfl hmine ⟨hunlock, ?_⟩
  exact keeps_section hheld (by decide) rfl hunlock

theorem keeps_collectContainerEvents : Keeps ∅ collectContainerEvents := by
  have hheld : (∅ : Finset Mutex) ⊆ {.containersMutex} := Finset.empty_subset _
  have huntrack : Keeps ∅ atUntrack := keeps_containers (keeps_unlock_containers keeps_done)
  have hremove : Keeps ∅ atRemoveFilter :=
    keeps_change rfl (keeps_stopTraceContainer hheld (keeps_changeState hheld huntrack) _)
  have hupdated : Keeps ∅ (.branch .done atRemoveFilter) := ⟨keeps_done, hremove⟩
  have hupdate : Keeps ∅ atUpdate :=
    ⟨keeps_section hheld (by decide) rfl hupdated, hupdated⟩
  have hget : Keeps ∅ atGet := ⟨keeps_done, hremove, hupdate⟩
  have hload (remaining : List EventSource) : Keeps ∅ (atLoad remaining) := by
    induction remaining with
    | nil => exact ⟨keeps_done, keeps_section hheld (by decide) rfl hget⟩
    | cons source rest ih =>
        cases source with
        | syscalls => exact keeps_peekSyscallInContainer ih
        | execve => exact keeps_getNClean hheld ih _
        | opens => exact keeps_getNClean hheld ih _
        | capabilities => exact keeps_getNClean hheld ih _
        | dns => exact keeps_getNClean hheld ih _
        | network => exact keeps_getNClean hheld ih _
  apply keeps_containers
  exact ⟨keeps_unlock_containers (hload EventSource.all), keeps_unlock_containers keeps_done⟩

theorem keeps_sendEvent (filterEvents : Bool) : Keeps ∅ (sendEvent filterEvents) := by
  cases filterEvents with
  | false => exact keeps_done
  | true => exact keeps_unguarded rfl keeps_done

theorem keeps_attachContainers (containers : Nat) : Keeps ∅ (attachContainers containers) := by
  induction containers with
  | zero => exact keeps_done
  | succ rest ih => exact keeps_unguarded rfl ⟨ih, keeps_containerStarted.andThen ih⟩

theorem keeps_start (containers : Nat) : Keeps ∅ (start containers) := by
  have hheld : (∅ : Finset Mutex) ⊆ {.containersMutex} := Finset.empty_subset _
  have hfailed : Keeps ∅ (stopContainerCollection .done) := keeps_unguarded rfl keeps_done
  have hgenerate : Keeps ∅ (generateContainerEventsOnStart containers) :=
    keeps_unguarded rfl ⟨keeps_done, keeps_unguarded rfl (keeps_attachContainers containers)⟩
  have hstarted : Keeps ∅ (.access .running true (generateContainerEventsOnStart containers)) :=
    keeps_unguarded rfl hgenerate
  refine keeps_unguarded rfl ⟨keeps_done, keeps_done, keeps_unguarded rfl ?_⟩
  apply keeps_startAppBehaviorTracing hheld hfailed
  exact ⟨hstarted, keeps_startTracing hheld hfailed hstarted _⟩

theorem keeps_stop : Keeps ∅ stop := by
  refine keeps_unguarded rfl ⟨keeps_done, keeps_unguarded rfl ?_⟩
  exact keeps_stopAppBehaviorTracing (Finset.empty_subset _) (keeps_unguarded rfl keeps_done) _

theorem keeps_body (goroutine : Goroutine) : Keeps ∅ (body goroutine) := by
  have hheld : (∅ : Finset Mutex) ⊆ {.containersMutex} := Finset.empty_subset _
  have hchange := keeps_changeState hheld keeps_done
  cases goroutine with
  | containerStarted => exact keeps_containerStarted
  | containerStopped => exact keeps_containerStopped
  | collectContainerEvents => exact keeps_collectContainerEvents
  | finalizeApplicationProfile => exact keeps_containers (keeps_unlock_containers keeps_done)
  | finalizePodProfile => exact keeps_done
  | handlePodAddEvent => exact ⟨keeps_done, hchange⟩
  | handlePodUpdateEvent =>
      have hagain : Keeps ∅ (.branch (changeState .done) (stopTimer .done)) := ⟨hchange, hchange⟩
      have hmine := Finset.mem_insert_self Mutex.podFinalizerStateMutex ∅
      refine ⟨keeps_done, keeps_lock hheld (by decide) (keeps_access rfl hmine ?_)⟩
      exact ⟨keeps_unlock hheld (by decide) keeps_done, keeps_unlock hheld (by decide) hagain⟩
  | handlePodDeleteEvent => exact ⟨keeps_done, hchange⟩
  | startTraceContainer eventType => exact keeps_startTraceContainer hheld keeps_done eventType
  | stopTraceContainer eventType => exact keeps_stopTraceContainer hheld keeps_done eventType
  | peekSyscallInContainer => exact keeps_peekSyscallInContainer keeps_done
  | start containers => exact keeps_start containers
  | stop => exact keeps_stop
  | addContainerActivityListener => exact keeps_change rfl keeps_done
  | removeContainerActivityListener => exact keeps_change rfl keeps_done
  | addEventSink => exact keeps_change rfl keeps_done
  | removeEventSink => exact keeps_change rfl keeps_done
  | containerEventHandler =>
      refine keeps_unguarded rfl ⟨keeps_done, keeps_unguarded rfl ⟨keeps_done, ?_⟩⟩
      exact ⟨keeps_containerStarted, keeps_containerStopped⟩
  | eventCallback filterEvents =>
      have hsend : Keeps ∅ (.access .eventSinks false (.branch .done (sendEvent filterEvents))) :=
        keeps_unguarded rfl ⟨keeps_done, keeps_sendEvent filterEvents⟩
      exact ⟨hsend, keeps_unguarded rfl hsend⟩
  | sendEvent filterEvents => exact keeps_sendEvent filterEvents
  | eventWorker eventType => exact keeps_section hheld (by simp) rfl keeps_done
  | getEvents eventType => exact keeps_getNClean hheld keeps_done eventType
  | cleanupContainer =>
      iterate 5 apply keeps_delete hheld
      exact keeps_done

/-! ## All orders of steps -/

/-- Whatever goroutines there are and however far each has come, no mutex is unlocked twice,
and every schedule of them ends all: none of them waits for ever for another. -/
theorem goroutines_end {pool : Pool Mutex Field} (hreach : machine.Reachable pool) :
    ¬ pool.Fatal ∧ Pool.scheduler.EndsWithin (fun _ => true) Pool.Finished pool.size pool := by
  obtain ⟨held, horderly⟩ := Pool.orderly_of_reachable keeps_body hreach
  exact ⟨horderly.not_fatal, horderly.endsWithin⟩

/-- A stop that holds the mutex of the containers, while a pass waits for it. -/
def stoppedWhilePass : List (Pool.Label Goroutine) :=
  [.call .containerStopped, .advance 0 false, .call .collectContainerEvents]

theorem stoppedWhilePass_ends : ∃ pool, machine.run Pool.empty stoppedWhilePass = some pool ∧
    pool.advance 1 false = none ∧
    Pool.scheduler.EndsWithin (fun _ => true) Pool.Finished pool.size pool :=
  ⟨_, rfl, rfl, (goroutines_end ⟨Pool.empty, stoppedWhilePass, rfl, rfl⟩).2⟩

/-- The steps of one thread, by the branches that it takes. -/
def steps (thread : Nat) (choices : List Bool) : List (Pool.Label Goroutine) :=
  choices.map (.advance thread)

/-- The choices of a `Start` that sets everything up, to where it is running. -/
def started : List Bool :=
  let withCollection := [true, false, true, false, false, false, false]
  let without := [true, false, false, false, false]
  [false, true, true, false] ++ withCollection ++ without ++ withCollection ++ withCollection ++
    without ++ without ++ [false]

end Kapprofiler.Collector.Locks
