import Mathlib.Logic.Function.Basic
import Mathlib.Data.List.Perm.Basic
import Mathlib.Data.List.Nodup
import Kapprofiler.Foundation.Machine

/-! # Starting the tracer among running containers

`Tracer.Start` sets the flag that lets notifications through, then takes the list
of running containers, and then reports the listed ones as attached, one by one.
Meanwhile containers come and go: the collection changes first, the handler is
called next, and the listener after that. The machine follows one listener.
-/

namespace Kapprofiler.Tracing

open Foundation

structure Container where
  podName : String
  nameSpace : String
  containerName : String
  nsMntId : UInt64
  containerID : String
  pid : UInt32
deriving DecidableEq

inductive ContainerActivity
  | start
  | attached
  | stop
deriving DecidableEq

structure ContainerActivityEvent where
  container : Container
  activity : ContainerActivity
deriving DecidableEq

inductive PubSubEventType
  | addContainer
  | removeContainer
deriving DecidableEq

/-- What `containerEventHandler` passes on to its listeners. -/
def containerEventHandler (running : Bool) (type : PubSubEventType) (container : Container) :
    Option ContainerActivityEvent :=
  if running then
    some ⟨container, match type with | .addContainer => .start | .removeContainer => .stop⟩
  else none

/-- How far a container, and the goroutine that publishes what happens to it, have come.
`announced` is whether its start was passed on to the listener. -/
inductive Phase
  | absent
  /-- In the collection, the handler not called yet. -/
  | added
  /-- The handler has read the flag and is about to call the listener. -/
  | starting (event : ContainerActivityEvent)
  | present (announced : Bool)
  /-- Out of the collection, the handler not called yet. -/
  | removed (announced : Bool)
  | stopping (announced : Bool) (event : ContainerActivityEvent)
  | gone (announced stopped : Bool)
deriving DecidableEq

namespace Phase

def inCollection : Phase → Bool
  | .added | .starting _ | .present _ => true
  | _ => false

/-- The listener was called with the container's start. -/
def announced : Phase → Bool
  | .present announced | .removed announced | .stopping announced _ | .gone announced _ => announced
  | _ => false

/-- The listener was called with the container's stop. -/
def stopped : Phase → Bool
  | .gone _ stopped => stopped
  | _ => false

end Phase

/-- `containers` and `next` are the list that `GenerateContainerEventsOnStart` ranges over
and its position in it. -/
structure Startup where
  running : Bool
  containers : Option (List Container)
  next : Nat
  collection : List Container
  phase : Container → Phase
  seen : List ContainerActivityEvent

inductive StartupLabel
  | add (container : Container)
  | remove (container : Container)
  /-- The handler is called for the container and reads the flag. -/
  | handle (container : Container)
  /-- The handler calls the listener. -/
  | notify (container : Container)
  | setRunning
  /-- `GetListOfRunningContainers`, which lists the collection in no fixed order. -/
  | snapshot (containers : List Container)
  | replay
deriving DecidableEq

namespace Startup

/-- The tracer before `Start`, with no container yet. -/
def initial : Startup where
  running := false
  containers := none
  next := 0
  collection := []
  phase _ := .absent
  seen := []

/-- The container whose attached event comes next. -/
def upNext (state : Startup) : Option Container :=
  state.containers.bind fun containers => containers[state.next]?

/-- The containers whose attached event the listener was called with. -/
def replayed (state : Startup) : List Container :=
  (state.containers.getD []).take state.next

def moved (state : Startup) (container : Container) (phase : Phase) : Startup :=
  { state with phase := Function.update state.phase container phase }

/-- Every container is added and removed at most once, and one after the other. -/
def step (state : Startup) : StartupLabel → Option Startup
  | .add container =>
      if state.phase container = .absent then
        some { state.moved container .added with collection := state.collection ++ [container] }
      else none
  | .remove container =>
      match state.phase container with
      | .present announced =>
          some { state.moved container (.removed announced) with
            collection := state.collection.erase container }
      | _ => none
  | .handle container =>
      match state.phase container with
      | .added =>
          match containerEventHandler state.running .addContainer container with
          | some event => some (state.moved container (.starting event))
          | none => some (state.moved container (.present false))
      | .removed announced =>
          match containerEventHandler state.running .removeContainer container with
          | some event => some (state.moved container (.stopping announced event))
          | none => some (state.moved container (.gone announced false))
      | _ => none
  | .notify container =>
      match state.phase container with
      | .starting event =>
          some { state.moved container (.present true) with seen := state.seen ++ [event] }
      | .stopping announced event =>
          some { state.moved container (.gone announced true) with seen := state.seen ++ [event] }
      | _ => none
  | .setRunning => if state.running then none else some { state with running := true }
  | .snapshot containers =>
      if state.running ∧ state.containers = none ∧ containers.Perm state.collection then
        some { state with containers := some containers }
      else none
  | .replay =>
      match state.upNext with
      | some container =>
          some { state with
            next := state.next + 1, seen := state.seen ++ [⟨container, .attached⟩] }
      | none => none

end Startup

def startupMachine : Machine Startup StartupLabel where
  init state := state = .initial
  step := Startup.step

/-- One start or attached event, then at most one stop, and nothing more. -/
def WellFormed : List ContainerActivity → Prop
  | [] => True
  | [first] => first ≠ .stop
  | [first, second] => first ≠ .stop ∧ second = .stop
  | _ => False

def announcements (seen : List ContainerActivity) : Nat :=
  seen.countP fun activity => activity ≠ .stop

def stops (seen : List ContainerActivity) : Nat := seen.count .stop

@[simp] theorem announcements_snoc (seen : List ContainerActivity)
    (activity : ContainerActivity) : announcements (seen ++ [activity]) =
      announcements seen + if activity = .stop then 0 else 1 := by
  cases activity <;> simp [announcements, List.countP_append]

@[simp] theorem stops_snoc (seen : List ContainerActivity) (activity : ContainerActivity) :
    stops (seen ++ [activity]) = stops seen + if activity = .stop then 1 else 0 := by
  cases activity <;> simp [stops]

theorem wellFormed_snoc_start {seen : List ContainerActivity} {activity : ContainerActivity}
    (hactivity : activity ≠ .stop) (hseen : WellFormed seen) :
    WellFormed (seen ++ [activity]) ↔ seen = [] := by
  match seen with
  | [] => simp [WellFormed, hactivity]
  | [first] => simp [WellFormed, hactivity]
  | [first, second] => simp [WellFormed]
  | _ :: _ :: _ :: _ => exact hseen.elim

theorem wellFormed_snoc_stop {seen : List ContainerActivity} (hseen : WellFormed seen) :
    WellFormed (seen ++ [.stop]) ↔ 0 < announcements seen ∧ stops seen = 0 := by
  match seen with
  | [] => simp [WellFormed, announcements]
  | [first] =>
      have hfirst : first ≠ .stop := hseen
      simp [WellFormed, announcements, stops, hfirst]
  | [first, second] =>
      obtain ⟨_, rfl⟩ := hseen
      simp [WellFormed, stops, List.count_cons]
  | _ :: _ :: _ :: _ => exact hseen.elim

theorem eq_nil_iff_announcements {seen : List ContainerActivity} (hseen : WellFormed seen) :
    seen = [] ↔ announcements seen = 0 := by
  match seen with
  | [] => simp [announcements]
  | [first] =>
      have hfirst : first ≠ .stop := hseen
      simp [announcements, hfirst]
  | [first, second] =>
      have hfirst : first ≠ .stop := hseen.1
      simp [announcements, hfirst]
  | _ :: _ :: _ :: _ => exact hseen.elim

namespace Startup

/-- What the listener has seen of a container. -/
def seenOf (state : Startup) (container : Container) : List ContainerActivity :=
  (state.seen.filter (·.container = container)).map (·.activity)

theorem map_activity_snoc (seen : List ContainerActivityEvent) (event : ContainerActivityEvent)
    (container : Container) :
    ((seen ++ [event]).filter (·.container = container)).map (·.activity) =
      (seen.filter (·.container = container)).map (·.activity) ++
        if event.container = container then [event.activity] else [] := by
  by_cases hevent : event.container = container <;> simp [List.filter_append, hevent]

/-- `Start` has reported every container of its list. -/
def Replayed (state : Startup) : Prop :=
  ∃ containers, state.containers = some containers ∧ containers.length ≤ state.next

/-- What the listener sees of every container is in order, and when `Start` is done it has
seen every container whose start is published and that was not removed. -/
structure Orderly (state : Startup) : Prop where
  wellFormed : ∀ container, WellFormed (state.seenOf container)
  complete : state.Replayed → ∀ container announced,
    state.phase container = .present announced → state.seenOf container ≠ []

/-- A start is passed on before the container's turn in the list, if it has one, and a stop
only after its start or its turn. -/
def MayNotify (replayed : Prop) : Phase → Prop
  | .starting _ => ¬ replayed
  | .stopping announced _ => announced = true ∨ replayed
  | _ => True

instance (replayed : Prop) [Decidable replayed] : ∀ phase, Decidable (MayNotify replayed phase)
  | .starting _ => inferInstanceAs (Decidable (¬ replayed))
  | .stopping announced _ => inferInstanceAs (Decidable (announced = true ∨ replayed))
  | .absent | .added | .present _ | .removed _ | .gone _ _ => .isTrue trivial

/-- The order in which the two goroutines come to the listener: a container of the list has
its turn only if its addition was not passed on before, and notifications wait for the turn
where they have to. -/
def Timely (state : Startup) : StartupLabel → Prop
  | .replay => ∀ container ∈ state.upNext, (state.phase container).announced = false
  | .notify container => MayNotify (container ∈ state.replayed) (state.phase container)
  | _ => True

instance (state : Startup) : ∀ label, Decidable (state.Timely label)
  | .replay => inferInstanceAs (Decidable (∀ container ∈ state.upNext,
      (state.phase container).announced = false))
  | .notify container =>
      inferInstanceAs (Decidable (MayNotify (container ∈ state.replayed) (state.phase container)))
  | .add _ | .remove _ | .handle _ | .setRunning | .snapshot _ => .isTrue trivial

/-! ## What every run keeps -/

/-- What a container's phase says about the rest of the state. -/
structure Fits (state : Startup) (container : Container) : Prop where
  member : container ∈ state.collection ↔ (state.phase container).inCollection = true
  missed : ∀ containers, state.containers = some containers →
    state.phase container = .present false → container ∈ containers
  starting : ∀ event, state.phase container = .starting event → event = ⟨container, .start⟩
  stopping : ∀ announced event,
    state.phase container = .stopping announced event → event = ⟨container, .stop⟩
  announced : announcements (state.seenOf container) =
    (state.phase container).announced.toNat + if container ∈ state.replayed then 1 else 0
  stopped : stops (state.seenOf container) = (state.phase container).stopped.toNat

structure Sound (state : Startup) : Prop where
  nodup : state.collection.Nodup
  listed : ∀ containers, state.containers = some containers →
    containers.Nodup ∧ state.running = true
  unlisted : state.containers = none → state.next = 0
  fits : ∀ container, state.Fits container

theorem sound_initial : initial.Sound := by
  refine ⟨List.nodup_nil, by simp [initial], fun _ => rfl, fun container => ?_⟩
  constructor <;> simp [initial, Phase.inCollection, Phase.announced, Phase.stopped, seenOf,
    replayed, announcements, stops]

theorem Fits.of_same {state next : Startup} {container : Container}
    (hfits : state.Fits container) (hphase : next.phase container = state.phase container)
    (hcollection : container ∈ next.collection ↔ container ∈ state.collection)
    (hcontainers : next.containers = state.containers)
    (hseen : next.seenOf container = state.seenOf container)
    (hreplayed : container ∈ next.replayed ↔ container ∈ state.replayed) :
    next.Fits container := by
  constructor
  · rw [hcollection, hphase]
    exact hfits.member
  · rw [hcontainers, hphase]
    exact hfits.missed
  · rw [hphase]
    exact hfits.starting
  · rw [hphase]
    exact hfits.stopping
  · simp only [hseen, hphase, hreplayed]
    exact hfits.announced
  · rw [hseen, hphase]
    exact hfits.stopped

@[simp] theorem moved_phase_self (state : Startup) (container : Container) (phase : Phase) :
    (state.moved container phase).phase container = phase := Function.update_self ..

theorem moved_phase_of_ne {state : Startup} {container other : Container} {phase : Phase}
    (hother : other ≠ container) :
    (state.moved container phase).phase other = state.phase other := Function.update_of_ne hother ..

/-- The container went on to a phase in which the listener was called as often as before. -/
theorem Fits.moved {state next : Startup} {container : Container} {phase : Phase}
    (hfits : state.Fits container) (hphase : next.phase container = phase)
    (hmember : container ∈ next.collection ↔ phase.inCollection = true)
    (hmissed : phase = .present false → next.containers = none)
    (hstarting : ∀ event, phase = .starting event → event = ⟨container, .start⟩)
    (hstopping : ∀ announced event, phase = .stopping announced event →
      event = ⟨container, .stop⟩)
    (hseen : next.seenOf container = state.seenOf container)
    (hreplayed : next.replayed = state.replayed)
    (hannounced : phase.announced = (state.phase container).announced)
    (hstopped : phase.stopped = (state.phase container).stopped) : next.Fits container := by
  subst hphase
  refine ⟨hmember, ?_, hstarting, hstopping, ?_, ?_⟩
  · intro containers hcontainers hphase
    rw [hmissed hphase] at hcontainers
    cases hcontainers
  · rw [hseen, hreplayed, hannounced]
    exact hfits.announced
  · rw [hseen, hstopped]
    exact hfits.stopped

/-- The handler was called: the container changes its phase and nothing else happens. -/
theorem Sound.handled {state : Startup} {container : Container} {phase : Phase}
    (hsound : state.Sound)
    (hmember : phase.inCollection = (state.phase container).inCollection)
    (hmissed : phase = .present false → state.containers = none)
    (hstarting : ∀ event, phase = .starting event → event = ⟨container, .start⟩)
    (hstopping : ∀ announced event, phase = .stopping announced event →
      event = ⟨container, .stop⟩)
    (hannounced : phase.announced = (state.phase container).announced)
    (hstopped : phase.stopped = (state.phase container).stopped) :
    (state.moved container phase).Sound := by
  refine ⟨hsound.nodup, hsound.listed, hsound.unlisted, fun other => ?_⟩
  by_cases hother : other = container
  · subst hother
    have hfits := hsound.fits other
    exact hfits.moved (state.moved_phase_self other phase) (hmember ▸ hfits.member) hmissed
      hstarting hstopping rfl rfl hannounced hstopped
  · exact (hsound.fits other).of_same (moved_phase_of_ne hother) Iff.rfl rfl rfl Iff.rfl

theorem containerEventHandler_eq_none {running : Bool} {type : PubSubEventType}
    {container : Container} (hhandler : containerEventHandler running type container = none) :
    running = false := by
  cases running <;> simp_all [containerEventHandler]

theorem Sound.handle {state next : Startup} {container : Container} (hsound : state.Sound)
    (hstep : state.step (.handle container) = some next) : next.Sound := by
  have hnone : state.running = false → state.containers = none := by
    intro hrunning
    cases hcontainers : state.containers with
    | none => rfl
    | some containers =>
        have hlisted := (hsound.listed containers hcontainers).2
        rw [hrunning] at hlisted
        cases hlisted
  cases hphase : state.phase container with
  | added =>
      cases hhandler : containerEventHandler state.running .addContainer container with
      | some event =>
          obtain rfl : _ = next := by simpa [step, hphase, hhandler] using hstep
          have hevent : event = ⟨container, .start⟩ := by
            cases hrunning : state.running <;> simp_all [containerEventHandler]
          apply hsound.handled <;> simp [hphase, hevent, Phase.inCollection, Phase.announced,
            Phase.stopped]
      | none =>
          obtain rfl : _ = next := by simpa [step, hphase, hhandler] using hstep
          -- Not running yet: the list of containers is still to be made and will have this one.
          have hbefore := hnone (containerEventHandler_eq_none hhandler)
          apply hsound.handled <;> simp [hphase, hbefore, Phase.inCollection, Phase.announced,
            Phase.stopped]
  | removed announced =>
      cases hhandler : containerEventHandler state.running .removeContainer container with
      | some event =>
          obtain rfl : _ = next := by simpa [step, hphase, hhandler] using hstep
          have hevent : event = ⟨container, .stop⟩ := by
            cases hrunning : state.running <;> simp_all [containerEventHandler]
          apply hsound.handled <;> simp [hphase, hevent, Phase.inCollection, Phase.announced,
            Phase.stopped]
      | none =>
          obtain rfl : _ = next := by simpa [step, hphase, hhandler] using hstep
          apply hsound.handled <;> simp [hphase, Phase.inCollection, Phase.announced,
            Phase.stopped]
  | _ => simp [step, hphase] at hstep

theorem Sound.add {state next : Startup} {container : Container} (hsound : state.Sound)
    (hstep : state.step (.add container) = some next) : next.Sound := by
  simp only [step] at hstep
  split_ifs at hstep with hphase
  obtain rfl := Option.some.inj hstep
  have hfits := hsound.fits container
  have hout : container ∉ state.collection := by
    rw [hfits.member, hphase]
    exact Bool.false_ne_true
  refine ⟨?_, hsound.listed, hsound.unlisted, fun other => ?_⟩
  · have hnodup := hsound.nodup.concat hout
    rwa [List.concat_eq_append] at hnodup
  · by_cases hother : other = container
    · subst hother
      refine hfits.moved (state.moved_phase_self other .added) ?_ ?_ ?_ ?_ rfl rfl ?_ ?_ <;>
        simp [hphase, Phase.inCollection, Phase.announced, Phase.stopped]
    · exact (hsound.fits other).of_same (moved_phase_of_ne hother) (by simp [hother]) rfl rfl
        Iff.rfl

theorem Sound.remove {state next : Startup} {container : Container} (hsound : state.Sound)
    (hstep : state.step (.remove container) = some next) : next.Sound := by
  have hfits := hsound.fits container
  cases hphase : state.phase container with
  | present announced =>
      obtain rfl : _ = next := by simpa [step, hphase] using hstep
      refine ⟨hsound.nodup.erase _, hsound.listed, hsound.unlisted, fun other => ?_⟩
      by_cases hother : other = container
      · subst hother
        refine hfits.moved (state.moved_phase_self other (.removed announced)) ?_ ?_ ?_ ?_ rfl rfl
          ?_ ?_ <;>
          simp [hphase, Phase.inCollection, Phase.announced, Phase.stopped,
            hsound.nodup.not_mem_erase]
      · exact (hsound.fits other).of_same (moved_phase_of_ne hother)
          (List.mem_erase_of_ne hother) rfl rfl Iff.rfl
  | _ => simp [step, hphase] at hstep

/-- The listener was called with an event of the container. -/
theorem seenOf_snoc (state next : Startup) {event : ContainerActivityEvent}
    (hseen : next.seen = state.seen ++ [event]) (container : Container) :
    next.seenOf container =
      state.seenOf container ++ if event.container = container then [event.activity] else [] := by
  rw [seenOf, hseen]
  exact map_activity_snoc state.seen event container

theorem Sound.notify {state next : Startup} {container : Container} (hsound : state.Sound)
    (hstep : state.step (.notify container) = some next) : next.Sound := by
  have hfits := hsound.fits container
  have hmember := hfits.member
  have hannounced := hfits.announced
  have hstopped := hfits.stopped
  cases hphase : state.phase container with
  | starting event =>
      obtain rfl : _ = next := by simpa [step, hphase] using hstep
      obtain rfl := hfits.starting event hphase
      refine ⟨hsound.nodup, hsound.listed, hsound.unlisted, fun other => ?_⟩
      by_cases hother : other = container
      · subst hother
        -- The announcement is counted in the step that makes it.
        have hnow := state.moved_phase_self other (.present true)
        rw [hphase] at hmember hannounced hstopped
        refine ⟨by rwa [hnow], by simp, by simp, by simp, ?_, ?_⟩
        · rw [seenOf_snoc state _ rfl, if_pos rfl, announcements_snoc, hannounced, hnow]
          simp only [Phase.announced, reduceCtorEq, if_false, Bool.toNat_true, Bool.toNat_false]
          exact Nat.add_right_comm ..
        · rw [seenOf_snoc state _ rfl, if_pos rfl, stops_snoc, hstopped, hnow]
          rfl
      · refine (hsound.fits other).of_same (moved_phase_of_ne hother) Iff.rfl rfl ?_ Iff.rfl
        rw [seenOf_snoc state _ rfl, if_neg (Ne.symm hother), List.append_nil]
  | stopping announced event =>
      obtain rfl : _ = next := by simpa [step, hphase] using hstep
      obtain rfl := hfits.stopping announced event hphase
      refine ⟨hsound.nodup, hsound.listed, hsound.unlisted, fun other => ?_⟩
      by_cases hother : other = container
      · subst hother
        have hnow := state.moved_phase_self other (.gone announced true)
        rw [hphase] at hmember hannounced hstopped
        refine ⟨by rwa [hnow], by simp, by simp, by simp, ?_, ?_⟩
        · rw [seenOf_snoc state _ rfl, if_pos rfl, announcements_snoc, hannounced, hnow]
          rfl
        · rw [seenOf_snoc state _ rfl, if_pos rfl, stops_snoc, hstopped, hnow]
          rfl
      · refine (hsound.fits other).of_same (moved_phase_of_ne hother) Iff.rfl rfl ?_ Iff.rfl
        rw [seenOf_snoc state _ rfl, if_neg (Ne.symm hother), List.append_nil]
  | _ => simp [step, hphase] at hstep

theorem Sound.setRunning {state next : Startup} (hsound : state.Sound)
    (hstep : state.step .setRunning = some next) : next.Sound := by
  simp only [step] at hstep
  split_ifs at hstep
  obtain rfl := Option.some.inj hstep
  refine ⟨hsound.nodup, fun containers hcontainers => ?_, hsound.unlisted, fun container => ?_⟩
  · exact ⟨(hsound.listed containers hcontainers).1, rfl⟩
  · exact (hsound.fits container).of_same rfl Iff.rfl rfl rfl Iff.rfl

theorem Sound.snapshot {state next : Startup} {containers : List Container}
    (hsound : state.Sound) (hstep : state.step (.snapshot containers) = some next) :
    next.Sound := by
  simp only [step] at hstep
  split_ifs at hstep with hready
  obtain ⟨hrunning, hnone, hperm⟩ := hready
  obtain rfl := Option.some.inj hstep
  have hbefore : state.replayed = [] := by simp [replayed, hnone]
  have hafter : Startup.replayed { state with containers := some containers } = [] := by
    simp [replayed, hsound.unlisted hnone]
  refine ⟨hsound.nodup, ?_, by simp, fun container => ?_⟩
  · intro listed hlisted
    obtain rfl := Option.some.inj hlisted
    exact ⟨hperm.nodup_iff.mpr hsound.nodup, hrunning⟩
  · have hfits := hsound.fits container
    refine ⟨hfits.member, ?_, hfits.starting, hfits.stopping, ?_, hfits.stopped⟩
    · intro listed hlisted hphase
      obtain rfl := Option.some.inj hlisted
      have hphase : state.phase container = .present false := hphase
      rw [hperm.mem_iff, hfits.member, hphase]
      rfl
    · rw [hafter, ← hbefore]
      exact hfits.announced

/-- The container that comes next has not been reported from the list before. -/
theorem Sound.not_mem_replayed {state : Startup} {container : Container}
    (hsound : state.Sound) (hnext : state.upNext = some container) :
    container ∉ state.replayed := by
  obtain ⟨containers, hcontainers, hget⟩ := Option.bind_eq_some_iff.mp hnext
  have hnodup := (hsound.listed containers hcontainers).1
  obtain ⟨hlt, rfl⟩ := List.getElem?_eq_some_iff.mp hget
  simp only [replayed, hcontainers, Option.getD_some]
  intro hmem
  obtain ⟨index, hindex, heq⟩ := List.mem_take_iff_getElem.mp hmem
  have := (hnodup.getElem_inj_iff).mp heq
  omega

theorem replayed_replay {state : Startup} {container : Container}
    (hnext : state.upNext = some container) (seen : List ContainerActivityEvent) :
    Startup.replayed { state with next := state.next + 1, seen := seen } =
      state.replayed ++ [container] := by
  obtain ⟨containers, hcontainers, hget⟩ := Option.bind_eq_some_iff.mp hnext
  simp [replayed, hcontainers, List.take_add_one, hget]

theorem Sound.replay {state next : Startup} (hsound : state.Sound)
    (hstep : state.step .replay = some next) : next.Sound := by
  cases hnext : state.upNext with
  | none => simp [step, hnext] at hstep
  | some container =>
      obtain rfl : _ = next := by simpa [step, hnext] using hstep
      refine ⟨hsound.nodup, hsound.listed, ?_, fun other => ?_⟩
      · intro hnone
        simp [upNext, show state.containers = none from hnone] at hnext
      · have hfits := hsound.fits other
        have hreplayed := replayed_replay hnext (state.seen ++ [⟨container, .attached⟩])
        by_cases hother : other = container
        · subst hother
          have hfresh := hsound.not_mem_replayed hnext
          refine ⟨hfits.member, hfits.missed, hfits.starting, hfits.stopping, ?_, ?_⟩
          · rw [seenOf_snoc state _ rfl, if_pos rfl, announcements_snoc, hfits.announced, hreplayed]
            simp [hfresh]
          · rw [seenOf_snoc state _ rfl, if_pos rfl, stops_snoc, hfits.stopped]
            rfl
        · refine hfits.of_same rfl Iff.rfl rfl ?_ ?_
          · rw [seenOf_snoc state _ rfl, if_neg (Ne.symm hother), List.append_nil]
          · rw [hreplayed]
            simp [hother]

theorem Sound.step {state next : Startup} {label : StartupLabel} (hsound : state.Sound)
    (hstep : startupMachine.step state label = some next) : next.Sound := by
  cases label with
  | add container => exact hsound.add hstep
  | remove container => exact hsound.remove hstep
  | handle container => exact hsound.handle hstep
  | notify container => exact hsound.notify hstep
  | setRunning => exact hsound.setRunning hstep
  | snapshot containers => exact hsound.snapshot hstep
  | replay => exact hsound.replay hstep

/-- When `Start` is done, no container whose start is published was overlooked. -/
theorem Sound.complete {state : Startup} (hsound : state.Sound) (hreplayed : state.Replayed)
    {container : Container} {announced : Bool}
    (hphase : state.phase container = .present announced) : state.seenOf container ≠ [] := by
  obtain ⟨containers, hcontainers, hlength⟩ := hreplayed
  have hfits := hsound.fits container
  have hannounced := hfits.announced
  intro hempty
  rw [hempty, hphase] at hannounced
  cases announced with
  | true =>
      simp only [announcements, List.countP_nil, Phase.announced, Bool.toNat_true] at hannounced
      omega
  | false =>
      have hlisted : container ∈ state.replayed := by
        rw [Startup.replayed, hcontainers, Option.getD_some, List.take_of_length_le hlength]
        exact hfits.missed containers hcontainers hphase
      simp [announcements, Phase.announced, hlisted] at hannounced

/-! ## The condition -/

theorem Sound.orderly_iff {state : Startup} (hsound : state.Sound) :
    state.Orderly ↔ ∀ container, WellFormed (state.seenOf container) := by
  constructor
  · exact Orderly.wellFormed
  · intro hwellFormed
    exact ⟨hwellFormed, fun hreplayed container announced hphase =>
      hsound.complete hreplayed hphase⟩

/-- Where the listener is called with one more event, its container alone can get out of order. -/
theorem wellFormed_snoc_iff {state next : Startup} {event : ContainerActivityEvent}
    (hgood : ∀ container, WellFormed (state.seenOf container))
    (hseen : next.seen = state.seen ++ [event]) :
    (∀ container, WellFormed (next.seenOf container)) ↔
      WellFormed (state.seenOf event.container ++ [event.activity]) := by
  constructor
  · intro hnext
    have hevent := hnext event.container
    rwa [seenOf_snoc state next hseen, if_pos rfl] at hevent
  · intro hevent container
    rw [seenOf_snoc state next hseen]
    by_cases hcontainer : event.container = container
    · subst hcontainer
      rwa [if_pos rfl]
    · rw [if_neg hcontainer, List.append_nil]
      exact hgood container

theorem timely_replay {state next : Startup} (hsound : state.Sound)
    (hgood : ∀ container, WellFormed (state.seenOf container))
    (hstep : state.step .replay = some next) :
    state.Timely .replay ↔ ∀ container, WellFormed (next.seenOf container) := by
  cases hnext : state.upNext with
  | none => simp [step, hnext] at hstep
  | some container =>
      obtain rfl : _ = next := by simpa [step, hnext] using hstep
      have hannounced := (hsound.fits container).announced
      rw [if_neg (hsound.not_mem_replayed hnext), Nat.add_zero] at hannounced
      rw [wellFormed_snoc_iff hgood rfl, wellFormed_snoc_start (by simp) (hgood container),
        eq_nil_iff_announcements (hgood container), hannounced]
      simp [Timely, hnext]

theorem timely_notify {state next : Startup} {container : Container} (hsound : state.Sound)
    (hgood : ∀ container, WellFormed (state.seenOf container))
    (hstep : state.step (.notify container) = some next) :
    state.Timely (.notify container) ↔ ∀ container, WellFormed (next.seenOf container) := by
  have hfits := hsound.fits container
  have hannounced := hfits.announced
  have hstopped := hfits.stopped
  cases hphase : state.phase container with
  | starting event =>
      obtain rfl : _ = next := by simpa [step, hphase] using hstep
      obtain rfl := hfits.starting event hphase
      rw [wellFormed_snoc_iff hgood rfl, wellFormed_snoc_start (by simp) (hgood container),
        eq_nil_iff_announcements (hgood container), hannounced]
      simp [Timely, MayNotify, hphase, Phase.announced]
  | stopping announced event =>
      obtain rfl : _ = next := by simpa [step, hphase] using hstep
      obtain rfl := hfits.stopping announced event hphase
      rw [wellFormed_snoc_iff hgood rfl, wellFormed_snoc_stop (hgood container), hannounced,
        hstopped]
      by_cases hlisted : container ∈ state.replayed <;> cases announced <;>
        simp [Timely, MayNotify, hphase, hlisted, Phase.announced, Phase.stopped]
  | _ => simp [step, hphase] at hstep

/-- The steps that do not call the listener. -/
theorem seen_step {state next : Startup} {label : StartupLabel}
    (hstep : state.step label = some next) (hreplay : label ≠ .replay)
    (hnotify : ∀ container, label ≠ .notify container) :
    next.seen = state.seen ∧ state.Timely label := by
  cases label with
  | add container =>
      simp only [step] at hstep
      split_ifs at hstep
      obtain rfl := Option.some.inj hstep
      exact ⟨rfl, trivial⟩
  | remove container =>
      cases hphase : state.phase container <;> simp only [step, hphase, reduceCtorEq] at hstep
      obtain rfl := Option.some.inj hstep
      exact ⟨rfl, trivial⟩
  | handle container =>
      cases hrunning : state.running <;> cases hphase : state.phase container <;>
        simp only [step, hphase, hrunning, containerEventHandler, reduceCtorEq, if_true] at hstep
      all_goals
        obtain rfl := Option.some.inj hstep
        exact ⟨rfl, trivial⟩
  | setRunning =>
      simp only [step] at hstep
      split_ifs at hstep
      obtain rfl := Option.some.inj hstep
      exact ⟨rfl, trivial⟩
  | snapshot containers =>
      simp only [step] at hstep
      split_ifs at hstep
      obtain rfl := Option.some.inj hstep
      exact ⟨rfl, trivial⟩
  | notify container => exact absurd rfl (hnotify container)
  | replay => exact absurd rfl hreplay

/-- A step that calls the listener keeps order exactly if it is timely. -/
theorem timely_iff_orderly {state next : Startup} {label : StartupLabel}
    (hsound : state.Sound) (hgood : state.Orderly)
    (hstep : startupMachine.step state label = some next) :
    state.Timely label ↔ next.Orderly := by
  rw [(hsound.step hstep).orderly_iff]
  by_cases hreplay : label = .replay
  · subst hreplay
    exact timely_replay hsound hgood.wellFormed hstep
  · by_cases hnotify : ∃ container, label = .notify container
    · obtain ⟨container, rfl⟩ := hnotify
      exact timely_notify hsound hgood.wellFormed hstep
    · obtain ⟨hseen, htimely⟩ := seen_step hstep hreplay fun container heq =>
        hnotify ⟨container, heq⟩
      refine iff_of_true htimely fun container => ?_
      rw [seenOf, hseen]
      exact hgood.wellFormed container

theorem orderly_initial : initial.Orderly := by
  refine ⟨fun container => trivial, ?_⟩
  rintro ⟨containers, hcontainers, _⟩
  cases hcontainers

/-- Every listener sees every container in order in all states of a run exactly if each call
of a listener in it is timely. -/
theorem orderly_iff_timely {start last : Startup} {labels : List StartupLabel}
    (hinit : startupMachine.init start) (hrun : startupMachine.run start labels = some last) :
    (∀ before state, before <+: labels → startupMachine.run start before = some state →
      state.Orderly) ↔ startupMachine.Along Timely start labels := by
  obtain rfl : start = initial := hinit
  symm
  apply @Machine.along_iff_forall_prefix _ _ startupMachine _ Sound
  · intro state label next hsound hstep
    exact hsound.step hstep
  · intro state label next hsound hgood _ hstep
    exact timely_iff_orderly hsound hgood hstep
  · exact sound_initial
  · exact orderly_initial
  · exact hrun

def runningContainer : Container :=
  ⟨"nginx", "default", "web", 4026532201, "c1", 7⟩

def laterContainer : Container :=
  ⟨"redis", "default", "db", 4026532202, "c2", 8⟩

/-- One container runs when the tracer is started and stops later, another one comes later. -/
def quietStart : List StartupLabel :=
  [.add runningContainer, .handle runningContainer, .setRunning, .snapshot [runningContainer],
    .replay, .add laterContainer, .handle laterContainer, .notify laterContainer,
    .remove runningContainer, .handle runningContainer, .notify runningContainer]

theorem quietStart_orderly :
    ∃ last, startupMachine.run initial quietStart = some last ∧ last.Orderly := by
  obtain ⟨last, hrun⟩ := Option.isSome_iff_exists.mp
    (show (startupMachine.run initial quietStart).isSome by decide)
  have horderly := (orderly_iff_timely rfl hrun).mpr (by decide)
  exact ⟨last, hrun, horderly quietStart last (List.prefix_refl _) hrun⟩

/-- The container stops after the list was taken and before its turn in it. -/
theorem stopped_container_attached : ¬ ∀ start labels last, startupMachine.init start →
    startupMachine.run start labels = some last → last.Orderly := by
  intro hall
  have hseen : (startupMachine.run initial
      [.add runningContainer, .handle runningContainer, .setRunning,
        .snapshot [runningContainer], .remove runningContainer, .handle runningContainer,
        .notify runningContainer, .replay]).map (fun last => last.seenOf runningContainer) =
      some [.stop, .attached] := by decide
  obtain ⟨last, hrun, hlast⟩ := Option.map_eq_some_iff.mp hseen
  have hwellFormed := (hall initial _ last rfl hrun).wellFormed runningContainer
  rw [hlast] at hwellFormed
  exact hwellFormed.1 rfl

end Startup

end Kapprofiler.Tracing
