import Kapprofiler.Watch.Loop

/-! # Stopping the watch loop

`Stop` sets `w.watcher` to `nil`, which the loop takes at its next iteration for
a watch to be opened; only where it finds its channel closed does it look at
`w.running`. So `Stop` ends the loop exactly if it comes while the loop waits
with nothing on the way to it, or on the path of the closed channel before
`w.running` is read, or when the loop is about to give up or has ended.
-/

namespace Kapprofiler.Watch

inductive Action where
  /-- A step of the loop; `answer` is what a `Watch` call in it returns. -/
  | loop (answer : Option (List Event))
  | send (event : Event)
  | close
  | stop
deriving DecidableEq

/-- The loop that `Start` left, its server and the callers of `Stop`. -/
def loopMachine : Foundation.Machine Loop Action where
  init loop := ∃ lastResourceVersion events, loop = .started lastResourceVersion events
  step loop
    | .loop answer => loop.step answer
    | .send event => loop.send event
    | .close => some loop.close
    | .stop => some loop.stop

def Action.isLoop : Action → Bool
  | .loop _ => true
  | _ => false

namespace Loop

/-- Whatever happens from now on, no watch is opened and no callback invoked. -/
def Quiet (loop : Loop) : Prop :=
  ∀ labels last, loopMachine.run loop labels = some last →
    last.opened = loop.opened ∧ last.notified = loop.notified

/-- What is promised of the state that `Stop` returns in. The callback that is running, if
any, was recorded when it was invoked. -/
structure StaysStopped (loop : Loop) : Prop where
  quiet : loop.Quiet
  ends : ∀ labels last, loopMachine.run loop labels = some last → last.channel.closed = true →
    ∃ bound, loopMachine.EndsWithin Action.isLoop (fun ended => ended.point = .returned) bound
      last

/-- The places at which `Stop` does what it is meant to. -/
def StopsCleanly (loop : Loop) : Prop :=
  match loop.point with
  | .receiving => loop.channel.inFlight = []
  | .closed | .returned => True
  | .retrying attempt => 5 ≤ attempt
  | _ => False

/-! ## Where it works -/

/-- What the fields say about each other in every state. -/
structure Consistent (loop : Loop) : Prop where
  stopped : loop.w.watcher = false → loop.channel.stopped = true
  running : loop.w.watcher = false → loop.w.running = false ∨
    (∃ attempt, loop.point = .retrying attempt) ∨ loop.point = .returned
  closed : loop.point = .closed ∨ loop.point = .restarting → loop.channel.closed = true

theorem Consistent.step {loop next : Loop} {label : Action} (hloop : loop.Consistent)
    (hstep : loopMachine.step loop label = some next) : next.Consistent := by
  obtain ⟨hstopped, hrunning, hclosed⟩ := hloop
  cases label with
  | loop answer =>
      cases step_cases hstep with
      | opened events hpoint | reopened attempt events hpoint => constructor <;> simp [watch]
      | checked hpoint | openFailed hpoint | blocked hpoint | received _ _ hpoint
      | foundClosed hpoint | notified _ _ hpoint | skipped _ hpoint | callbackReturned hpoint
      | restart hpoint | stopped hpoint | oldStopped hpoint | retried _ hpoint
      | gaveUp _ hpoint => constructor <;> simp_all
  | send event =>
      rcases loop.send_cases event with ⟨hsend, _⟩ | ⟨_, _, hsend⟩
      · simp [loopMachine, hsend] at hstep
      · obtain rfl := Option.some.inj (hsend.symm.trans hstep)
        exact ⟨hstopped, hrunning, hclosed⟩
  | close =>
      obtain rfl := Option.some.inj hstep
      exact ⟨hstopped, hrunning, fun _ => rfl⟩
  | stop =>
      obtain rfl := Option.some.inj hstep
      cases hwatcher : loop.w.watcher with
      | true => constructor <;> simp_all [stop]
      | false => simpa [stop, hwatcher] using ⟨hstopped, hrunning, hclosed⟩

theorem consistent_of_reachable {loop : Loop} (hreach : loopMachine.Reachable loop) :
    loop.Consistent := by
  apply Foundation.Machine.Reachable.invariant _ _ hreach
  · rintro _ ⟨lastResourceVersion, events, rfl⟩
    constructor <;> simp [started]
  · intro state label next hstate hstep
    exact hstate.step hstep

/-- The loop is on its way out. -/
def Winding (loop : Loop) : Prop :=
  match loop.point with
  | .receiving =>
      loop.channel.inFlight = [] ∧ loop.channel.stopped = true ∧ loop.w.running = false
  | .closed => loop.w.running = false
  | .retrying attempt => 5 ≤ attempt
  | .returned => True
  | _ => False

theorem winding_stop {loop : Loop} (hloop : loop.Consistent) (hclean : loop.StopsCleanly) :
    loop.stop.Winding := by
  obtain ⟨hstopped, hrunning, _⟩ := hloop
  have hnow : loop.stop.channel.stopped = true ∧ (loop.stop.w.running = false ∨
      (∃ attempt, loop.point = .retrying attempt) ∨ loop.point = .returned) := by
    cases hwatcher : loop.w.watcher <;> simp_all [stop]
  cases hpoint : loop.point with
  | receiving =>
      have hempty : loop.channel.inFlight = [] := by simpa [StopsCleanly, hpoint] using hclean
      simpa [Winding, hpoint, hempty] using hnow
  | closed => simpa [Winding, hpoint] using hnow.2
  | retrying attempt => simpa [Winding, StopsCleanly, hpoint] using hclean
  | returned => simp [Winding, hpoint]
  | checkWatcher | resultChan | received _ | notifying | restarting =>
      simp [StopsCleanly, hpoint] at hclean

/-- A loop on its way out stays on it. -/
theorem Winding.step {loop next : Loop} {label : Action} (hloop : loop.Winding)
    (hstep : loopMachine.step loop label = some next) :
    next.Winding ∧ next.opened = loop.opened ∧ next.notified = loop.notified ∧
      (loop.channel.closed = true → next.channel.closed = true) := by
  cases label with
  | loop answer =>
      cases step_cases hstep with
      | checked hpoint | opened _ hpoint | openFailed hpoint | blocked hpoint
      | notified _ _ hpoint | skipped _ hpoint | callbackReturned hpoint | oldStopped hpoint =>
          simp [Winding, hpoint] at hloop
      | received event rest hpoint hinFlight => simp [Winding, hpoint, hinFlight] at hloop
      | foundClosed hpoint => simp_all [Winding]
      | restart hpoint hrunning => simp [Winding, hpoint, hrunning] at hloop
      | stopped hpoint | gaveUp _ hpoint => simp [Winding]
      | reopened attempt _ hpoint hattempt | retried attempt hpoint hattempt =>
          have hexhausted : 5 ≤ attempt := by simpa [Winding, hpoint] using hloop
          omega
  | send event =>
      rcases loop.send_cases event with ⟨hsend, _⟩ | ⟨hstopped, hopen, hsend⟩
      · simp [loopMachine, hsend] at hstep
      · obtain rfl := Option.some.inj (hsend.symm.trans hstep)
        refine ⟨?_, rfl, rfl, fun hclosed => hclosed⟩
        cases hpoint : loop.point <;> simp_all [Winding]
  | close =>
      obtain rfl := Option.some.inj hstep
      refine ⟨?_, rfl, rfl, fun _ => rfl⟩
      cases hpoint : loop.point <;> simp_all [Winding, close]
  | stop =>
      obtain rfl := Option.some.inj hstep
      refine ⟨?_, loop.stop_opened, loop.stop_notified, fun hclosed => ?_⟩
      · cases hwatcher : loop.w.watcher <;> cases hpoint : loop.point <;>
          simp_all [Winding, stop]
      · rwa [stop_closed]

theorem Winding.run {loop last : Loop} {labels : List Action} (hloop : loop.Winding)
    (hrun : loopMachine.run loop labels = some last) :
    last.Winding ∧ last.opened = loop.opened ∧ last.notified = loop.notified := by
  apply @Foundation.Machine.run_invariant _ _ loopMachine
    (fun last => last.Winding ∧ last.opened = loop.opened ∧ last.notified = loop.notified)
    _ loop last labels ⟨hloop, rfl, rfl⟩ hrun
  intro state label next ⟨hstate, hopened, hnotified⟩ hstep
  obtain ⟨hnext, hopened', hnotified', _⟩ := hstate.step hstep
  exact ⟨hnext, hopened'.trans hopened, hnotified'.trans hnotified⟩

/-- The steps that a loop on its way out has left. -/
def stepsLeft (loop : Loop) : Nat :=
  match loop.point with
  | .receiving => 2
  | .closed | .retrying _ => 1
  | _ => 0

theorem Winding.stepsLeft_step {loop next : Loop} {label : Action} (hloop : loop.Winding)
    (hstep : loopMachine.step loop label = some next) :
    next.stepsLeft + (if label.isLoop then 1 else 0) ≤ loop.stepsLeft := by
  cases label with
  | loop answer =>
      cases step_cases hstep with
      | reopened attempt _ hpoint hattempt | retried attempt hpoint hattempt =>
          have hexhausted : 5 ≤ attempt := by simpa [Winding, hpoint] using hloop
          omega
      | _ => simp_all [Winding, stepsLeft, Action.isLoop]
  | send event =>
      rcases loop.send_cases event with ⟨hsend, _⟩ | ⟨_, _, hsend⟩
      · simp [loopMachine, hsend] at hstep
      · obtain rfl := Option.some.inj (hsend.symm.trans hstep)
        simp [stepsLeft, Action.isLoop]
  | close =>
      obtain rfl := Option.some.inj hstep
      simp [stepsLeft, Action.isLoop, close]
  | stop =>
      obtain rfl := Option.some.inj hstep
      simp [stepsLeft, Action.isLoop]

theorem Winding.endsWithin {loop : Loop} (hloop : loop.Winding)
    (hclosed : loop.channel.closed = true) :
    loopMachine.EndsWithin Action.isLoop (fun ended => ended.point = .returned) loop.stepsLeft
      loop := by
  apply @Foundation.Machine.endsWithin_rank _ _ loopMachine _ _
    (fun loop => loop.Winding ∧ loop.channel.closed = true) stepsLeft _ _ loop ⟨hloop, hclosed⟩
  · intro state label next ⟨hstate, hshut⟩ hstep
    obtain ⟨hnext, _, _, hkept⟩ := hstate.step hstep
    refine ⟨⟨hnext, hkept hshut⟩, ?_⟩
    exact hstate.stepsLeft_step hstep
  · intro state ⟨hstate, hshut⟩ hgoing
    refine ⟨.loop none, rfl, ?_⟩
    cases hpoint : state.point with
    | receiving => simp_all [Winding, loopMachine, Loop.step]
    | closed => simp_all [Winding, loopMachine, Loop.step]
    | retrying attempt =>
        have hexhausted : ¬ attempt < 5 := by simpa [Winding, hpoint] using hstate
        simp [loopMachine, Loop.step, hpoint, hexhausted]
    | returned => exact absurd hpoint hgoing
    | checkWatcher | resultChan | received _ | notifying | restarting =>
        simp [Winding, hpoint] at hstate

theorem staysStopped_of_winding {loop : Loop} (hloop : loop.Winding) : loop.StaysStopped := by
  refine ⟨fun labels last hrun => (hloop.run hrun).2, ?_⟩
  intro labels last hrun hclosed
  exact ⟨last.stepsLeft, (hloop.run hrun).1.endsWithin hclosed⟩

/-! ## Where it does not -/

theorem Quiet.step {loop next : Loop} {label : Action} (hquiet : loop.Quiet)
    (hstep : loopMachine.step loop label = some next) :
    next.opened = loop.opened ∧ next.notified = loop.notified ∧ next.Quiet := by
  obtain ⟨hopened, hnotified⟩ :=
    hquiet [label] next (loopMachine.run_cons.mpr ⟨next, hstep, rfl⟩)
  refine ⟨hopened, hnotified, ?_⟩
  intro labels last hrun
  obtain ⟨hlast, hcalls⟩ := hquiet (label :: labels) last
    (loopMachine.run_cons.mpr ⟨next, hstep, hrun⟩)
  exact ⟨hlast.trans hopened.symm, hcalls.trans hnotified.symm⟩

/-- The loop takes the `nil` that `Stop` left for a watch to be opened. -/
theorem not_quiet_checkWatcher {loop : Loop} (hpoint : loop.point = .checkWatcher)
    (hwatcher : loop.w.watcher = false) : ¬ loop.Quiet := by
  intro hquiet
  have hstep : loopMachine.step loop (.loop (some [])) = some (loop.watch [] .resultChan) := by
    simp [loopMachine, Loop.step, hpoint, hwatcher]
  have hopened := (hquiet.step hstep).1
  simp [watch] at hopened

theorem not_quiet_notifying {loop : Loop} (hpoint : loop.point = .notifying)
    (hwatcher : loop.w.watcher = false) : ¬ loop.Quiet := by
  intro hquiet
  have hstep : loopMachine.step loop (.loop none) =
      some { loop with point := .checkWatcher } := by
    simp [loopMachine, Loop.step, hpoint]
  exact absurd (hquiet.step hstep).2.2 (not_quiet_checkWatcher rfl hwatcher)

/-- An event in the loop's hand still goes to its callback. -/
theorem not_quiet_received {loop : Loop} {event : Event} (hpoint : loop.point = .received event)
    (hwatcher : loop.w.watcher = false) : ¬ loop.Quiet := by
  intro hquiet
  cases hnotification : event.notification with
  | some notification =>
      have hstep : loopMachine.step loop (.loop none) = some { loop with
          w := loop.w.observe event, point := .notifying
          notified := loop.notified ++ [notification] } := by
        simp [loopMachine, Loop.step, hpoint, hnotification]
      have hnotified := (hquiet.step hstep).2.1
      simp at hnotified
  | none =>
      have hstep : loopMachine.step loop (.loop none) = some { loop with
          w := loop.w.observe event, point := .checkWatcher } := by
        simp [loopMachine, Loop.step, hpoint, hnotification]
      refine not_quiet_checkWatcher rfl ?_ (hquiet.step hstep).2.2
      rw [Watcher.observe_watcher, hwatcher]

theorem not_quiet_receiving {loop : Loop} (hpoint : loop.point = .receiving)
    (hinFlight : loop.channel.inFlight ≠ []) (hwatcher : loop.w.watcher = false) :
    ¬ loop.Quiet := by
  intro hquiet
  obtain ⟨event, rest, hevents⟩ := List.exists_cons_of_ne_nil hinFlight
  have hstep : loopMachine.step loop (.loop none) = some { loop with
      channel := { loop.channel with inFlight := rest }, point := .received event } := by
    simp [loopMachine, Loop.step, hpoint, hevents]
  exact absurd (hquiet.step hstep).2.2 (not_quiet_received rfl hwatcher)

/-- The retries do not look at what `Stop` could have changed. -/
theorem not_quiet_retrying {loop : Loop} {attempt : Nat}
    (hpoint : loop.point = .retrying attempt) (hattempt : attempt < 5) : ¬ loop.Quiet := by
  intro hquiet
  have hstep : loopMachine.step loop (.loop (some [])) =
      some (loop.watch [] .checkWatcher) := by
    simp [loopMachine, Loop.step, hpoint, hattempt]
  have hopened := (hquiet.step hstep).1
  simp [watch] at hopened

/-- Where the loop is about to use `w.watcher`, the `nil` that `Stop` left kills it. -/
theorem not_endsWithin_of_nil {loop : Loop} {bound : Nat}
    (hpoint : loop.point = .resultChan ∨ loop.point = .restarting)
    (hwatcher : loop.w.watcher = false) :
    ¬ loopMachine.EndsWithin Action.isLoop (fun ended => ended.point = .returned) bound loop := by
  intro hends
  obtain ⟨label, hown, hstep⟩ := (hends [] loop rfl).2 (by rcases hpoint with h | h <;> simp [h])
  cases label with
  | loop answer => rcases hpoint with h | h <;> simp [loopMachine, Loop.step, h, hwatcher] at hstep
  | send _ | close | stop => cases hown

theorem stopsCleanly_of_staysStopped {loop : Loop} (hloop : loop.Consistent)
    (hstays : loop.stop.StaysStopped) : loop.StopsCleanly := by
  obtain ⟨hquiet, hends⟩ := hstays
  have hwatcher := loop.stop_watcher
  cases hpoint : loop.point with
  | checkWatcher => exact absurd hquiet (not_quiet_checkWatcher (by simpa) hwatcher)
  | notifying => exact absurd hquiet (not_quiet_notifying (by simpa) hwatcher)
  | received event => exact absurd hquiet (@not_quiet_received _ event (by simpa) hwatcher)
  | receiving =>
      have hempty : loop.channel.inFlight = [] := by
        by_contra hsome
        exact not_quiet_receiving (by simpa) (by simpa) hwatcher hquiet
      simpa [StopsCleanly, hpoint] using hempty
  | retrying attempt =>
      have hexhausted : 5 ≤ attempt := by
        by_contra hmore
        exact @not_quiet_retrying _ attempt (by simpa) (by omega) hquiet
      simpa [StopsCleanly, hpoint] using hexhausted
  | resultChan =>
      obtain ⟨bound, hbound⟩ := hends [.close] loop.stop.close rfl rfl
      exact absurd hbound (not_endsWithin_of_nil (.inl (by simpa [close])) (by simp [close]))
  | restarting =>
      have hclosed : loop.stop.channel.closed = true := by
        rw [stop_closed]
        exact hloop.closed (.inr hpoint)
      obtain ⟨bound, hbound⟩ := hends [] loop.stop rfl hclosed
      exact absurd hbound (not_endsWithin_of_nil (.inr (by simpa)) hwatcher)
  | closed | returned => simp [StopsCleanly, hpoint]

/-- `Stop` keeps its promise exactly where it comes while the loop waits with nothing in
flight, before the loop reads `w.running`, after the last retry or after its end. -/
theorem staysStopped_iff_stopsCleanly {start loop : Loop} {labels : List Action}
    (hinit : loopMachine.init start) (hrun : loopMachine.run start labels = some loop) :
    loop.stop.StaysStopped ↔ loop.StopsCleanly := by
  have hloop := consistent_of_reachable ⟨start, labels, hinit, hrun⟩
  constructor
  · exact stopsCleanly_of_staysStopped hloop
  · intro hclean
    exact staysStopped_of_winding (winding_stop hloop hclean)

/-- The loop waits, and nothing has been sent. -/
def idle : Loop := { started "" [] with point := .receiving }

theorem idle_staysStopped : idle.stop.StaysStopped := by
  have hinit : loopMachine.init (started "" []) := ⟨"", [], rfl⟩
  have hrun : loopMachine.run (started "" []) [.loop none, .loop none] = some idle := by decide
  exact (staysStopped_iff_stopsCleanly hinit hrun).mpr rfl

/-- `Stop` comes while a callback runs. -/
theorem notifying_reopens : ¬ ∀ start labels loop, loopMachine.init start →
    loopMachine.run start labels = some loop → loop.stop.StaysStopped := by
  intro hall
  have hpoint : (loopMachine.run (started "" [.added ⟨"pod-a", "5"⟩])
      (.replicate 4 (.loop none))).map point = some .notifying := by decide
  obtain ⟨loop, hrun, hloop⟩ := Option.map_eq_some_iff.mp hpoint
  have hstays := hall _ _ loop ⟨"", _, rfl⟩ hrun
  exact not_quiet_notifying (by rw [stop_point, hloop]) loop.stop_watcher hstays.quiet

end Loop

end Kapprofiler.Watch
