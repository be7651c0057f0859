import Mathlib.Algebra.Group.Nat.Defs
import Kapprofiler.Foundation.Machine

/-! # The watch loop

The goroutine of `Watcher.Start`, one step for each point at which another
goroutine can run, and `Watcher.Stop`. The server's side of a watch is its
result channel: it sends events into it until it is told to stop, and closes it
at some time.
-/

namespace Kapprofiler.Watch

/-! ## Resource versions -/

/-- The digits of `strconv.ParseUint` in base 10. -/
def parseUint (digits : List Char) : Option Nat :=
  if digits.isEmpty then none
  else digits.foldlM (fun value digit =>
    if digit.isDigit then some (value * 10 + (digit.toNat - '0'.toNat)) else none) 0

/-- `strconv.ParseInt(text, 10, 64)`, `none` standing for the syntax and the range error. -/
def parseInt (text : String) : Option Int :=
  match text.toList with
  | '+' :: digits => (parseUint digits).bind fun value =>
      if value < 2 ^ 63 then some (value : Int) else none
  | '-' :: digits => (parseUint digits).bind fun value =>
      if value ≤ 2 ^ 63 then some (-(value : Int)) else none
  | digits => (parseUint digits).bind fun value =>
      if value < 2 ^ 63 then some (value : Int) else none

def isResourceVersionHigher (resourceVersion currentResourceVersion : String) : Bool :=
  if currentResourceVersion = "" then true
  else match parseInt resourceVersion with
    | none => false
    | some resourceVersionInt => match parseInt currentResourceVersion with
      | none => false
      | some currentResourceVersionInt =>
          decide (currentResourceVersionInt < resourceVersionInt)

theorem parseInt_empty : parseInt "" = none := by decide

/-! ## Events and callbacks -/

/-- What the loop and its callers tell watched objects apart by. -/
structure Object where
  name : String
  resourceVersion : String
deriving DecidableEq

structure Status where
  code : Int
  resourceVersion : String
deriving DecidableEq

inductive Event where
  | added (object : Object)
  | modified (object : Object)
  | deleted (object : Object)
  | bookmark (object : Object)
  | error (watchError : Status)
deriving DecidableEq

def Event.getResourceVersion : Event → String
  | .added object | .modified object | .deleted object | .bookmark object =>
      object.resourceVersion
  | .error watchError => watchError.resourceVersion

/-- A call of one of the `WatchNotifyFunctions` that report objects. -/
inductive Notification where
  | addFunc (object : Object)
  | updateFunc (object : Object)
  | deleteFunc (object : Object)
deriving DecidableEq

def Notification.object : Notification → Object
  | .addFunc object | .updateFunc object | .deleteFunc object => object

/-- The call that the switch over the event's type makes. -/
def Event.notification : Event → Option Notification
  | .added object => some (.addFunc object)
  | .modified object => some (.updateFunc object)
  | .deleted object => some (.deleteFunc object)
  | .bookmark _ | .error _ => none

/-- The fields of `Watcher` that the loop and `Stop` share. `watcher` is whether `w.watcher`
is set; when it is, it is the watch that was opened last. -/
structure Watcher where
  watcher : Bool
  lastResourceVersion : String
  running : Bool
deriving DecidableEq

/-- What an event does to the resume version: the update before the switch and, for the
error that the version is too old, the reset in it. -/
def Watcher.observe (w : Watcher) (event : Event) : Watcher :=
  let seen :=
    if event.getResourceVersion ≠ "" ∧
        isResourceVersionHigher event.getResourceVersion w.lastResourceVersion then
      { w with lastResourceVersion := event.getResourceVersion }
    else w
  match event with
  | .error watchError =>
      if watchError.code = 410 then { seen with lastResourceVersion := "" } else seen
  | _ => seen

@[simp] theorem Watcher.observe_watcher (w : Watcher) (event : Event) :
    (w.observe event).watcher = w.watcher := by
  cases event <;> simp only [observe] <;> split_ifs <;> rfl

@[simp] theorem Watcher.observe_running (w : Watcher) (event : Event) :
    (w.observe event).running = w.running := by
  cases event <;> simp only [observe] <;> split_ifs <;> rfl

/-- The resume version is never anything but the old one, the event's own or empty. -/
theorem Watcher.observe_lastResourceVersion (w : Watcher) (event : Event) :
    (w.observe event).lastResourceVersion = w.lastResourceVersion ∨
      (w.observe event).lastResourceVersion = event.getResourceVersion ∨
        (w.observe event).lastResourceVersion = "" := by
  cases event <;> simp only [observe] <;> split_ifs <;> simp

/-! ## The loop -/

/-- The result channel of a watch. -/
structure Channel where
  inFlight : List Event
  stopped : Bool
  closed : Bool
deriving DecidableEq

/-- Where the goroutine is: the statement it executes next. -/
inductive Point where
  /-- `if w.watcher == nil`. -/
  | checkWatcher
  /-- `w.watcher.ResultChan()`. -/
  | resultChan
  /-- Receiving from the channel. -/
  | receiving
  /-- An event was received and not looked at yet. -/
  | received (event : Event)
  /-- A callback is running. -/
  | notifying
  /-- The channel was found closed: `if w.running`. -/
  | closed
  /-- `w.watcher.Stop()` before the restart. -/
  | restarting
  /-- The retries of the restart. -/
  | retrying (attempt : Nat)
  | returned
deriving DecidableEq

/-- The goroutine and what it shares. `resourceVersion` is the one in `listOptions`; the
channel is that of the watch opened last. -/
structure Loop where
  w : Watcher
  point : Point
  resourceVersion : String
  channel : Channel
  opened : Nat
  notified : List Notification
deriving DecidableEq

namespace Loop

/-- The state that `Start` leaves: the watch is open and the goroutine begins. -/
def started (lastResourceVersion : String) (events : List Event) : Loop :=
  { w := ⟨true, lastResourceVersion, true⟩, point := .checkWatcher
    resourceVersion := lastResourceVersion, channel := ⟨events, false, false⟩, opened := 1
    notified := [] }

/-- A successful `Watch` call, whose watch has `events` to send. -/
def watch (loop : Loop) (events : List Event) (point : Point) : Loop :=
  { loop with
    w := { loop.w with watcher := true }, point := point, channel := ⟨events, false, false⟩
    opened := loop.opened + 1 }

/-- One step of the goroutine. `answer` is what `Watch` returns if the step calls it: the
events that the new watch has to send, or an error. A goroutine that waits, or that
dereferences the `nil` that `Stop` left, has no step. -/
def step (loop : Loop) (answer : Option (List Event)) : Option Loop :=
  match loop.point with
  | .checkWatcher =>
      if loop.w.watcher then some { loop with point := .resultChan }
      else match answer with
        | some events => some (loop.watch events .resultChan)
        | none => some { loop with point := .returned }
  | .resultChan => if loop.w.watcher then some { loop with point := .receiving } else none
  | .receiving =>
      match loop.channel.inFlight with
      | event :: rest =>
          some { loop with
            channel := { loop.channel with inFlight := rest }, point := .received event }
      | [] => if loop.channel.closed then some { loop with point := .closed } else none
  | .received event =>
      match event.notification with
      | some notification =>
          some { loop with
            w := loop.w.observe event, point := .notifying
            notified := loop.notified ++ [notification] }
      | none => some { loop with w := loop.w.observe event, point := .checkWatcher }
  | .notifying => some { loop with point := .checkWatcher }
  | .closed =>
      if loop.w.running then some { loop with point := .restarting }
      else some { loop with point := .returned }
  | .restarting =>
      if loop.w.watcher then
        some { loop with
          w := { loop.w with watcher := false }
          channel := { loop.channel with stopped := true }
          resourceVersion := loop.w.lastResourceVersion, point := .retrying 0 }
      else none
  | .retrying attempt =>
      if attempt < 5 then
        match answer with
        | some events => some (loop.watch events .checkWatcher)
        | none => some { loop with point := .retrying (attempt + 1) }
      else some { loop with point := .returned }
  | .returned => none

/-- What one step of the goroutine can be. -/
inductive Stepped (loop : Loop) (answer : Option (List Event)) : Loop → Prop
  | checked (hpoint : loop.point = .checkWatcher) (hwatcher : loop.w.watcher = true) :
      Stepped loop answer { loop with point := .resultChan }
  | opened (events : List Event) (hpoint : loop.point = .checkWatcher)
      (hwatcher : loop.w.watcher = false) (hanswer : answer = some events) :
      Stepped loop answer (loop.watch events .resultChan)
  | openFailed (hpoint : loop.point = .checkWatcher) (hwatcher : loop.w.watcher = false)
      (hanswer : answer = none) : Stepped loop answer { loop with point := .returned }
  | blocked (hpoint : loop.point = .resultChan) (hwatcher : loop.w.watcher = true) :
      Stepped loop answer { loop with point := .receiving }
  | received (event : Event) (rest : List Event) (hpoint : loop.point = .receiving)
      (hinFlight : loop.channel.inFlight = event :: rest) :
      Stepped loop answer { loop with
        channel := { loop.channel with inFlight := rest }, point := .received event }
  | foundClosed (hpoint : loop.point = .receiving) (hinFlight : loop.channel.inFlight = [])
      (hclosed : loop.channel.closed = true) :
      Stepped loop answer { loop with point := .closed }
  | notified (event : Event) (notification : Notification)
      (hpoint : loop.point = .received event)
      (hnotification : event.notification = some notification) :
      Stepped loop answer { loop with
        w := loop.w.observe event, point := .notifying
        notified := loop.notified ++ [notification] }
  | skipped (event : Event) (hpoint : loop.point = .received event)
      (hnotification : event.notification = none) :
      Stepped loop answer { loop with w := loop.w.observe event, point := .checkWatcher }
  | callbackReturned (hpoint : loop.point = .notifying) :
      Stepped loop answer { loop with point := .checkWatcher }
  | restart (hpoint : loop.point = .closed) (hrunning : loop.w.running = true) :
      Stepped loop answer { loop with point := .restarting }
  | stopped (hpoint : loop.point = .closed) (hrunning : loop.w.running = false) :
      Stepped loop answer { loop with point := .returned }
  | oldStopped (hpoint : loop.point = .restarting) (hwatcher : loop.w.watcher = true) :
      Stepped loop answer { loop with
        w := { loop.w with watcher := false }
        channel := { loop.channel with stopped := true }
        resourceVersion := loop.w.lastResourceVersion, point := .retrying 0 }
  | reopened (attempt : Nat) (events : List Event) (hpoint : loop.point = .retrying attempt)
      (hattempt : attempt < 5) (hanswer : answer = some events) :
      Stepped loop answer (loop.watch events .checkWatcher)
  | retried (attempt : Nat) (hpoint : loop.point = .retrying attempt) (hattempt : attempt < 5)
      (hanswer : answer = none) :
      Stepped loop answer { loop with point := .retrying (attempt + 1) }
  | gaveUp (attempt : Nat) (hpoint : loop.point = .retrying attempt) (hattempt : 5 ≤ attempt) :
      Stepped loop answer { loop with point := .returned }

theorem step_cases {loop next : Loop} {answer : Option (List Event)}
    (hstep : loop.step answer = some next) : Stepped loop answer next := by
  cases hpoint : loop.point with
  | checkWatcher =>
      cases hwatcher : loop.w.watcher with
      | true =>
          obtain rfl : _ = next := by simpa [step, hpoint, hwatcher] using hstep
          exact .checked hpoint hwatcher
      | false =>
          cases hanswer : answer with
          | some events =>
              obtain rfl : _ = next := by simpa [step, hpoint, hwatcher, hanswer] using hstep
              exact .opened events hpoint hwatcher rfl
          | none =>
              obtain rfl : _ = next := by simpa [step, hpoint, hwatcher, hanswer] using hstep
              exact .openFailed hpoint hwatcher rfl
  | resultChan =>
      obtain ⟨hwatcher, rfl⟩ : loop.w.watcher = true ∧ _ = next := by
        simpa [step, hpoint] using hstep
      exact .blocked hpoint hwatcher
  | receiving =>
      cases hinFlight : loop.channel.inFlight with
      | nil =>
          obtain ⟨hclosed, rfl⟩ : loop.channel.closed = true ∧ _ = next := by
            simpa [step, hpoint, hinFlight] using hstep
          exact .foundClosed hpoint hinFlight hclosed
      | cons event rest =>
          obtain rfl : _ = next := by simpa [step, hpoint, hinFlight] using hstep
          exact .received event rest hpoint hinFlight
  | received event =>
      cases hnotification : event.notification with
      | some notification =>
          obtain rfl : _ = next := by simpa [step, hpoint, hnotification] using hstep
          exact .notified event notification hpoint hnotification
      | none =>
          obtain rfl : _ = next := by simpa [step, hpoint, hnotification] using hstep
          exact .skipped event hpoint hnotification
  | notifying =>
      obtain rfl : _ = next := by simpa [step, hpoint] using hstep
      exact .callbackReturned hpoint
  | closed =>
      cases hrunning : loop.w.running with
      | true =>
          obtain rfl : _ = next := by simpa [step, hpoint, hrunning] using hstep
          exact .restart hpoint hrunning
      | false =>
          obtain rfl : _ = next := by simpa [step, hpoint, hrunning] using hstep
          exact .stopped hpoint hrunning
  | restarting =>
      obtain ⟨hwatcher, rfl⟩ : loop.w.watcher = true ∧ _ = next := by
        simpa [step, hpoint] using hstep
      exact .oldStopped hpoint hwatcher
  | retrying attempt =>
      by_cases hattempt : attempt < 5
      · cases hanswer : answer with
        | some events =>
            obtain rfl : _ = next := by simpa [step, hpoint, hattempt, hanswer] using hstep
            exact .reopened attempt events hpoint hattempt rfl
        | none =>
            obtain rfl : _ = next := by simpa [step, hpoint, hattempt, hanswer] using hstep
            exact .retried attempt hpoint hattempt rfl
      · obtain rfl : _ = next := by simpa [step, hpoint, hattempt] using hstep
        exact .gaveUp attempt hpoint (by omega)
  | returned => simp [step, hpoint] at hstep

/-- `Watcher.Stop`. -/
def stop (loop : Loop) : Loop :=
  if loop.w.watcher then
    { loop with
      w := { loop.w with running := false, watcher := false }
      channel := { loop.channel with stopped := true } }
  else loop

@[simp] theorem stop_watcher (loop : Loop) : loop.stop.w.watcher = false := by
  cases hwatcher : loop.w.watcher <;> simp [stop, hwatcher]

@[simp] theorem stop_point (loop : Loop) : loop.stop.point = loop.point := by
  unfold stop
  split_ifs <;> rfl

@[simp] theorem stop_inFlight (loop : Loop) :
    loop.stop.channel.inFlight = loop.channel.inFlight := by
  unfold stop
  split_ifs <;> rfl

@[simp] theorem stop_closed (loop : Loop) : loop.stop.channel.closed = loop.channel.closed := by
  unfold stop
  split_ifs <;> rfl

@[simp] theorem stop_opened (loop : Loop) : loop.stop.opened = loop.opened := by
  unfold stop
  split_ifs <;> rfl

@[simp] theorem stop_notified (loop : Loop) : loop.stop.notified = loop.notified := by
  unfold stop
  split_ifs <;> rfl

/-- The server hands an event to the watch, which takes none once it is stopped or closed. -/
def send (loop : Loop) (event : Event) : Option Loop :=
  if loop.channel.stopped ∨ loop.channel.closed then none
  else some { loop with
    channel := { loop.channel with inFlight := loop.channel.inFlight ++ [event] } }

theorem send_cases (loop : Loop) (event : Event) :
    loop.send event = none ∧ (loop.channel.stopped = true ∨ loop.channel.closed = true) ∨
      loop.channel.stopped = false ∧ loop.channel.closed = false ∧
        loop.send event = some { loop with
          channel := { loop.channel with inFlight := loop.channel.inFlight ++ [event] } } := by
  cases hstopped : loop.channel.stopped <;> cases hclosed : loop.channel.closed <;>
    simp [send, hstopped, hclosed]

/-- The channel is closed; what the loop has not received by then it never receives. -/
def close (loop : Loop) : Loop :=
  { loop with channel := { loop.channel with inFlight := [], closed := true } }

end Loop

end Kapprofiler.Watch
