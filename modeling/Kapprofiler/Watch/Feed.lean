import Kapprofiler.Watch.Loop

/-! # The server of a watch

The server answers a watch without a resource version with the objects that
exist, in any order, and a watch from a version with the changes above it. What
it sends are events, which the loop takes one by one as long as the watch is
open.
-/

namespace Kapprofiler.Watch

/-! ## The server -/

/-- A resource version of the server's: a text and the number that the loop reads in it. -/
structure Version where
  text : String
  value : Int
  parses : parseInt text = some value
deriving DecidableEq

theorem Version.text_ne_empty (version : Version) : version.text ≠ "" := by
  intro hempty
  have hparses := version.parses
  rw [hempty, parseInt_empty] at hparses
  cases hparses

inductive ChangeType where
  | added
  | modified
  | deleted
deriving DecidableEq

structure Change where
  type : ChangeType
  name : String
  version : Version
deriving DecidableEq

namespace Change

/-- The change has a lower version than the other. -/
abbrev Older (change other : Change) : Prop := change.version.value < other.version.value

/-- The object as the change leaves it, or as it was when it was deleted. -/
def object (change : Change) : Object := ⟨change.name, change.version.text⟩

/-- The event that reports the change as it happens. -/
def event (change : Change) : Event :=
  match change.type with
  | .added => .added change.object
  | .modified => .modified change.object
  | .deleted => .deleted change.object

/-- Every change is reported to some callback, with the object it made. -/
theorem exists_notification (change : Change) : ∃ notification,
    change.event.notification = some notification ∧ notification.object = change.object := by
  cases htype : change.type with
  | added => exact ⟨.addFunc change.object, by simp [event, htype, Event.notification], rfl⟩
  | modified =>
      exact ⟨.updateFunc change.object, by simp [event, htype, Event.notification], rfl⟩
  | deleted =>
      exact ⟨.deleteFunc change.object, by simp [event, htype, Event.notification], rfl⟩

theorem event_getResourceVersion (change : Change) :
    change.event.getResourceVersion = change.version.text := by
  cases htype : change.type <;> simp [event, htype, Event.getResourceVersion, object]

end Change

/-- The changes that made the objects which exist after them: the last of each name that
is no deletion. -/
def existing : List Change → List Change
  | [] => []
  | change :: later =>
      if change.type ≠ .deleted ∧ ∀ other ∈ later, other.name ≠ change.name then
        change :: existing later
      else existing later

theorem mem_of_mem_existing {changes : List Change} {change : Change}
    (hchange : change ∈ existing changes) : change ∈ changes := by
  induction changes with
  | nil => exact hchange
  | cons first later ih =>
      rw [existing] at hchange
      split_ifs at hchange with hfirst
      · rcases List.mem_cons.mp hchange with hhead | hlater
        · exact hhead ▸ List.mem_cons_self
        · exact List.mem_cons_of_mem _ (ih hlater)
      · exact List.mem_cons_of_mem _ (ih hchange)

/-- What the server has for a new watch from the version: objects to list, and changes. Without
a version it lists the existing objects, in the given order; it refuses a version that is no
number. -/
def answer (changes order : List Change) (resourceVersion : String) :
    Option (List Change × List Change) :=
  if resourceVersion = "" then some (order, [])
  else (parseInt resourceVersion).map fun version =>
    ([], changes.filter fun change => decide (version < change.version.value))

/-- The events of a watch: listed objects are sent as added. -/
def eventsOf (listed live : List Change) : List Event :=
  listed.map (fun change => .added change.object) ++ live.map Change.event

theorem isResourceVersionHigher_of_parses {version : Version} {current : String} {value : Int}
    (hcurrent : parseInt current = some value) :
    isResourceVersionHigher version.text current = decide (value < version.value) := by
  have hne : current ≠ "" := by
    intro hempty
    rw [hempty, parseInt_empty] at hcurrent
    cases hcurrent
  simp [isResourceVersionHigher, hne, version.parses, hcurrent]

/-! ## What is owed to the callbacks -/

/-- An object that existed when the watch began, or a change made since. -/
inductive Owed where
  | object (name : String)
  | change (change : Change)
deriving DecidableEq

/-- A callback that gets the object settles what is owed. -/
def Owed.SettledBy : Owed → Object → Prop
  | .object name, reported => reported.name = name
  | .change made, reported => reported = made.object

instance : ∀ (owed : Owed) (reported : Object), Decidable (owed.SettledBy reported)
  | .object name, reported => inferInstanceAs (Decidable (reported.name = name))
  | .change made, reported => inferInstanceAs (Decidable (reported = made.object))

/-- The callback that the event leads to settles what is owed. -/
def Owed.SettledByEvent (owed : Owed) (event : Event) : Prop :=
  ∃ notification ∈ event.notification.toList, owed.SettledBy notification.object

theorem Owed.settledByEvent_added {owed : Owed} {reported : Object} :
    owed.SettledByEvent (.added reported) ↔ owed.SettledBy reported := by
  simp [SettledByEvent, Event.notification, Notification.object]

theorem Change.settledByEvent (change : Change) (owed : Owed) :
    owed.SettledByEvent change.event ↔ owed.SettledBy change.object := by
  obtain ⟨notification, hnotification, hobject⟩ := change.exists_notification
  simp [Owed.SettledByEvent, hnotification, hobject]

namespace Loop

/-- The event in the loop's hand, if it has one. -/
def inHand (loop : Loop) : List Event :=
  match loop.point with
  | .received event => [event]
  | _ => []

/-- The events that the open watch has yet to bring to a callback. -/
def awaited (loop : Loop) : List Event := loop.inHand ++ loop.channel.inFlight

def Delivered (loop : Loop) (owed : Owed) : Prop :=
  ∃ notification ∈ loop.notified, owed.SettledBy notification.object

def Awaits (loop : Loop) (owed : Owed) : Prop :=
  ∃ event ∈ loop.awaited, owed.SettledByEvent event

instance (loop : Loop) (owed : Owed) : Decidable (loop.Delivered owed) :=
  inferInstanceAs (Decidable (∃ notification ∈ loop.notified, _))

instance (loop : Loop) (owed : Owed) : Decidable (loop.Awaits owed) :=
  inferInstanceAs (Decidable (∃ event ∈ loop.awaited, ∃ notification ∈ _, _))

/-- The next step of the loop opens a watch again. -/
def Reopens (loop : Loop) : Prop :=
  ∃ attempt < 5, loop.point = .retrying attempt

instance (loop : Loop) : Decidable loop.Reopens :=
  inferInstanceAs (Decidable (∃ attempt < 5, loop.point = .retrying attempt))

end Loop

/-! ## What every run keeps -/

/-- A version that the server can have handed out, or none. -/
def FromServer (resourceVersion : String) : Prop :=
  resourceVersion = "" ∨ ∃ version : Version, version.text = resourceVersion

theorem exists_answer {changes order : List Change} {resourceVersion : String}
    (hversion : FromServer resourceVersion) :
    ∃ sent, answer changes order resourceVersion = some sent := by
  rcases hversion with rfl | ⟨version, rfl⟩
  · exact ⟨_, if_pos rfl⟩
  · exact ⟨_, by rw [answer, if_neg version.text_ne_empty, version.parses, Option.map_some]⟩

theorem Watcher.fromServer_observe {w : Watcher} {event : Event}
    (hw : FromServer w.lastResourceVersion) (hevent : FromServer event.getResourceVersion) :
    FromServer (w.observe event).lastResourceVersion := by
  rcases w.observe_lastResourceVersion event with hold | hnew | hreset
  · exact hold ▸ hw
  · exact hnew ▸ hevent
  · exact .inl hreset

theorem fromServer_of_mem_eventsOf {listed live : List Change} :
    ∀ event ∈ eventsOf listed live, FromServer event.getResourceVersion := by
  intro event hevent
  rcases List.mem_append.mp hevent with hlisted | hlive
  · obtain ⟨change, _, rfl⟩ := List.mem_map.mp hlisted
    exact .inr ⟨change.version, rfl⟩
  · obtain ⟨change, _, rfl⟩ := List.mem_map.mp hlive
    exact .inr ⟨change.version, change.event_getResourceVersion.symm⟩

namespace Loop

/-- The loop has found its channel closed and has not opened another watch. -/
def BetweenWatches (loop : Loop) : Prop :=
  match loop.point with
  | .closed | .restarting | .retrying _ | .returned => True
  | _ => False

/-- What the loop keeps true of itself as long as nobody calls `Stop`. -/
structure Sound (loop : Loop) : Prop where
  watcher : loop.w.watcher = true ∨ loop.BetweenWatches
  closed : loop.BetweenWatches → loop.channel.closed = true
  stopped : loop.channel.stopped = true → loop.channel.closed = true
  lastVersion : FromServer loop.w.lastResourceVersion
  version : FromServer loop.resourceVersion
  awaited : ∀ event ∈ loop.awaited, FromServer event.getResourceVersion

/-- A step that only moves the loop from point to point, or an event into its hand. -/
theorem Sound.move {loop next : Loop} (hsound : loop.Sound) (hw : next.w = loop.w)
    (hversion : next.resourceVersion = loop.resourceVersion)
    (hclosed : next.channel.closed = loop.channel.closed)
    (hstopped : next.channel.stopped = loop.channel.stopped)
    (hbetween : next.BetweenWatches ↔ loop.BetweenWatches)
    (hawaited : next.awaited = loop.awaited) : next.Sound := by
  constructor
  · rw [hw, hbetween]
    exact hsound.watcher
  · rw [hbetween, hclosed]
    exact hsound.closed
  · rw [hstopped, hclosed]
    exact hsound.stopped
  · rw [hw]
    exact hsound.lastVersion
  · rw [hversion]
    exact hsound.version
  · rw [hawaited]
    exact hsound.awaited

/-- An event that was looked at is no longer awaited, and its version was the server's. -/
theorem Sound.observed {loop next : Loop} {event : Event} (hsound : loop.Sound)
    (hpoint : loop.point = .received event) (hw : next.w = loop.w.observe event)
    (hversion : next.resourceVersion = loop.resourceVersion)
    (hbetween : ¬ next.BetweenWatches) (hinHand : next.inHand = [])
    (hchannel : next.channel = loop.channel) : next.Sound := by
  have hawaited : loop.awaited = event :: loop.channel.inFlight := by
    simp [Loop.awaited, inHand, hpoint]
  have hset : loop.w.watcher = true := by simpa [BetweenWatches, hpoint] using hsound.watcher
  constructor
  · left
    rw [hw, Watcher.observe_watcher, hset]
  · intro hnext
    exact absurd hnext hbetween
  · rw [hchannel]
    exact hsound.stopped
  · rw [hw]
    exact Watcher.fromServer_observe hsound.lastVersion
      (hsound.awaited event (hawaited ▸ List.mem_cons_self))
  · rw [hversion]
    exact hsound.version
  · intro other hother
    rw [Loop.awaited, hinHand, hchannel, List.nil_append] at hother
    exact hsound.awaited other (hawaited ▸ List.mem_cons_of_mem _ hother)

/-- The server may close the channel and have other events to send. -/
theorem Sound.withChannel {loop : Loop} {channel : Channel} (hsound : loop.Sound)
    (hclosed : loop.channel.closed = true → channel.closed = true)
    (hstopped : channel.stopped = loop.channel.stopped)
    (hinFlight : ∀ event ∈ channel.inFlight,
      event ∈ loop.channel.inFlight ∨ FromServer event.getResourceVersion) :
    Sound { loop with channel := channel } := by
  refine ⟨hsound.watcher, fun hbetween => hclosed (hsound.closed hbetween),
    fun hnow => hclosed (hsound.stopped (hstopped ▸ hnow)), hsound.lastVersion, hsound.version, ?_⟩
  intro event hevent
  rcases List.mem_append.mp hevent with hhand | hsent
  · exact hsound.awaited event (List.mem_append_left _ hhand)
  · rcases hinFlight event hsent with hold | hnew
    · exact hsound.awaited event (List.mem_append_right _ hold)
    · exact hnew

theorem Sound.step {loop next : Loop} {answer : Option (List Event)} (hsound : loop.Sound)
    (hanswer : ∀ events, answer = some events →
      ∀ event ∈ events, FromServer event.getResourceVersion)
    (hstepped : Stepped loop answer next) : next.Sound := by
  cases hstepped with
  | checked hpoint | blocked hpoint | callbackReturned hpoint | restart hpoint | stopped hpoint
  | retried _ hpoint | gaveUp _ hpoint =>
      apply hsound.move <;> simp [BetweenWatches, Loop.awaited, inHand, hpoint]
  | received event rest hpoint hinFlight =>
      apply hsound.move <;> simp [BetweenWatches, Loop.awaited, inHand, hpoint, hinFlight]
  | opened events hpoint hunset | openFailed hpoint hunset =>
      have hset := hsound.watcher
      simp [BetweenWatches, hpoint, hunset] at hset
  | foundClosed hpoint hinFlight hclosed =>
      refine ⟨.inr trivial, fun _ => hclosed, hsound.stopped, hsound.lastVersion,
        hsound.version, ?_⟩
      simpa [Loop.awaited, inHand, hpoint] using hsound.awaited
  | notified event notification hpoint | skipped event hpoint =>
      apply hsound.observed hpoint <;> simp [BetweenWatches, inHand]
  | oldStopped hpoint =>
      have hclosed : loop.channel.closed = true :=
        hsound.closed (by simp [BetweenWatches, hpoint])
      refine ⟨.inr trivial, fun _ => hclosed, fun _ => hclosed, hsound.lastVersion,
        hsound.lastVersion, ?_⟩
      simpa [Loop.awaited, inHand, hpoint] using hsound.awaited
  | reopened attempt events hpoint hattempt hevents =>
      refine ⟨.inl rfl, fun hbetween => hbetween.elim, ?_, hsound.lastVersion, hsound.version, ?_⟩
      · intro hstopped
        cases hstopped
      · exact hanswer events hevents

/-- At the restart the loop has nothing in its hand, and the server answers. -/
theorem eq_watch_of_reopens {loop next : Loop} {answer : Option (List Event)}
    (hanswer : answer ≠ none) (hstepped : Stepped loop answer next) (hreopens : loop.Reopens) :
    ∃ events, answer = some events ∧ next = loop.watch events .checkWatcher := by
  cases hstepped with
  | reopened attempt events hpoint hattempt hevents => exact ⟨events, hevents, rfl⟩
  | retried attempt hpoint hattempt hfailed => exact absurd hfailed hanswer
  | gaveUp attempt hpoint hattempt =>
      have hfew : attempt < 5 := by simpa [Reopens, hpoint] using hreopens
      omega
  | _ => simp_all [Reopens]

end Loop

end Kapprofiler.Watch
