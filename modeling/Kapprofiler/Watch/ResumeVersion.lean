import Kapprofiler.Watch.Resume
import Kapprofiler.Watch.Stop

/-! # The resume version over a run

The loop takes an event's resource version when it has none, whatever it is, and compares
numbers only from then on. So a version that is no number is skipped everywhere but at one
place: as the first one after a reset it stays until the next reset, and nothing is recorded
in between.
-/

namespace Kapprofiler.Watch

/-- The error that the version is too old, at which the loop forgets what it has seen. -/
def Event.tooOld : Event → Bool
  | .error watchError => watchError.code == 410
  | _ => false

/-- The versions seen since the last reset, after one more event. -/
def see (seen : List String) (event : Event) : List String :=
  if event.tooOld then [] else seen ++ [event.getResourceVersion]

/-- No version that can be read is a greater number. -/
def Bounds (seen : List String) (greatest : Int) : Prop :=
  ∀ version ∈ seen, ∀ value ∈ parseInt version, value ≤ greatest

/-- The recorded version is the greatest of those that can be read, or empty if there is
none. -/
def RecordsGreatest (seen : List String) (lastResourceVersion : String) : Prop :=
  lastResourceVersion = "" ∧ (∀ version ∈ seen, parseInt version = none) ∨
    lastResourceVersion ∈ seen ∧
      ∃ greatest, parseInt lastResourceVersion = some greatest ∧ Bounds seen greatest

/-- The first version that is not empty. -/
def firstVersion (seen : List String) : Option String :=
  seen.find? fun version => version ≠ ""

/-- If there is a version at all, the first one can be read. -/
def FirstParses (seen : List String) : Prop :=
  ∀ version ∈ firstVersion seen, (parseInt version).isSome

instance (seen : List String) : Decidable (FirstParses seen) :=
  inferInstanceAs (Decidable (∀ version ∈ firstVersion seen, _))

/-! ## What one event does -/

theorem Watcher.observe_lastResourceVersion_eq (w : Watcher) (event : Event) :
    (w.observe event).lastResourceVersion =
      if event.tooOld then ""
      else if event.getResourceVersion ≠ "" ∧
          isResourceVersionHigher event.getResourceVersion w.lastResourceVersion then
        event.getResourceVersion
      else w.lastResourceVersion := by
  cases event with
  | error watchError =>
      simp only [observe, Event.tooOld, beq_iff_eq]
      split_ifs <;> rfl
  | added object | modified object | deleted object | bookmark object =>
      simp only [observe, Event.tooOld, Bool.false_eq_true, if_false]
      split_ifs <;> rfl

theorem isResourceVersionHigher_of_none {version current : String} (hcurrent : current ≠ "")
    (hversion : parseInt version = none) : isResourceVersionHigher version current = false := by
  simp [isResourceVersionHigher, hcurrent, hversion]

/-- Nothing is higher than a version that is no number. -/
theorem isResourceVersionHigher_of_stuck {version current : String} (hcurrent : current ≠ "")
    (hstuck : parseInt current = none) : isResourceVersionHigher version current = false := by
  rw [isResourceVersionHigher, if_neg hcurrent, hstuck]
  split <;> rfl

theorem bounds_append {seen : List String} {version : String} {greatest : Int} :
    Bounds (seen ++ [version]) greatest ↔
      Bounds seen greatest ∧ ∀ value ∈ parseInt version, value ≤ greatest := by
  simp only [Bounds, List.mem_append, List.mem_singleton, or_imp, forall_and, forall_eq]

theorem Bounds.mono {seen : List String} {greatest value : Int} (hbounds : Bounds seen greatest)
    (hle : greatest ≤ value) : Bounds seen value :=
  fun version hversion other hother => Int.le_trans (hbounds version hversion other hother) hle

/-- What the loop keeps true of the recorded version, relative to what it has seen. -/
inductive Tracks : List String → String → Prop
  | nothing {seen : List String} (hseen : ∀ version ∈ seen, version = "") : Tracks seen ""
  | reading {seen : List String} {first current : String} {greatest : Int}
      (hfirst : firstVersion seen = some first) (hparses : (parseInt first).isSome)
      (hmem : current ∈ seen) (hcurrent : parseInt current = some greatest)
      (hgreatest : Bounds seen greatest) : Tracks seen current
  | stuck {seen : List String} {first : String} (hfirst : firstVersion seen = some first)
      (hstuck : parseInt first = none) : Tracks seen first

theorem firstVersion_append {seen : List String} {first : String} (version : String)
    (hfirst : firstVersion seen = some first) :
    firstVersion (seen ++ [version]) = some first := by
  rw [firstVersion, List.find?_append, ← firstVersion, hfirst, Option.some_or]

theorem firstVersion_of_nothing {seen : List String} {version : String}
    (hseen : ∀ earlier ∈ seen, earlier = "") (hversion : version ≠ "") :
    firstVersion (seen ++ [version]) = some version := by
  have hnone : firstVersion seen = none := by
    apply List.find?_eq_none.mpr
    intro earlier hearlier
    simpa using hseen earlier hearlier
  rw [firstVersion, List.find?_append, ← firstVersion, hnone, Option.none_or]
  simp [hversion]

theorem ne_empty_of_firstVersion {seen : List String} {first : String}
    (hfirst : firstVersion seen = some first) : first ≠ "" := by
  simpa using List.find?_some hfirst

/-- The first version that is not empty is taken as it is. -/
theorem tracks_first {seen : List String} {version : String}
    (hseen : ∀ earlier ∈ seen, earlier = "") (hversion : version ≠ "") :
    Tracks (seen ++ [version]) version := by
  have hfirst := firstVersion_of_nothing hseen hversion
  cases hparse : parseInt version with
  | none => exact .stuck hfirst hparse
  | some value =>
      refine .reading hfirst (by rw [hparse]; rfl) (by simp) hparse (bounds_append.mpr ⟨?_, ?_⟩)
      · intro earlier hearlier other hother
        rw [hseen earlier hearlier, parseInt_empty] at hother
        cases hother
      · intro other hother
        obtain rfl := Option.some.inj (hparse.symm.trans hother)
        exact Int.le_refl value

/-- The test of the loop over the events, on the two texts alone. -/
theorem Tracks.append {seen : List String} {current : String} (version : String)
    (htracks : Tracks seen current) :
    Tracks (seen ++ [version])
      (if version ≠ "" ∧ isResourceVersionHigher version current then version else current) := by
  cases htracks with
  | nothing hseen =>
      by_cases hversion : version = ""
      · rw [if_neg fun h => h.1 hversion]
        refine .nothing ?_
        intro earlier hearlier
        rcases List.mem_append.mp hearlier with hold | hnew
        · exact hseen earlier hold
        · rw [List.mem_singleton.mp hnew, hversion]
      · -- The comparison with an empty version succeeds before anything is parsed.
        rw [if_pos ⟨hversion, rfl⟩]
        exact tracks_first hseen hversion
  | @reading _ _ greatest hfirst hparses hmem hcurrent hgreatest =>
      have hfirst' := firstVersion_append version hfirst
      cases hparse : parseInt version with
      | none =>
          have hne := Version.text_ne_empty ⟨current, greatest, hcurrent⟩
          rw [isResourceVersionHigher_of_none hne hparse, if_neg fun h => absurd h.2 (by simp)]
          refine .reading hfirst' hparses (List.mem_append_left _ hmem) hcurrent ?_
          exact bounds_append.mpr ⟨hgreatest, by simp [hparse]⟩
      | some value =>
          let read : Version := ⟨version, value, hparse⟩
          have hhigher : isResourceVersionHigher version current = decide (greatest < value) :=
            @isResourceVersionHigher_of_parses read current greatest hcurrent
          rw [hhigher]
          by_cases habove : greatest < value
          · rw [if_pos ⟨read.text_ne_empty, by simpa using habove⟩]
            refine .reading hfirst' hparses (by simp) hparse ?_
            exact bounds_append.mpr ⟨hgreatest.mono (Int.le_of_lt habove), by simp [hparse]⟩
          · rw [if_neg fun h => habove (by simpa using h.2)]
            refine .reading hfirst' hparses (List.mem_append_left _ hmem) hcurrent ?_
            exact bounds_append.mpr ⟨hgreatest, by simpa [hparse] using habove⟩
  | stuck hfirst hstuck =>
      -- The recorded version cannot be read, so that nothing is higher.
      have hne := ne_empty_of_firstVersion hfirst
      rw [isResourceVersionHigher_of_stuck hne hstuck, if_neg fun h => absurd h.2 (by simp)]
      exact .stuck (firstVersion_append version hfirst) hstuck

theorem Tracks.see {seen : List String} {w : Watcher} (event : Event)
    (htracks : Tracks seen w.lastResourceVersion) :
    Tracks (see seen event) (w.observe event).lastResourceVersion := by
  rw [w.observe_lastResourceVersion_eq, Watch.see]
  by_cases htooOld : event.tooOld
  · rw [if_pos htooOld, if_pos htooOld]
    exact .nothing (by simp)
  · rw [if_neg htooOld, if_neg htooOld]
    exact htracks.append event.getResourceVersion

theorem Tracks.recordsGreatest_iff {seen : List String} {current : String}
    (htracks : Tracks seen current) : RecordsGreatest seen current ↔ FirstParses seen := by
  cases htracks with
  | nothing hseen =>
      refine iff_of_true (.inl ⟨rfl, ?_⟩) ?_
      · intro version hversion
        rw [hseen version hversion, parseInt_empty]
      · intro first hfirst
        exact absurd (hseen first (List.mem_of_find?_eq_some hfirst))
          (ne_empty_of_firstVersion hfirst)
  | reading hfirst hparses hmem hcurrent hgreatest =>
      refine iff_of_true (.inr ⟨hmem, _, hcurrent, hgreatest⟩) ?_
      intro version hversion
      obtain rfl := Option.some.inj (hfirst.symm.trans hversion)
      exact hparses
  | stuck hfirst hstuck =>
      apply iff_of_false
      · rintro (⟨hempty, _⟩ | ⟨_, greatest, hgreatest, _⟩)
        · exact ne_empty_of_firstVersion hfirst hempty
        · rw [hstuck] at hgreatest
          cases hgreatest
      · intro hparses
        have hsome := hparses current hfirst
        rw [hstuck] at hsome
        cases hsome

/-! ## Along the runs of the loop -/

/-- The event that the loop handles in the step. -/
def Loop.handles (loop : Loop) : Action → List Event
  | .loop _ => loop.inHand
  | .send _ | .close | .stop => []

def handled (start : Loop) (labels : List Action) : List Event :=
  loopMachine.trace Loop.handles start labels

/-- What has been seen since the last reset, in a watch from a version. -/
def seenSinceReset (resourceVersion : String) (events : List Event) : List String :=
  events.foldl see [resourceVersion]

theorem tracks_start (resourceVersion : String) : Tracks [resourceVersion] resourceVersion := by
  by_cases hempty : resourceVersion = ""
  · rw [hempty]
    exact .nothing (by simp)
  · exact @tracks_first [] resourceVersion (by simp) hempty

/-- Only the events that the loop handles bear on the version: neither a restart nor `Stop`
does. -/
theorem Tracks.step {seen : List String} {loop next : Loop} {label : Action}
    (htracks : Tracks seen loop.w.lastResourceVersion)
    (hstep : loopMachine.step loop label = some next) :
    Tracks ((loop.handles label).foldl Watch.see seen) next.w.lastResourceVersion := by
  cases label with
  | loop answer =>
      cases Loop.step_cases hstep with
      | notified event _ hpoint | skipped event hpoint =>
          simpa [Loop.handles, Loop.inHand, hpoint] using htracks.see event
      | checked hpoint | opened _ hpoint | openFailed hpoint | blocked hpoint
      | received _ _ hpoint | foundClosed hpoint | callbackReturned hpoint | restart hpoint
      | stopped hpoint | oldStopped hpoint | reopened _ _ hpoint | retried _ hpoint
      | gaveUp _ hpoint => simpa [Loop.handles, Loop.inHand, Loop.watch, hpoint] using htracks
  | send event =>
      rcases loop.send_cases event with ⟨hsend, _⟩ | ⟨_, _, hsend⟩
      · simp [loopMachine, hsend] at hstep
      · obtain rfl := Option.some.inj (hsend.symm.trans hstep)
        exact htracks
  | close =>
      obtain rfl := Option.some.inj hstep
      exact htracks
  | stop =>
      obtain rfl := Option.some.inj hstep
      cases hwatcher : loop.w.watcher <;> simpa [Loop.handles, Loop.stop, hwatcher] using htracks

theorem tracks_of_run {resourceVersion : String} {events : List Event} {labels : List Action}
    {last : Loop} (hrun : loopMachine.run (.started resourceVersion events) labels = some last) :
    Tracks (seenSinceReset resourceVersion (handled (.started resourceVersion events) labels))
      last.w.lastResourceVersion := by
  apply loopMachine.run_history_invariant (fun labels loop =>
    Tracks (seenSinceReset resourceVersion (handled (.started resourceVersion events) labels))
      loop.w.lastResourceVersion) _ _ hrun
  · exact tracks_start resourceVersion
  · intro labels loop label next hbefore htracks hstep
    have hstepped := htracks.step hstep
    rwa [seenSinceReset, handled, loopMachine.trace_concat hbefore, List.foldl_append]

/-- Whatever events a watch sends and whenever it closes or is stopped, the recorded version
is the greatest seen since the last reset if and only if the first one seen since then can be
read. -/
theorem recordsGreatest_iff_firstParses (resourceVersion : String) (events : List Event)
    (labels : List Action) (last : Loop)
    (hrun : loopMachine.run (.started resourceVersion events) labels = some last) :
    let seen := seenSinceReset resourceVersion (handled (.started resourceVersion events) labels)
    RecordsGreatest seen last.w.lastResourceVersion ↔ FirstParses seen :=
  (tracks_of_run hrun).recordsGreatest_iff

/-- A malformed version after a valid one is skipped: the valid one after it is recorded. -/
theorem recordsGreatest_after_valid :
    RecordsGreatest ["", "7", "abc", "9"] "9" :=
  (recordsGreatest_iff_firstParses ""
    [.added ⟨"nginx", "7"⟩, .modified ⟨"nginx", "abc"⟩, .deleted ⟨"nginx", "9"⟩]
    (List.replicate 15 (.loop none)) _ rfl).mpr (by decide)

/-- A malformed version at the beginning keeps the valid one after it out. -/
theorem malformed_version_stays :
    ∃ last, loopMachine.run (.started "" [.added ⟨"nginx", "abc"⟩, .modified ⟨"nginx", "5"⟩])
        (List.replicate 10 (.loop none)) = some last ∧
      handled (.started "" [.added ⟨"nginx", "abc"⟩, .modified ⟨"nginx", "5"⟩])
        (List.replicate 10 (.loop none)) =
          [.added ⟨"nginx", "abc"⟩, .modified ⟨"nginx", "5"⟩] ∧
      last.w.lastResourceVersion = "abc" ∧
        ¬ RecordsGreatest
          (seenSinceReset "" [.added ⟨"nginx", "abc"⟩, .modified ⟨"nginx", "5"⟩])
          last.w.lastResourceVersion := by
  refine ⟨_, rfl, rfl, rfl, ?_⟩
  have htracks := @tracks_of_run "" [.added ⟨"nginx", "abc"⟩, .modified ⟨"nginx", "5"⟩]
    (List.replicate 10 (.loop none)) _ rfl
  exact fun hrecords => absurd (htracks.recordsGreatest_iff.mp hrecords) (by decide)

/-! ## Every sequence of events is handled by some run -/

/-- From the head of the loop, the next event in the channel is handled and the head reached
again. -/
theorem exists_run_event {loop : Loop} {event : Event} {rest : List Event}
    (hpoint : loop.point = .checkWatcher) (hwatcher : loop.w.watcher = true)
    (hinFlight : loop.channel.inFlight = event :: rest) :
    ∃ labels next, loopMachine.run loop labels = some next ∧ handled loop labels = [event] ∧
      next.point = .checkWatcher ∧ next.w.watcher = true ∧ next.channel.inFlight = rest := by
  let taken : Loop := { loop with channel := { loop.channel with inFlight := rest } }
  -- An event that no callback is called for takes one step less.
  cases hnotification : event.notification with
  | none =>
      refine ⟨List.replicate 4 (.loop none), { taken with w := loop.w.observe event }, ?_⟩
      simp [Foundation.Machine.run, handled, Foundation.Machine.trace, loopMachine, Loop.step,
        Loop.handles, Loop.inHand, List.replicate, hpoint, hwatcher, hinFlight, hnotification,
        taken]
  | some notification =>
      refine ⟨List.replicate 5 (.loop none),
        { taken with
          w := loop.w.observe event, notified := loop.notified ++ [notification] }, ?_⟩
      simp [Foundation.Machine.run, handled, Foundation.Machine.trace, loopMachine, Loop.step,
        Loop.handles, Loop.inHand, List.replicate, hpoint, hwatcher, hinFlight, hnotification,
        taken]

theorem exists_run_handled (resourceVersion : String) (events : List Event) :
    ∃ labels last, loopMachine.run (.started resourceVersion events) labels = some last ∧
      handled (.started resourceVersion events) labels = events := by
  suffices hany : ∀ loop : Loop, loop.point = .checkWatcher → loop.w.watcher = true →
      loop.channel.inFlight = events →
      ∃ labels last, loopMachine.run loop labels = some last ∧ handled loop labels = events from
    hany _ rfl rfl rfl
  induction events with
  | nil => exact fun loop _ _ _ => ⟨[], loop, rfl, rfl⟩
  | cons event rest ih =>
      intro loop hpoint hwatcher hinFlight
      obtain ⟨first, next, hfirst, hevent, hnext⟩ := exists_run_event hpoint hwatcher hinFlight
      obtain ⟨labels, last, hrest, hhandled⟩ := ih next hnext.1 hnext.2.1 hnext.2.2
      refine ⟨first ++ labels, last, loopMachine.run_append.mpr ⟨next, hfirst, hrest⟩, ?_⟩
      rw [handled, loopMachine.trace_append hfirst, ← handled, ← handled, hevent, hhandled]
      rfl

end Kapprofiler.Watch
