import Kapprofiler.Watch.Feed

/-! # What goes over the watches

A record of the server's changes that the watches were to bring: which of them
the loop has looked at, and what the watch that was opened last has still to
bring. The version that the loop resumes from is that of the newest change it
has looked at since the last 410.
-/

namespace Kapprofiler.Watch

/-- The changes of the server that went over its watches: those whose events the loop has looked
at, on all watches and since the last error that the version is too old, and those that the watch
opened last has not brought, the objects it lists first and what came after them. -/
structure Wire where
  looked : List Change
  sinceReset : List Change
  listed : List Change
  live : List Change
deriving DecidableEq

namespace Wire

/-- The loop looks at the event of the change. -/
def bring (wire : Wire) (change : Change) : Wire :=
  { wire with
    looked := wire.looked ++ [change], sinceReset := wire.sinceReset ++ [change] }

/-- The loop looks at an event: at the error, or at the next one on the watch. -/
def look (wire : Wire) : Event → Wire
  | .error _ => { wire with sinceReset := [] }
  | .bookmark _ => wire
  | .added _ | .modified _ | .deleted _ =>
      match wire.listed, wire.live with
      | change :: rest, _ => { wire.bring change with listed := rest }
      | [], change :: rest => { wire.bring change with live := rest }
      | [], [] => wire

/-- A step of the loop, which opens a watch with `sent` if it opens one. -/
def follow (wire : Wire) (loop : Loop) (sent : Option (List Change × List Change)) : Wire :=
  match loop.point, sent with
  | .received event, _ => wire.look event
  | .retrying attempt, some (listed, live) =>
      if attempt < 5 then { wire with listed := listed, live := live } else wire
  | _, _ => wire

/-- The changes that the watch has not brought. -/
def ahead (wire : Wire) : List Change := wire.listed ++ wire.live

end Wire

/-! ## One step of the loop -/

namespace Wire

/-- What looking at an event can leave the wire as. -/
inductive Looked (wire : Wire) (event : Event) : Wire → Prop
  | reset (hevent : event.notification = none) : Looked wire event { wire with sinceReset := [] }
  | nothing (hnone : event.notification = none ∨ eventsOf wire.listed wire.live = []) :
      Looked wire event wire
  | listed {change : Change} {rest : List Change} (hlisted : wire.listed = change :: rest) :
      Looked wire event { wire.bring change with listed := rest }
  | live {change : Change} {rest : List Change} (hlisted : wire.listed = [])
      (hlive : wire.live = change :: rest) :
      Looked wire event { wire.bring change with live := rest }

theorem look_cases (wire : Wire) (event : Event) : wire.Looked event (wire.look event) := by
  cases event with
  | error => exact .reset rfl
  | bookmark => exact .nothing (.inl rfl)
  | added | modified | deleted =>
      cases hlisted : wire.listed with
      | cons change rest =>
          simp only [look, hlisted]
          exact .listed hlisted
      | nil =>
          cases hlive : wire.live with
          | cons change rest =>
              simp only [look, hlisted, hlive]
              exact .live hlisted hlive
          | nil =>
              simp only [look, hlisted, hlive]
              exact .nothing (.inr (by rw [hlisted, hlive]; rfl))

/-- A step of the loop leaves the wire as it is, looks at an event, or opens a watch. -/
theorem follow_cases (wire : Wire) (loop : Loop) (sent : List Change × List Change) :
    wire.follow loop (some sent) = wire ∨
      (∃ event, wire.Looked event (wire.follow loop (some sent))) ∨
      loop.Reopens ∧
        wire.follow loop (some sent) = { wire with listed := sent.1, live := sent.2 } := by
  cases hpoint : loop.point with
  | received event =>
      refine .inr (.inl ⟨event, ?_⟩)
      simp only [follow, hpoint]
      exact wire.look_cases event
  | retrying attempt =>
      by_cases hattempt : attempt < 5
      · exact .inr (.inr ⟨⟨attempt, hattempt, hpoint⟩, by simp [follow, hpoint, hattempt]⟩)
      · exact .inl (by simp [follow, hpoint, hattempt])
  | _ => exact .inl (by simp [follow, hpoint])

/-- What is on the wire is in the server's history and in its order, apart from the list. -/
structure Ordered (wire : Wire) (changes : List Change) : Prop where
  known : ∀ change ∈ wire.sinceReset ++ wire.ahead, change ∈ changes
  ascending : wire.live.Pairwise Change.Older
  below : ∀ older ∈ wire.sinceReset ++ wire.listed, ∀ newer ∈ wire.live, older.Older newer
  /-- What changed a listed object since is still to come. -/
  changed : ∀ change ∈ wire.listed, ∀ newer ∈ changes, newer.name = change.name →
    change.Older newer → newer ∈ wire.live

variable {wire next : Wire} {changes : List Change}

theorem Ordered.look {event : Event} (hordered : wire.Ordered changes)
    (hlooked : wire.Looked event next) : next.Ordered changes := by
  cases hlooked with
  | nothing => exact hordered
  | reset =>
      refine ⟨?_, hordered.ascending, ?_, hordered.changed⟩
      · exact fun change hchange => hordered.known change (List.mem_append_right _ hchange)
      · exact fun older holder => hordered.below older (List.mem_append_right _ holder)
  | @listed change rest hlisted =>
      have hmoved : ∀ other ∈ (wire.sinceReset ++ [change]) ++ rest,
          other ∈ wire.sinceReset ++ wire.listed := by
        intro other hother
        simpa [hlisted] using hother
      refine ⟨?_, hordered.ascending,
        fun older holder => hordered.below older (hmoved older holder),
        fun other hother => hordered.changed other (hlisted ▸ List.mem_cons_of_mem _ hother)⟩
      intro other hother
      apply hordered.known
      simpa [Wire.ahead, bring, hlisted] using hother
  | @live change rest hlisted hlive =>
      have hascending := hordered.ascending
      rw [hlive, List.pairwise_cons] at hascending
      refine ⟨?_, hascending.2, ?_, ?_⟩
      · intro other hother
        apply hordered.known
        simpa [Wire.ahead, bring, hlisted, hlive] using hother
      · intro older holder newer hnewer
        simp only [bring, hlisted, List.append_nil, List.mem_append, List.mem_singleton] at holder
        rcases holder with hold | rfl
        · exact hordered.below older (List.mem_append_left _ hold) newer
            (hlive ▸ List.mem_cons_of_mem _ hnewer)
        · exact hascending.1 newer hnewer
      · intro other hother
        simp [bring, hlisted] at hother

/-- The server makes a change. -/
theorem Ordered.change {change : Change} (hordered : wire.Ordered changes)
    (habove : ∀ earlier ∈ changes, earlier.Older change) :
    Ordered { wire with live := wire.live ++ [change] } (changes ++ [change]) := by
  have hnew : ∀ older ∈ wire.sinceReset ++ wire.ahead, older.Older change :=
    fun older holder => habove older (hordered.known older holder)
  refine ⟨?_, ?_, ?_, ?_⟩
  · intro other hother
    have hcases : other ∈ wire.sinceReset ++ wire.ahead ∨ other = change := by
      simpa [Wire.ahead, or_assoc] using hother
    rcases hcases with hold | rfl
    · exact List.mem_append_left _ (hordered.known other hold)
    · exact List.mem_append_right _ List.mem_cons_self
  · refine List.pairwise_append.mpr ⟨hordered.ascending, List.pairwise_singleton _ _, ?_⟩
    intro older holder newer hnewer
    rw [List.mem_singleton.mp hnewer]
    exact hnew older (by simp [Wire.ahead, holder])
  · intro older holder newer hnewer
    rcases List.mem_append.mp hnewer with hold | hlast
    · exact hordered.below older holder newer hold
    · rw [List.mem_singleton.mp hlast]
      have hcases : older ∈ wire.sinceReset ∨ older ∈ wire.listed := by simpa using holder
      exact hnew older (by simp only [Wire.ahead, List.mem_append]; tauto)
  · intro listed hlisted newer hnewer hname holder
    rcases List.mem_append.mp hnewer with hold | hlast
    · exact List.mem_append_left _ (hordered.changed listed hlisted newer hold hname holder)
    · exact List.mem_append_right _ hlast

/-- The version to resume from is that of the newest change since the last 410. -/
def Resumes (wire : Wire) (resourceVersion : String) : Prop :=
  wire.sinceReset = [] ∧ resourceVersion = "" ∨
    ∃ newest ∈ wire.sinceReset, resourceVersion = newest.version.text ∧
      ∀ looked ∈ wire.sinceReset, ¬ newest.Older looked

/-- The two ways to open a watch: with a list if nothing was seen since the last 410, else with
what is above all that was seen. -/
theorem Resumes.answer_cases {order listed live : List Change} {resourceVersion : String}
    (hresumes : wire.Resumes resourceVersion)
    (hanswer : answer changes order resourceVersion = some (listed, live)) :
    wire.sinceReset = [] ∧ listed = order ∧ live = [] ∨
      wire.sinceReset ≠ [] ∧ listed = [] ∧ live.Sublist changes ∧
        ∀ change, change ∈ live ↔ change ∈ changes ∧ ∀ looked ∈ wire.sinceReset,
          looked.Older change := by
  rcases hresumes with ⟨hnone, rfl⟩ | ⟨newest, hnewest, rfl, hall⟩
  · obtain ⟨rfl, rfl⟩ : order = listed ∧ [] = live := by simpa [answer] using hanswer
    exact .inl ⟨hnone, rfl, rfl⟩
  · obtain ⟨rfl, rfl⟩ : [] = listed ∧ (changes.filter fun change =>
        decide (newest.version.value < change.version.value)) = live := by
      simpa [answer, newest.version.text_ne_empty, newest.version.parses] using hanswer
    refine .inr ⟨List.ne_nil_of_mem hnewest, rfl, List.filter_sublist, ?_⟩
    intro change
    rw [List.mem_filter, decide_eq_true_eq]
    refine and_congr_right fun _ => ?_
    constructor
    · intro habove looked hlooked
      have hnot := hall looked hlooked
      simp only [Change.Older] at hnot ⊢
      omega
    · exact fun habove => habove newest hnewest

/-- The last change of an object is its newest. -/
theorem not_older_of_existing (hgrows : changes.Pairwise Change.Older) {change newer : Change}
    (hchange : change ∈ existing changes) (hnewer : newer ∈ changes)
    (hname : newer.name = change.name) : ¬ change.Older newer := by
  induction changes with
  | nil => cases hnewer
  | cons first later ih =>
      obtain ⟨hfirst, hlater⟩ := List.pairwise_cons.mp hgrows
      rw [existing] at hchange
      split_ifs at hchange with hlast
      · rcases List.mem_cons.mp hchange with rfl | hrest
        · rcases List.mem_cons.mp hnewer with rfl | hother
          · exact Int.lt_irrefl _
          · exact absurd hname (hlast.2 newer hother)
        · rcases List.mem_cons.mp hnewer with rfl | hother
          · exact Int.lt_asymm (hfirst change (mem_of_mem_existing hrest))
          · exact ih hlater hrest hother
      · rcases List.mem_cons.mp hnewer with rfl | hother
        · exact Int.lt_asymm (hfirst change (mem_of_mem_existing hchange))
        · exact ih hlater hchange hother

theorem Ordered.reopen {order listed live : List Change} {resourceVersion : String}
    (hordered : wire.Ordered changes) (hgrows : changes.Pairwise Change.Older)
    (horder : order.Perm (existing changes)) (hresumes : wire.Resumes resourceVersion)
    (hanswer : answer changes order resourceVersion = some (listed, live)) :
    Ordered { wire with listed := listed, live := live } changes := by
  have hlooked : ∀ change ∈ wire.sinceReset, change ∈ changes :=
    fun change hchange => hordered.known change (List.mem_append_left _ hchange)
  rcases hresumes.answer_cases hanswer with ⟨_, rfl, rfl⟩ | ⟨_, rfl, hsublist, hlive⟩
  · have hlisted : ∀ change ∈ listed, change ∈ existing changes := fun _ => horder.mem_iff.mp
    refine ⟨?_, List.Pairwise.nil, fun _ _ _ hnewer => absurd hnewer List.not_mem_nil, ?_⟩
    · intro change hchange
      have hcases : change ∈ wire.sinceReset ∨ change ∈ listed := by
        simpa [Wire.ahead] using hchange
      exact hcases.elim (hlooked change) fun hmem => mem_of_mem_existing (hlisted change hmem)
    · intro change hchange newer hnewer hname holder
      exact absurd holder (not_older_of_existing hgrows (hlisted change hchange) hnewer hname)
  · refine ⟨?_, hgrows.sublist hsublist, ?_, fun _ hnone => absurd hnone List.not_mem_nil⟩
    · intro change hchange
      have hcases : change ∈ wire.sinceReset ∨ change ∈ live := by
        simpa [Wire.ahead] using hchange
      exact hcases.elim (hlooked change) fun hmem => hsublist.subset hmem
    · intro older holder newer hnewer
      rw [List.append_nil] at holder
      exact ((hlive newer).mp hnewer).2 older holder

/-- The loop and the wire agree: on what was reported, on the version to resume from, and on
what the open watch has yet to bring. -/
structure Carries (wire : Wire) (loop : Loop) : Prop where
  notified : loop.notified.map Notification.object = wire.looked.map Change.object
  resumes : wire.Resumes loop.w.lastResourceVersion
  request : ∀ attempt, loop.point = .retrying attempt →
    loop.resourceVersion = loop.w.lastResourceVersion
  drained : loop.channel.closed = true → loop.channel.inFlight = []
  sends : loop.channel.closed = false →
    loop.awaited.filter (fun event => event.notification.isSome) =
      eventsOf wire.listed wire.live
  hand : ∀ event, loop.point = .received event → event.notification ≠ none →
    ∃ rest, eventsOf wire.listed wire.live = event :: rest
  silent : ∀ event ∈ loop.awaited, event.notification = none → event = .error ⟨410, ""⟩

/-- The event is that of the change, or the one that lists it. -/
def Reports (event : Event) (change : Change) : Prop :=
  event = .added change.object ∨ event = change.event

theorem Reports.notification {event : Event} {change : Change} (hreports : Reports event change) :
    ∃ notification, event.notification = some notification ∧
      notification.object = change.object := by
  rcases hreports with rfl | rfl
  · exact ⟨.addFunc change.object, rfl, rfl⟩
  · exact change.exists_notification

theorem Reports.getResourceVersion {event : Event} {change : Change}
    (hreports : Reports event change) : event.getResourceVersion = change.version.text := by
  rcases hreports with rfl | rfl
  · rfl
  · exact change.event_getResourceVersion

/-- The resume version stays the one of the newest change. -/
theorem Resumes.bring {w : Watcher} {event : Event} {change : Change}
    (hresumes : wire.Resumes w.lastResourceVersion) (hreports : Reports event change) :
    (wire.bring change).Resumes (w.observe event).lastResourceVersion := by
  have hobserve : (w.observe event).lastResourceVersion =
      if isResourceVersionHigher change.version.text w.lastResourceVersion then
        change.version.text
      else w.lastResourceVersion := by
    obtain ⟨notification, hnotification, _⟩ := hreports.notification
    rw [← hreports.getResourceVersion]
    have hne : event.getResourceVersion ≠ "" :=
      hreports.getResourceVersion ▸ change.version.text_ne_empty
    cases event with
    | added | modified | deleted =>
        simp only [Watcher.observe, ne_eq, hne, not_false_eq_true, true_and]
        split_ifs <;> rfl
    | bookmark | error => cases hnotification
  right
  rw [hobserve]
  rcases hresumes with ⟨hnone, hempty⟩ | ⟨newest, hnewest, hlast, hall⟩
  · refine ⟨change, by simp [Wire.bring], ?_, ?_⟩
    · simp [hempty, isResourceVersionHigher]
    · simp [Wire.bring, hnone]
  · rw [hlast, isResourceVersionHigher_of_parses newest.version.parses]
    by_cases habove : newest.Older change
    · refine ⟨change, by simp [Wire.bring], if_pos (decide_eq_true habove), ?_⟩
      intro looked hlooked
      rcases List.mem_append.mp hlooked with hold | hlast
      · have hnot := hall looked hold
        simp only [Change.Older] at habove hnot ⊢
        omega
      · rw [List.mem_singleton.mp hlast]
        exact Int.lt_irrefl _
    · refine ⟨newest, List.mem_append_left _ hnewest, if_neg (by simpa using habove), ?_⟩
      intro looked hlooked
      rcases List.mem_append.mp hlooked with hold | hlast
      · exact hall looked hold
      · rw [List.mem_singleton.mp hlast]
        exact habove

/-- The next event on the watch is that of the next change on the wire. -/
theorem Looked.reports {event : Event} {rest : List Event} (hlooked : wire.Looked event next)
    (hnotification : event.notification ≠ none)
    (hnext : eventsOf wire.listed wire.live = event :: rest) : ∃ change,
      Reports event change ∧ next.looked = wire.looked ++ [change] ∧
        next.sinceReset = wire.sinceReset ++ [change] ∧ eventsOf next.listed next.live = rest := by
  cases hlooked with
  | reset hnone => exact absurd hnone hnotification
  | nothing hnone =>
      rcases hnone with hnone | hempty
      · exact absurd hnone hnotification
      · simp [hnext] at hempty
  | @listed change others hlisted =>
      obtain ⟨rfl, rfl⟩ : .added change.object = event ∧ _ = rest := by
        simpa [eventsOf, hlisted] using hnext
      exact ⟨change, .inl rfl, rfl, rfl, rfl⟩
  | @live change others hlisted hlive =>
      obtain ⟨rfl, rfl⟩ : change.event = event ∧ _ = rest := by
        simpa [eventsOf, hlisted, hlive] using hnext
      exact ⟨change, .inr rfl, rfl, rfl, by simp [eventsOf, Wire.bring, hlisted]⟩

variable {loop after : Loop}

/-- The loop goes from point to point, and nothing moves on the watch. -/
theorem Carries.move (hcarries : wire.Carries loop) (hnotified : after.notified = loop.notified)
    (hlast : after.w.lastResourceVersion = loop.w.lastResourceVersion)
    (hchannel : after.channel.closed = loop.channel.closed)
    (hinFlight : after.channel.closed = true → after.channel.inFlight = [])
    (hawaited : after.awaited = loop.awaited)
    (hrequest : ∀ attempt, after.point = .retrying attempt →
      after.resourceVersion = after.w.lastResourceVersion)
    (hhand : ∀ event, after.point = .received event → event.notification ≠ none →
      ∃ rest, eventsOf wire.listed wire.live = event :: rest) : wire.Carries after where
  notified := hnotified ▸ hcarries.notified
  resumes := hlast ▸ hcarries.resumes
  request := hrequest
  drained := hinFlight
  sends := by
    rw [hchannel, hawaited]
    exact hcarries.sends
  hand := hhand
  silent := by
    rw [hawaited]
    exact hcarries.silent

/-- The loop looks at the event in its hand. -/
theorem Carries.observed {event : Event} (hcarries : wire.Carries loop)
    (hpoint : loop.point = .received event) (hw : after.w = loop.w.observe event)
    (hnotified : after.notified = loop.notified ++ event.notification.toList)
    (hchannel : after.channel = loop.channel)
    (hrequest : ∀ attempt, after.point ≠ .retrying attempt)
    (hhand : ∀ event, after.point ≠ .received event) : (wire.look event).Carries after := by
  have hawaited : loop.awaited = event :: after.awaited := by
    simp [Loop.awaited, Loop.inHand, hpoint, hchannel]
  have hsilent : ∀ other ∈ after.awaited, other.notification = none →
      other = .error ⟨410, ""⟩ :=
    fun other hother => hcarries.silent other (hawaited ▸ List.mem_cons_of_mem _ hother)
  have hdrained : after.channel.closed = true → after.channel.inFlight = [] := by
    rw [hchannel]
    exact hcarries.drained
  cases hnotification : event.notification with
  | none =>
      obtain rfl := hcarries.silent event (hawaited ▸ List.mem_cons_self) hnotification
      refine ⟨?_, ?_, fun attempt hnow => absurd hnow (hrequest attempt), hdrained, ?_,
        fun other hnow => absurd hnow (hhand other), hsilent⟩
      · rw [hnotified, hnotification, Option.toList_none, List.append_nil]
        exact hcarries.notified
      · exact .inl ⟨rfl, by rw [hw]; rfl⟩
      · intro hopen
        have hsends := hcarries.sends (hchannel ▸ hopen)
        rwa [hawaited, List.filter_cons_of_neg (by simp [hnotification])] at hsends
  | some notification =>
      have hsome : event.notification ≠ none := by simp [hnotification]
      obtain ⟨rest, hnext⟩ := hcarries.hand event hpoint hsome
      obtain ⟨change, hreports, hlooked, hsince, hrest⟩ :=
        (wire.look_cases event).reports hsome hnext
      obtain ⟨_, hcall, hobject⟩ := hreports.notification
      obtain rfl := Option.some.inj (hnotification.symm.trans hcall)
      refine ⟨?_, ?_, fun attempt hnow => absurd hnow (hrequest attempt), hdrained, ?_,
        fun other hnow => absurd hnow (hhand other), hsilent⟩
      · rw [hnotified, hnotification, hlooked, Option.toList_some, List.map_append,
          List.map_append, hcarries.notified, List.map_singleton, List.map_singleton, hobject]
      · have hbrought := hcarries.resumes.bring hreports
        rw [Resumes, hsince, hw]
        exact hbrought
      · intro hopen
        have hsends := hcarries.sends (hchannel ▸ hopen)
        rw [hawaited, List.filter_cons_of_pos (by simp [hnotification]), hnext] at hsends
        rw [hrest]
        exact (List.cons.inj hsends).2

/-- A watch that is opened sends what the wire has. -/
theorem Carries.reopened {listed live : List Change} (hcarries : wire.Carries loop)
    (point : Point) (hpoint : point = .checkWatcher) :
    Carries { wire with listed := listed, live := live }
      (loop.watch (eventsOf listed live) point) := by
  have hreports : ∀ event ∈ eventsOf listed live, event.notification ≠ none := by
    intro event hevent
    rcases List.mem_append.mp hevent with hlisted | hlive
    · obtain ⟨change, _, rfl⟩ := List.mem_map.mp hlisted
      exact Option.some_ne_none _
    · obtain ⟨change, _, rfl⟩ := List.mem_map.mp hlive
      obtain ⟨notification, hnotification, _⟩ := change.exists_notification
      simp [hnotification]
  subst hpoint
  have hawaited : (loop.watch (eventsOf listed live) .checkWatcher).awaited =
      eventsOf listed live := rfl
  refine ⟨hcarries.notified, hcarries.resumes, nofun, nofun, ?_, nofun, ?_⟩
  · intro _
    rw [hawaited]
    exact List.filter_eq_self.mpr fun event hevent =>
      Option.isSome_iff_ne_none.mpr (hreports event hevent)
  · intro event hevent hnone
    exact absurd hnone (hreports event (hawaited ▸ hevent))

theorem Carries.step {sent : List Change × List Change} (hsound : loop.Sound)
    (hcarries : wire.Carries loop)
    (hstepped : Loop.Stepped loop (some (eventsOf sent.1 sent.2)) after) :
    (wire.follow loop (some sent)).Carries after := by
  have hset := hsound.watcher
  cases hstepped with
  | checked hpoint | blocked hpoint | callbackReturned hpoint | foundClosed hpoint
  | restart hpoint | stopped hpoint =>
      have hfollow : wire.follow loop (some sent) = wire := by simp [follow, hpoint]
      rw [hfollow]
      refine hcarries.move rfl rfl rfl hcarries.drained ?_ ?_ ?_ <;>
        simp [Loop.awaited, Loop.inHand, hpoint]
  | received event rest hpoint hinFlight =>
      have hfollow : wire.follow loop (some sent) = wire := by simp [follow, hpoint]
      have hopen : loop.channel.closed = false := by
        rw [← Bool.not_eq_true]
        intro hclosed
        simp [hcarries.drained hclosed] at hinFlight
      have hawaited : loop.awaited = event :: rest := by
        simp [Loop.awaited, Loop.inHand, hpoint, hinFlight]
      rw [hfollow]
      refine hcarries.move rfl rfl rfl (fun hclosed => ?_) ?_ ?_ ?_
      · simp [hopen] at hclosed
      · simp [Loop.awaited, Loop.inHand, hpoint, hinFlight]
      · simp
      · rintro _ ⟨⟩ hreports
        have hsends := hcarries.sends hopen
        have hreported : event.notification.isSome := Option.isSome_iff_ne_none.mpr hreports
        rw [hawaited, List.filter_cons_of_pos (by exact hreported)] at hsends
        exact ⟨_, hsends.symm⟩
  | opened events hpoint hunset | openFailed hpoint hunset =>
      simp [Loop.BetweenWatches, hpoint, hunset] at hset
  | notified event notification hpoint hnotification =>
      have hfollow : wire.follow loop (some sent) = wire.look event := by simp [follow, hpoint]
      rw [hfollow]
      refine hcarries.observed hpoint rfl ?_ rfl ?_ ?_ <;> simp [hnotification]
  | skipped event hpoint hnotification =>
      have hfollow : wire.follow loop (some sent) = wire.look event := by simp [follow, hpoint]
      rw [hfollow]
      refine hcarries.observed hpoint rfl ?_ rfl ?_ ?_ <;> simp [hnotification]
  | oldStopped hpoint =>
      have hfollow : wire.follow loop (some sent) = wire := by simp [follow, hpoint]
      rw [hfollow]
      refine hcarries.move rfl rfl rfl hcarries.drained ?_ ?_ ?_ <;>
        simp [Loop.awaited, Loop.inHand, hpoint]
  | reopened attempt events hpoint hattempt hevents =>
      have hfollow : wire.follow loop (some sent) =
          { wire with listed := sent.1, live := sent.2 } := by simp [follow, hpoint, hattempt]
      rw [hfollow, ← Option.some.inj hevents]
      exact hcarries.reopened _ rfl
  | retried attempt hpoint hattempt hfailed => cases hfailed
  | gaveUp attempt hpoint hattempt =>
      have hfollow : wire.follow loop (some sent) = wire := by
        simp [follow, hpoint, Nat.not_lt.mpr hattempt]
      rw [hfollow]
      refine hcarries.move rfl rfl rfl hcarries.drained ?_ ?_ ?_ <;>
        simp [Loop.awaited, Loop.inHand, hpoint]

theorem eventsOf_concat (listed live : List Change) (change : Change) :
    eventsOf listed (live ++ [change]) = eventsOf listed live ++ [change.event] := by
  simp [eventsOf]

/-- The server makes a change, and sends it on an open watch. -/
theorem Carries.change {change : Change} (hsound : loop.Sound) (hcarries : wire.Carries loop) :
    Carries { wire with live := wire.live ++ [change] }
      ((loop.send change.event).getD loop) := by
  obtain ⟨notification, hnotification, _⟩ := change.exists_notification
  have hhand : ∀ event, loop.point = .received event → event.notification ≠ none →
      ∃ rest, eventsOf wire.listed (wire.live ++ [change]) = event :: rest := by
    intro event hpoint hreports
    obtain ⟨rest, hnext⟩ := hcarries.hand event hpoint hreports
    exact ⟨rest ++ [change.event], by rw [eventsOf_concat, hnext, List.cons_append]⟩
  rcases loop.send_cases change.event with ⟨hsend, hshut⟩ | ⟨_, hopen, hsend⟩
  · have hclosed : loop.channel.closed = true := hshut.elim hsound.stopped id
    rw [hsend, Option.getD_none]
    refine ⟨hcarries.notified, hcarries.resumes, hcarries.request, hcarries.drained, ?_, hhand,
      hcarries.silent⟩
    intro hnow
    simp [hclosed] at hnow
  · rw [hsend, Option.getD_some]
    refine ⟨hcarries.notified, hcarries.resumes, hcarries.request, ?_, ?_, hhand, ?_⟩
    · intro hnow
      simp [hopen] at hnow
    · intro _
      rw [eventsOf_concat, ← hcarries.sends hopen]
      simp [Loop.awaited, Loop.inHand, hnotification]
    · intro event hevent hnone
      rcases List.mem_append.mp hevent with hold | hsent
      · exact hcarries.silent event (List.mem_append_left _ hold) hnone
      · rcases List.mem_append.mp hsent with hold | hnew
        · exact hcarries.silent event (List.mem_append_right _ hold) hnone
        · rw [List.mem_singleton.mp hnew, hnotification] at hnone
          cases hnone

theorem Carries.tooOld (hcarries : wire.Carries loop) (hopen : loop.channel.closed = false) :
    wire.Carries { loop with
      channel.inFlight := .error ⟨410, ""⟩ :: loop.channel.inFlight } := by
  refine ⟨hcarries.notified, hcarries.resumes, hcarries.request, ?_, ?_, hcarries.hand, ?_⟩
  · intro hclosed
    simp [hopen] at hclosed
  · intro _
    rw [← hcarries.sends hopen]
    simp [Loop.awaited, Loop.inHand, Event.notification]
  · intro event hevent hnone
    rcases List.mem_append.mp hevent with hhand | hsent
    · exact hcarries.silent event (List.mem_append_left _ hhand) hnone
    · rcases List.mem_cons.mp hsent with rfl | hold
      · rfl
      · exact hcarries.silent event (List.mem_append_right _ hold) hnone

theorem Carries.close (hcarries : wire.Carries loop) : wire.Carries loop.close where
  notified := hcarries.notified
  resumes := hcarries.resumes
  request := hcarries.request
  drained := fun _ => rfl
  sends := nofun
  hand := hcarries.hand
  silent := by
    intro event hevent
    apply hcarries.silent event
    have hhand : event ∈ loop.inHand := by
      simpa [Loop.awaited, Loop.close, Loop.inHand] using hevent
    exact List.mem_append_left _ hhand

end Wire

end Kapprofiler.Watch
