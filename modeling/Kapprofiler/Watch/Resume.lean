import Mathlib.Data.List.Nodup
import Kapprofiler.Watch.Wire

/-! # Resuming a closed watch

The loop resumes from the highest version it has seen. A watch from a version
sends its changes in their order, so nothing that it has not brought lies below
what it has. The objects of a list come in any order, and what a watch without a
version has not brought is sent again only as it looks at the restart.
-/

namespace Kapprofiler.Watch

/-! ## The machine -/

/-- The loop, the server's history, split at the time the watch began, and the watches. -/
structure Feed where
  loop : Loop
  before : List Change
  later : List Change
  wire : Wire
deriving DecidableEq

namespace Feed

def changes (feed : Feed) : List Change := feed.before ++ feed.later

def owed (feed : Feed) : List Owed :=
  ((existing feed.before).map fun change => .object change.name) ++ feed.later.map .change

/-- While a watch is open, whatever is owed has been delivered or is still to come on it. -/
def NothingSkipped (feed : Feed) : Prop :=
  feed.loop.channel.closed = false →
    ∀ owed ∈ feed.owed, feed.loop.Delivered owed ∨ feed.loop.Awaits owed

instance (feed : Feed) : Decidable feed.NothingSkipped :=
  inferInstanceAs (Decidable (_ → ∀ owed ∈ feed.owed, _ ∨ _))

/-- What the server has for a watch that is opened now. -/
def answer (feed : Feed) (order : List Change) : Option (List Change × List Change) :=
  Watch.answer feed.changes order feed.loop.resourceVersion

end Feed

inductive Happening where
  /-- A step of the loop; `order` is the order in which the server would list the objects. -/
  | loop (order : List Change)
  | change (change : Change)
  /-- The next event the loop receives is the error that the version is too old. -/
  | tooOld
  | close
deriving DecidableEq

/-- Versions grow, every `Watch` call for a version that is a number succeeds, and the
channel may close and the error may come at any time. -/
def feedMachine : Foundation.Machine Feed Happening where
  init feed := feed.later = [] ∧
    feed.before.Pairwise Change.Older ∧ ∃ order : List Change, order.Perm (existing feed.before) ∧
      feed.loop = .started "" (eventsOf order []) ∧ feed.wire = ⟨[], [], order, []⟩
  step feed
    | .loop order =>
        if order.Perm (existing feed.changes) then
          (feed.loop.step ((feed.answer order).map fun sent => eventsOf sent.1 sent.2)).map
            fun loop => { feed with
              loop := loop, wire := feed.wire.follow feed.loop (feed.answer order) }
        else none
    | .change change =>
        if ∀ earlier ∈ feed.changes, earlier.Older change then
          some { feed with
            loop := (feed.loop.send change.event).getD feed.loop
            later := feed.later ++ [change]
            wire.live := feed.wire.live ++ [change] }
        else none
    | .tooOld =>
        if feed.loop.channel.closed then none
        else some { feed with
          loop.channel.inFlight := .error ⟨410, ""⟩ :: feed.loop.channel.inFlight }
    | .close => some { feed with loop := feed.loop.close }

/-! ## The order that a restart depends on -/

namespace Feed

/-- What the change is owed for: an object of the beginning, or the change itself. -/
def owes (feed : Feed) (change : Change) : Owed :=
  if change ∈ feed.before then .object change.name else .change change

/-- It is owed, and no event that the loop has looked at was of it. -/
def Missing (feed : Feed) (owed : Owed) : Prop :=
  owed ∈ feed.owed ∧ ∀ change ∈ feed.wire.looked, ¬ owed.SettledBy change.object

instance (feed : Feed) (owed : Owed) : Decidable (feed.Missing owed) :=
  inferInstanceAs (Decidable (_ ∧ ∀ change ∈ feed.wire.looked, ¬ _))

/-- Each missing object that the watch still had to list is higher than all that the loop has
looked at since it began or since the last 410, or it is of the beginning and has been changed
since it was listed. -/
def ListedInOrder (feed : Feed) : Prop :=
  ∀ change ∈ feed.wire.listed, feed.Missing (feed.owes change) →
    (∀ looked ∈ feed.wire.sinceReset, looked.Older change) ∨
      change ∈ feed.before ∧ ∃ newer ∈ feed.wire.live, newer.name = change.name

/-- What is missing of the watch is how an existing object looks: nothing has overwritten or
deleted it. An object of the beginning may have been changed, but exists. -/
def NotOverwritten (feed : Feed) : Prop :=
  ∀ change ∈ feed.wire.ahead, feed.Missing (feed.owes change) →
    ∃ found ∈ existing feed.changes, (feed.owes change).SettledBy found.object

instance (feed : Feed) : Decidable feed.ListedInOrder :=
  inferInstanceAs (Decidable (∀ change ∈ feed.wire.listed, _ → (∀ looked ∈ _, _) ∨
    _ ∧ ∃ newer ∈ feed.wire.live, _))

instance (feed : Feed) : Decidable feed.NotOverwritten :=
  inferInstanceAs (Decidable (∀ change ∈ feed.wire.ahead, _ → ∃ found ∈ _, _))

/-- A restart finds the list of the old watch brought in order as far as it was brought or, where
the loop has looked at no event since it began or since the last 410, nothing overwritten. -/
def BroughtInOrder (feed : Feed) : Happening → Prop
  | .loop _ => feed.loop.Reopens →
      (feed.wire.sinceReset = [] → feed.NotOverwritten) ∧
        (feed.wire.sinceReset ≠ [] → feed.ListedInOrder)
  | _ => True

instance : ∀ (feed : Feed) (label : Happening), Decidable (feed.BroughtInOrder label)
  | feed, .loop _ => inferInstanceAs (Decidable (feed.loop.Reopens → (_ → _) ∧ (_ → _)))
  | _, .change _ | _, .tooOld | _, .close => .isTrue trivial

end Feed

/-! ## One step of the feed -/

namespace Feed

variable {feed next : Feed} {label : Happening}

theorem loop_step {order : List Change}
    (hstep : feedMachine.step feed (.loop order) = some next) :
    order.Perm (existing feed.changes) ∧ ∃ loop,
      Loop.Stepped feed.loop ((feed.answer order).map fun sent => eventsOf sent.1 sent.2) loop ∧
        next = { feed with
          loop := loop, wire := feed.wire.follow feed.loop (feed.answer order) } := by
  simp only [feedMachine] at hstep
  split_ifs at hstep with horder
  obtain ⟨loop, hloop, rfl⟩ := Option.map_eq_some_iff.mp hstep
  exact ⟨horder, loop, Loop.step_cases hloop, rfl⟩

theorem change_step {change : Change}
    (hstep : feedMachine.step feed (.change change) = some next) :
    (∀ earlier ∈ feed.changes, earlier.Older change) ∧
      next = { feed with
        loop := (feed.loop.send change.event).getD feed.loop
        later := feed.later ++ [change]
        wire.live := feed.wire.live ++ [change] } := by
  simp only [feedMachine] at hstep
  split_ifs at hstep with habove
  exact ⟨habove, (Option.some.inj hstep).symm⟩

theorem tooOld_step (hstep : feedMachine.step feed .tooOld = some next) :
    feed.loop.channel.closed = false ∧ next = { feed with
      loop.channel.inFlight := .error ⟨410, ""⟩ :: feed.loop.channel.inFlight } := by
  simp only [feedMachine] at hstep
  split_ifs at hstep with hclosed
  exact ⟨by simpa using hclosed, (Option.some.inj hstep).symm⟩

/-- What every run keeps. -/
structure Recorded (feed : Feed) : Prop where
  sound : feed.loop.Sound
  grows : feed.changes.Pairwise Change.Older
  ordered : feed.wire.Ordered feed.changes
  carries : feed.wire.Carries feed.loop

theorem Recorded.exists_answer (hrecorded : feed.Recorded) (order : List Change) :
    ∃ sent, feed.answer order = some sent :=
  Watch.exists_answer hrecorded.sound.version

/-- A restart asks for the version of the newest change since the last 410. -/
theorem Recorded.resumes (hrecorded : feed.Recorded) (hreopens : feed.loop.Reopens) :
    feed.wire.Resumes feed.loop.resourceVersion := by
  obtain ⟨attempt, _, hpoint⟩ := hreopens
  rw [hrecorded.carries.request attempt hpoint]
  exact hrecorded.carries.resumes

theorem sound_step (hsound : feed.loop.Sound) (hstep : feedMachine.step feed label = some next) :
    next.loop.Sound := by
  cases label with
  | loop order =>
      obtain ⟨_, loop, hstepped, rfl⟩ := loop_step hstep
      refine hsound.step ?_ hstepped
      intro events hevents
      obtain ⟨sent, _, rfl⟩ := Option.map_eq_some_iff.mp hevents
      exact fromServer_of_mem_eventsOf
  | change change =>
      obtain ⟨_, rfl⟩ := change_step hstep
      have hversion : FromServer change.event.getResourceVersion :=
        .inr ⟨change.version, change.event_getResourceVersion.symm⟩
      rcases feed.loop.send_cases change.event with ⟨hsend, _⟩ | ⟨_, hopen, hsend⟩
      · simpa [hsend] using hsound
      · simp only [hsend, Option.getD_some]
        refine hsound.withChannel (fun hclosed => hclosed) rfl ?_
        intro event hevent
        rcases List.mem_append.mp hevent with hold | hnew
        · exact .inl hold
        · exact .inr (List.mem_singleton.mp hnew ▸ hversion)
  | tooOld =>
      obtain ⟨_, rfl⟩ := tooOld_step hstep
      refine hsound.withChannel (fun hclosed => hclosed) rfl ?_
      intro event hevent
      rcases List.mem_cons.mp hevent with rfl | hold
      · exact .inr (.inl rfl)
      · exact .inl hold
  | close =>
      obtain rfl := Option.some.inj hstep
      exact hsound.withChannel (fun _ => rfl) rfl fun event hevent => absurd hevent List.not_mem_nil

theorem Recorded.step (hrecorded : feed.Recorded)
    (hstep : feedMachine.step feed label = some next) : next.Recorded := by
  have hsound := sound_step hrecorded.sound hstep
  cases label with
  | loop order =>
      obtain ⟨sent, hsent⟩ := hrecorded.exists_answer order
      obtain ⟨horder, loop, hstepped, rfl⟩ := loop_step hstep
      rw [hsent, Option.map_some] at hstepped
      refine ⟨hsound, hrecorded.grows, ?_, ?_⟩
      · simp only [hsent]
        rcases Wire.follow_cases feed.wire feed.loop sent with
          hsame | ⟨event, hlooked⟩ | ⟨hreopens, hopened⟩
        · rw [hsame]
          exact hrecorded.ordered
        · exact hrecorded.ordered.look hlooked
        · rw [hopened]
          exact hrecorded.ordered.reopen hrecorded.grows horder (hrecorded.resumes hreopens) hsent
      · simp only [hsent]
        exact hrecorded.carries.step hrecorded.sound hstepped
  | change change =>
      obtain ⟨habove, rfl⟩ := change_step hstep
      have hchanges : ∀ feed : Feed, feed.before ++ (feed.later ++ [change]) =
          feed.changes ++ [change] := fun feed => (List.append_assoc ..).symm
      refine ⟨hsound, ?_, ?_, hrecorded.carries.change hrecorded.sound⟩
      · simp only [changes, hchanges]
        refine List.pairwise_append.mpr ⟨hrecorded.grows, List.pairwise_singleton _ _, ?_⟩
        intro older holder newer hnewer
        rw [List.mem_singleton.mp hnewer]
        exact habove older holder
      · simp only [changes, hchanges]
        exact hrecorded.ordered.change habove
  | tooOld =>
      obtain ⟨hopen, rfl⟩ := tooOld_step hstep
      exact ⟨hsound, hrecorded.grows, hrecorded.ordered, hrecorded.carries.tooOld hopen⟩
  | close =>
      obtain rfl := Option.some.inj hstep
      exact ⟨hsound, hrecorded.grows, hrecorded.ordered, hrecorded.carries.close⟩

/-- Whatever is owed has been looked at or is on the wire, also while no watch is open. -/
def Covered (feed : Feed) : Prop :=
  ∀ owed ∈ feed.owed, (∃ change ∈ feed.wire.looked, owed.SettledBy change.object) ∨
    ∃ change ∈ feed.wire.ahead, owed.SettledBy change.object

theorem Recorded.delivered_iff (hrecorded : feed.Recorded) (owed : Owed) :
    feed.loop.Delivered owed ↔ ∃ change ∈ feed.wire.looked, owed.SettledBy change.object := by
  have hobjects : (∃ object ∈ feed.loop.notified.map Notification.object, owed.SettledBy object) ↔
      ∃ object ∈ feed.wire.looked.map Change.object, owed.SettledBy object := by
    rw [hrecorded.carries.notified]
  simpa [Loop.Delivered] using hobjects

theorem Recorded.awaits_iff (hrecorded : feed.Recorded)
    (hopen : feed.loop.channel.closed = false) (owed : Owed) :
    feed.loop.Awaits owed ↔ ∃ change ∈ feed.wire.ahead, owed.SettledBy change.object := by
  have hevents : (∃ event ∈ feed.loop.awaited.filter fun event => event.notification.isSome,
      owed.SettledByEvent event) ↔
        ∃ event ∈ eventsOf feed.wire.listed feed.wire.live, owed.SettledByEvent event := by
    rw [hrecorded.carries.sends hopen]
  have hreporting : feed.loop.Awaits owed ↔
      ∃ event ∈ feed.loop.awaited.filter fun event => event.notification.isSome,
        owed.SettledByEvent event := by
    constructor
    · rintro ⟨event, hevent, hsettled⟩
      obtain ⟨notification, hnotification, _⟩ := id hsettled
      refine ⟨event, List.mem_filter.mpr ⟨hevent, ?_⟩, hsettled⟩
      exact Option.isSome_of_mem (Option.mem_toList.mp hnotification)
    · rintro ⟨event, hevent, hsettled⟩
      exact ⟨event, List.mem_of_mem_filter hevent, hsettled⟩
  rw [hreporting, hevents]
  simp only [eventsOf, Wire.ahead, List.mem_append, List.mem_map]
  constructor
  · rintro ⟨event, ⟨change, hchange, rfl⟩ | ⟨change, hchange, rfl⟩, hsettled⟩
    · exact ⟨change, .inl hchange, Owed.settledByEvent_added.mp hsettled⟩
    · exact ⟨change, .inr hchange, (change.settledByEvent owed).mp hsettled⟩
  · rintro ⟨change, hchange | hchange, hsettled⟩
    · exact ⟨_, .inl ⟨change, hchange, rfl⟩, Owed.settledByEvent_added.mpr hsettled⟩
    · exact ⟨_, .inr ⟨change, hchange, rfl⟩, (change.settledByEvent owed).mpr hsettled⟩

/-- On an open watch nothing is skipped exactly if all that is owed is covered. -/
theorem Recorded.nothingSkipped_iff (hrecorded : feed.Recorded) :
    feed.NothingSkipped ↔ (feed.loop.channel.closed = false → feed.Covered) := by
  refine imp_congr_right fun hopen => ?_
  simp only [Covered, hrecorded.delivered_iff, hrecorded.awaits_iff hopen]

/-! ## The restart -/

/-- Versions tell changes apart. -/
theorem Recorded.eq_of_object (hrecorded : feed.Recorded) {change other : Change}
    (hchange : change ∈ feed.changes) (hother : other ∈ feed.changes)
    (hobject : change.object = other.object) : change = other := by
  have hdistinct : (feed.changes.map fun change => change.version.value).Nodup :=
    List.pairwise_map.mpr (hrecorded.grows.imp fun holder => Int.ne_of_lt holder)
  refine List.inj_on_of_nodup_map hdistinct hchange hother ?_
  have htext : change.version.text = other.version.text := (Object.mk.inj hobject).2
  have hvalue := change.version.parses.symm
  rw [htext, other.version.parses] at hvalue
  exact Option.some.inj hvalue

/-- A later change is not one of the beginning. -/
theorem Recorded.owes_of_later (hrecorded : feed.Recorded) {change : Change}
    (hchange : change ∈ feed.later) : feed.owes change = .change change := by
  refine if_neg fun hbefore => ?_
  have hgrows := (List.pairwise_append.mp hrecorded.grows).2.2
  exact Int.lt_irrefl _ (hgrows change hbefore change hchange)

/-- A change that settles something missing is itself missing, and what settles it settles that. -/
theorem Recorded.missing_owes (hrecorded : feed.Recorded) {owed : Owed} {change : Change}
    (hmissing : feed.Missing owed) (hchange : change ∈ feed.changes)
    (hsettled : owed.SettledBy change.object) : feed.Missing (feed.owes change) ∧
      ∀ object, (feed.owes change).SettledBy object → owed.SettledBy object := by
  cases owed with
  | change made =>
      have hlater : made ∈ feed.later := by simpa [Feed.owed] using hmissing.1
      obtain rfl := hrecorded.eq_of_object hchange (List.mem_append_right _ hlater) hsettled
      rw [hrecorded.owes_of_later hlater]
      exact ⟨hmissing, fun _ hobject => hobject⟩
  | object name =>
      obtain rfl : change.name = name := hsettled
      by_cases hbefore : change ∈ feed.before
      · rw [owes, if_pos hbefore]
        exact ⟨hmissing, fun _ hobject => hobject⟩
      · rw [owes, if_neg hbefore]
        have hlater : change ∈ feed.later := (List.mem_append.mp hchange).resolve_left hbefore
        refine ⟨⟨by simp [Feed.owed, hlater], ?_⟩, ?_⟩
        · intro looked hlooked hsame
          exact hmissing.2 looked hlooked (congrArg Object.name hsame)
        · intro object hsame
          exact congrArg Object.name hsame

/-- A restart with nothing seen since the last 410 lists the objects that exist. -/
theorem Recorded.notOverwritten_iff (hrecorded : feed.Recorded) (hcovered : feed.Covered)
    {order : List Change} (horder : order.Perm (existing feed.changes)) :
    feed.NotOverwritten ↔
      Covered { feed with wire := { feed.wire with listed := order, live := [] } } := by
  constructor
  · intro hkept owed howed
    by_contra hlost
    rw [not_or] at hlost
    have hmissing : feed.Missing owed := ⟨howed, by simpa using hlost.1⟩
    obtain ⟨change, hahead, hsettled⟩ := (hcovered owed howed).resolve_left hlost.1
    have hchange := hrecorded.ordered.known change (List.mem_append_right _ hahead)
    obtain ⟨howes, hsettles⟩ := hrecorded.missing_owes hmissing hchange hsettled
    obtain ⟨found, hfound, hagain⟩ := hkept change hahead howes
    exact hlost.2 ⟨found, by simpa [Wire.ahead] using horder.mem_iff.mpr hfound,
      hsettles _ hagain⟩
  · intro hnext change hahead hmissing
    have hsent := (hnext _ hmissing.1).resolve_left (by simpa using hmissing.2)
    obtain ⟨found, hfound, hsettled⟩ := hsent
    exact ⟨found, horder.mem_iff.mp (by simpa [Wire.ahead] using hfound), hsettled⟩

/-- A restart from the newest version sends all that is newer, so that only a list can have left
something behind. -/
theorem Recorded.listedInOrder_iff (hrecorded : feed.Recorded) (hcovered : feed.Covered)
    {live : List Change} (hlive : ∀ change, change ∈ live ↔ change ∈ feed.changes ∧
      ∀ looked ∈ feed.wire.sinceReset, looked.Older change) :
    feed.ListedInOrder ↔
      Covered { feed with wire := { feed.wire with listed := [], live := live } } := by
  have hstill : ∀ change ∈ feed.wire.live, change ∈ live := by
    intro change hchange
    refine (hlive change).mpr ⟨?_, ?_⟩
    · exact hrecorded.ordered.known change (by simp [Wire.ahead, hchange])
    · exact fun looked hlooked =>
        hrecorded.ordered.below looked (List.mem_append_left _ hlooked) change hchange
  constructor
  · intro horder owed howed
    by_contra hlost
    rw [not_or] at hlost
    have hmissing : feed.Missing owed := ⟨howed, by simpa using hlost.1⟩
    obtain ⟨change, hahead, hsettled⟩ := (hcovered owed howed).resolve_left hlost.1
    have hchange := hrecorded.ordered.known change (List.mem_append_right _ hahead)
    obtain ⟨howes, hsettles⟩ := hrecorded.missing_owes hmissing hchange hsettled
    have hsent : ∃ change ∈ live, owed.SettledBy change.object := by
      rcases List.mem_append.mp hahead with hlisted | hnewer
      · rcases horder change hlisted howes with habove | ⟨hbefore, newer, hnewer, hname⟩
        · exact ⟨change, (hlive change).mpr ⟨hchange, habove⟩, hsettled⟩
        · refine ⟨newer, hstill newer hnewer, hsettles _ ?_⟩
          rw [owes, if_pos hbefore]
          exact hname
      · exact ⟨change, hstill change hnewer, hsettled⟩
    exact hlost.2 (by simpa [Wire.ahead] using hsent)
  · intro hnext change hlisted hmissing
    have hchange := hrecorded.ordered.known change (by simp [Wire.ahead, hlisted])
    have hsent := (hnext _ hmissing.1).resolve_left (by simpa using hmissing.2)
    obtain ⟨newer, hnewer, hsettled⟩ := hsent
    obtain ⟨hknown, habove⟩ := (hlive newer).mp (by simpa [Wire.ahead] using hnewer)
    by_cases hbefore : change ∈ feed.before
    · rw [owes, if_pos hbefore] at hsettled
      by_cases holder : change.Older newer
      · exact .inr ⟨hbefore, newer,
          hrecorded.ordered.changed change hlisted newer hknown hsettled holder, hsettled⟩
      · refine .inl fun looked hlooked => ?_
        have hlower := habove looked hlooked
        simp only [Change.Older] at hlower holder ⊢
        omega
    · rw [owes, if_neg hbefore] at hsettled
      obtain rfl := hrecorded.eq_of_object hknown hchange hsettled
      exact .inl habove

theorem Recorded.reopened_iff (hrecorded : feed.Recorded) (hcovered : feed.Covered)
    {order : List Change} {sent : List Change × List Change}
    (horder : order.Perm (existing feed.changes)) (hreopens : feed.loop.Reopens)
    (hsent : feed.answer order = some sent) : feed.BroughtInOrder (.loop order) ↔
      Covered { feed with wire := { feed.wire with listed := sent.1, live := sent.2 } } := by
  have hbrought : feed.BroughtInOrder (.loop order) ↔
      (feed.wire.sinceReset = [] → feed.NotOverwritten) ∧
        (feed.wire.sinceReset ≠ [] → feed.ListedInOrder) := forall_prop_of_true hreopens
  obtain ⟨listed, live⟩ := sent
  rw [hbrought]
  rcases (hrecorded.resumes hreopens).answer_cases hsent with
    ⟨hnone, rfl, rfl⟩ | ⟨hsome, rfl, _, hlive⟩
  · rw [← hrecorded.notOverwritten_iff hcovered horder]
    simp [hnone]
  · rw [← hrecorded.listedInOrder_iff hcovered hlive]
    simp [hsome]

/-! ## Runs -/

theorem Covered.look {wire : Wire} {event : Event} (hcovered : feed.Covered)
    (hlooked : feed.wire.Looked event wire) : Covered { feed with wire := wire } := by
  have hkept : ∀ change ∈ feed.wire.looked ++ feed.wire.ahead,
      change ∈ wire.looked ++ wire.ahead := by
    cases hlooked with
    | reset | nothing => exact fun change hchange => hchange
    | listed hlisted => simp [Wire.ahead, Wire.bring, hlisted]
    | live hlisted hlive => simp [Wire.ahead, Wire.bring, hlisted, hlive]
  intro owed howed
  have hsettled : ∃ change ∈ feed.wire.looked ++ feed.wire.ahead, owed.SettledBy change.object := by
    simpa [or_and_right, exists_or] using hcovered owed howed
  obtain ⟨change, hchange, hsettles⟩ := hsettled
  rcases List.mem_append.mp (hkept change hchange) with hold | hahead
  · exact .inl ⟨change, hold, hsettles⟩
  · exact .inr ⟨change, hahead, hsettles⟩

theorem Covered.change {change : Change} {loop : Loop} (hcovered : feed.Covered) :
    Covered { feed with
      loop := loop
      later := feed.later ++ [change]
      wire.live := feed.wire.live ++ [change] } := by
  intro owed howed
  have hcases : owed ∈ feed.owed ∨ owed = .change change := by
    simpa [Feed.owed, or_assoc] using howed
  rcases hcases with hold | rfl
  · refine (hcovered owed hold).imp_right ?_
    rintro ⟨other, hother, hsettled⟩
    refine ⟨other, ?_, hsettled⟩
    simp only [Wire.ahead, List.mem_append] at hother ⊢
    tauto
  · exact .inr ⟨change, by simp [Wire.ahead], rfl⟩

/-- The restarts apart, every step keeps what is owed covered, and a restart does exactly if the
old watch brought what it brought in order. -/
theorem broughtInOrder_iff_covered (hrecorded : feed.Recorded) (hcovered : feed.Covered)
    (hstep : feedMachine.step feed label = some next) :
    feed.BroughtInOrder label ↔ next.Covered := by
  cases label with
  | loop order =>
      obtain ⟨sent, hsent⟩ := hrecorded.exists_answer order
      obtain ⟨horder, loop, hstepped, rfl⟩ := loop_step hstep
      simp only [hsent]
      by_cases hreopens : feed.loop.Reopens
      · obtain ⟨attempt, hattempt, hpoint⟩ := id hreopens
        rw [hrecorded.reopened_iff hcovered horder hreopens hsent]
        simp only [Wire.follow, hpoint, hattempt, if_true]
        exact Iff.rfl
      · refine iff_of_true (fun hnow => absurd hnow hreopens) ?_
        rcases Wire.follow_cases feed.wire feed.loop sent with hsame | ⟨event, hlooked⟩ | ⟨hnow, _⟩
        · rw [hsame]
          exact hcovered
        · exact hcovered.look hlooked
        · exact absurd hnow hreopens
  | change change =>
      obtain ⟨_, rfl⟩ := change_step hstep
      exact iff_of_true trivial hcovered.change
  | tooOld =>
      obtain ⟨_, rfl⟩ := tooOld_step hstep
      exact iff_of_true trivial hcovered
  | close =>
      obtain rfl := Option.some.inj hstep
      exact iff_of_true trivial hcovered

/-- Only a step that opens a watch can leave something uncovered. -/
theorem nothingSkipped_iff_covered (hrecorded : feed.Recorded) (hcovered : feed.Covered)
    (hstep : feedMachine.step feed label = some next) : next.NothingSkipped ↔ next.Covered := by
  rw [(hrecorded.step hstep).nothingSkipped_iff]
  refine ⟨fun hopened => ?_, fun hnext _ => hnext⟩
  by_cases hopen : next.loop.channel.closed = false
  · exact hopened hopen
  · refine (broughtInOrder_iff_covered hrecorded hcovered hstep).mp ?_
    cases label with
    | loop order =>
        intro hreopens
        obtain ⟨sent, hsent⟩ := hrecorded.exists_answer order
        obtain ⟨_, loop, hstepped, rfl⟩ := loop_step hstep
        rw [hsent, Option.map_some] at hstepped
        obtain ⟨events, _, rfl⟩ :=
          Loop.eq_watch_of_reopens (Option.some_ne_none _) hstepped hreopens
        exact absurd rfl hopen
    | _ => trivial

theorem recorded_started (hinit : feedMachine.init feed) : feed.Recorded := by
  obtain ⟨hlater, hgrows, order, horder, hloop, hwire⟩ := hinit
  have hchanges : feed.changes = feed.before := by rw [changes, hlater, List.append_nil]
  have hempty : Wire.Ordered ⟨[], [], [], []⟩ feed.before :=
    ⟨nofun, List.Pairwise.nil, nofun, nofun⟩
  have hanswer : Watch.answer feed.before order "" = some (order, []) := if_pos rfl
  refine ⟨?_, hchanges ▸ hgrows, ?_, ?_⟩
  · rw [hloop]
    refine ⟨.inl rfl, fun hbetween => hbetween.elim, fun hstopped => ?_, .inl rfl, .inl rfl,
      fromServer_of_mem_eventsOf⟩
    cases hstopped
  · rw [hwire, hchanges]
    exact hempty.reopen hgrows horder (.inl ⟨rfl, rfl⟩) hanswer
  · rw [hwire, hloop]
    have hstopped : Wire.Carries ⟨[], [], [], []⟩ { Loop.started "" [] with opened := 0 } :=
      ⟨rfl, .inl ⟨rfl, rfl⟩, nofun, nofun, fun _ => rfl, nofun, nofun⟩
    exact hstopped.reopened .checkWatcher rfl

theorem covered_started (hinit : feedMachine.init feed) : feed.Covered := by
  obtain ⟨hlater, _, order, horder, _, hwire⟩ := hinit
  intro owed howed
  rw [Feed.owed, hlater, List.map_nil, List.append_nil] at howed
  obtain ⟨change, hchange, rfl⟩ := List.mem_map.mp howed
  right
  rw [hwire]
  exact ⟨change, List.mem_append_left _ (horder.mem_iff.mpr hchange), rfl⟩

/-- Nothing is skipped in a run exactly if every restart finds the list of the watch that closed
brought in order as far as it was brought or, where nothing was looked at since the beginning or
the last 410, nothing of it overwritten. -/
theorem nothingSkipped_iff_broughtInOrder {start last : Feed} {labels : List Happening}
    (hinit : feedMachine.init start) (hrun : feedMachine.run start labels = some last) :
    (∀ before state, before <+: labels → feedMachine.run start before = some state →
      state.NothingSkipped) ↔ feedMachine.Along BroughtInOrder start labels := by
  have hstart := recorded_started hinit
  have hside : ∀ state label next, Recorded state → feedMachine.step state label = some next →
      Recorded next := fun _ _ _ hrecorded hstep => hrecorded.step hstep
  have hbrought := feedMachine.along_iff_forall_prefix hside
    (fun state label next hrecorded hcovered _ hstep =>
      broughtInOrder_iff_covered hrecorded hcovered hstep)
    hstart (covered_started hinit) hrun
  have hskipped : feedMachine.Along (fun state label =>
      ∀ next, feedMachine.step state label = some next → next.NothingSkipped) start labels ↔
        ∀ before state, before <+: labels → feedMachine.run start before = some state →
          state.Covered := by
    apply feedMachine.along_iff_forall_prefix hside _ hstart (covered_started hinit) hrun
    intro state label next hrecorded hcovered _ hstep
    rw [← nothingSkipped_iff_covered hrecorded hcovered hstep]
    exact ⟨fun hall => hall next hstep, fun hnext other hother =>
      Option.some.inj (hstep.symm.trans hother) ▸ hnext⟩
  constructor
  · intro hnothing
    refine hbrought.mpr (hskipped.mp (feedMachine.along_iff_forall_step.mpr ?_))
    rintro before label after state rfl hbefore next hstep
    exact hnothing (before ++ [label]) next (by simp)
      (feedMachine.run_append.mpr ⟨state, hbefore, feedMachine.run_cons.mpr ⟨next, hstep, rfl⟩⟩)
  · intro halong before state hbefore hstate
    have hrecorded : state.Recorded := feedMachine.run_invariant hside hstart hstate
    exact hrecorded.nothingSkipped_iff.mpr fun _ => hbrought.mp halong before state hbefore hstate

/-- Two objects, the second changed last, of a list that is sent in the given order. -/
def listed (order : List Change) : Feed where
  loop := .started "" (eventsOf order [])
  before := [⟨.added, "pod-a", ⟨"5", 5, by decide⟩⟩, ⟨.added, "pod-b", ⟨"10", 10, by decide⟩⟩]
  later := []
  wire := ⟨[], [], order, []⟩

/-- The channel closes after the first event, and the loop opens another watch. -/
def closedAfterOne : List Happening :=
  .replicate 4 (.loop (listed []).before) ++ .close :: .replicate 7 (.loop (listed []).before)

theorem resumed_in_order :
    ∃ last, feedMachine.run (listed (listed []).before) closedAfterOne = some last ∧
      last.NothingSkipped := by
  obtain ⟨last, hrun⟩ := Option.isSome_iff_exists.mp
    (show (feedMachine.run (listed (listed []).before) closedAfterOne).isSome by decide)
  have hinit : feedMachine.init (listed (listed []).before) :=
    ⟨rfl, by decide, _, by decide, rfl, rfl⟩
  have hkept := (nothingSkipped_iff_broughtInOrder hinit hrun).mpr (by decide)
  exact ⟨last, hrun, hkept closedAfterOne last (List.prefix_refl _) hrun⟩

/-- The object with the higher version came first, so that the other is never sent again. -/
theorem resumed_above_undelivered : ¬ ∀ start labels last, feedMachine.init start →
    feedMachine.run start labels = some last → last.NothingSkipped := by
  intro hnever
  have hlast : (feedMachine.run (listed (listed []).before.reverse) closedAfterOne).map
      (fun last => decide last.NothingSkipped) = some false := by decide
  obtain ⟨last, hrun, hskipped⟩ := Option.map_eq_some_iff.mp hlast
  have hinit : feedMachine.init (listed (listed []).before.reverse) :=
    ⟨rfl, by decide, _, by decide, rfl, rfl⟩
  exact of_decide_eq_false hskipped (hnever _ _ last hinit hrun)

end Feed

end Kapprofiler.Watch
