import Kapprofiler.EventDelivery

/-! # The filters of a container

A container is recorded from the addition of its first filter on, and the removal with
`AllEventType` is meant to end that. `RemoveFilter` returns at the first filter that
matches, though, so that the other filters of the container stay.
-/

namespace Kapprofiler

open Tracing Foundation

/-- The event type of a filter that some `Send*Event` matches. -/
def Tracing.EventType.Sent (eventType : EventType) : Prop :=
  eventType = .allEventType ∨ ∃ kind : EventKind, kind.eventType = eventType

instance : DecidablePred EventType.Sent := fun eventType =>
  decidable_of_iff (eventType ≠ .syscallEventType ∧ eventType ≠ .randomXEventType) (by
    constructor
    · rintro ⟨hsyscall, hrandomX⟩
      cases eventType
      case syscallEventType => exact absurd rfl hsyscall
      case randomXEventType => exact absurd rfl hrandomX
      case allEventType => exact Or.inl rfl
      case execveEventType => exact Or.inr ⟨.execve, rfl⟩
      case openEventType => exact Or.inr ⟨.opens, rfl⟩
      case capabilitiesEventType => exact Or.inr ⟨.capabilities, rfl⟩
      case dnsEventType => exact Or.inr ⟨.dns, rfl⟩
      case networkEventType => exact Or.inr ⟨.network, rfl⟩
    · rintro (rfl | ⟨kind, rfl⟩)
      · exact ⟨EventType.noConfusion, EventType.noConfusion⟩
      · cases kind <;> exact ⟨EventType.noConfusion, EventType.noConfusion⟩)

namespace EventSink

/-- A sink, with the containers of which all filters were removed and none was added
since. -/
structure Closing where
  sink : EventSink
  closed : List String

namespace Closing

def start : Closing := ⟨.new true, []⟩

def step (closing : Closing) (call : Call) : Option Closing :=
  (closing.sink.call call).map fun sink => ⟨sink, match call with
    | .addFilter filter => closing.closed.filter (· ≠ filter.containerID)
    | .removeFilter filter =>
        if filter.eventType = .allEventType then filter.containerID :: closing.closed
        else closing.closed
    | _ => closing.closed⟩

/-- The machine of a filtering sink that was started empty. -/
def machine : Machine Closing Call where
  init closing := closing = start
  step := step

/-- No `Send*Event` accepts an event of a closed container. -/
def Silent (closing : Closing) : Prop :=
  ∀ containerID ∈ closing.closed, ∀ kind : EventKind,
    closing.sink.accepts kind.eventType containerID = false

/-- The filters of a container. -/
def filtersOf (sink : EventSink) (containerID : String) : List EventSinkFilter :=
  sink.eventFilters.filter (·.containerID = containerID)

/-- In every state of the run the closed containers are silent and no filter is there twice,
and a removal leaves the filters of other containers as they are. -/
structure Complete (calls : List Call) : Prop where
  silent : ∀ before state, before <+: calls → machine.run start before = some state →
    state.Silent
  unique : ∀ before state, before <+: calls → machine.run start before = some state →
    state.sink.eventFilters.Nodup
  others : ∀ before filter state, before ++ [.removeFilter filter] <+: calls →
    machine.run start before = some state → ∀ containerID, containerID ≠ filter.containerID →
      filtersOf (state.sink.removeFilter filter) containerID = filtersOf state.sink containerID

/-- The condition on a call: a removal with `AllEventType` finds no filter of a type that is
sent behind the first filter of the container. -/
def RemovesAll (closing : Closing) : Call → Prop
  | .removeFilter filter => filter.eventType = .allEventType →
      ∀ other ∈ (filtersOf closing.sink filter.containerID).tail, ¬ other.eventType.Sent
  | _ => True

instance (closing : Closing) : DecidablePred closing.RemovesAll
  | .removeFilter _ => inferInstanceAs (Decidable (_ → _))
  | .op _ | .addFilter _ | .getExecveEvents _ | .getOpenEvents _ | .getCapabilitiesEvents _
  | .getDnsEvents _ | .getNetworkEvents _ | .cleanupContainer _ | .close => .isTrue trivial

/-! ## The filters of one container -/

section Filters

variable {sink : EventSink} {containerID : String} {filter : EventSinkFilter}

theorem mem_filtersOf {other : EventSinkFilter} :
    other ∈ filtersOf sink containerID ↔
      other ∈ sink.eventFilters ∧ other.containerID = containerID := by
  rw [filtersOf, List.mem_filter, decide_eq_true_iff]

/-- A filtering sink accepts nothing of a container without a filter that is sent. -/
theorem accepts_eq_false_iff (hfilters : sink.filterEvents = true) :
    (∀ kind : EventKind, sink.accepts kind.eventType containerID = false) ↔
      ∀ other ∈ filtersOf sink containerID, ¬ other.eventType.Sent := by
  have haccepts : ∀ kind : EventKind, sink.accepts kind.eventType containerID = false ↔
      ∀ other ∈ filtersOf sink containerID,
        other.eventType ≠ .allEventType ∧ other.eventType ≠ kind.eventType := by
    intro kind
    simp [accepts, hfilters, mem_filtersOf]
  constructor
  · rintro hsilent other hother (hall | ⟨kind, hkind⟩)
    · exact ((haccepts .execve).mp (hsilent .execve) other hother).1 hall
    · exact ((haccepts kind).mp (hsilent kind) other hother).2 hkind.symm
  · intro hsilent kind
    refine (haccepts kind).mpr fun other hother => ⟨?_, ?_⟩
    · exact fun hall => hsilent other hother (Or.inl hall)
    · exact fun hkind => hsilent other hother (Or.inr ⟨kind, hkind.symm⟩)

theorem filtersOf_addFilter_of_ne (hne : containerID ≠ filter.containerID) :
    filtersOf (sink.addFilter filter) containerID = filtersOf sink containerID := by
  unfold addFilter filtersOf
  split
  · rfl
  · rw [List.filter_append, List.filter_singleton]
    simp [Ne.symm hne]

theorem nodup_addFilter (hnodup : sink.eventFilters.Nodup) :
    (sink.addFilter filter).eventFilters.Nodup := by
  unfold addFilter
  split
  · exact hnodup
  next hmissing =>
    refine List.nodup_append.mpr ⟨hnodup, List.nodup_singleton _, ?_⟩
    rintro other hother _ hadded rfl
    rw [List.mem_singleton] at hadded
    subst hadded
    exact hmissing (List.any_eq_true.mpr ⟨other, hother, by simp⟩)

/-- The one filter that a removal takes out is the container's. -/
theorem filtersOf_removeFilter_of_ne (hne : containerID ≠ filter.containerID) :
    filtersOf (sink.removeFilter filter) containerID = filtersOf sink containerID := by
  unfold removeFilter filtersOf
  rcases List.exists_or_eq_self_of_eraseP (fun f => decide (f.containerID = filter.containerID ∧
    (f.eventType = filter.eventType ∨ filter.eventType = .allEventType))) sink.eventFilters with
    hsame | ⟨removed, before, after, _, hmatches, heq, herase⟩
  · rw [hsame]
  · have hremoved : removed.containerID = filter.containerID := (of_decide_eq_true hmatches).1
    rw [herase, heq, List.filter_append, List.filter_append, List.filter_cons_of_neg]
    simp [hremoved, Ne.symm hne]

/-- With `AllEventType` it is the container's first. -/
theorem filtersOf_removeFilter_all (hall : filter.eventType = .allEventType) :
    filtersOf (sink.removeFilter filter) filter.containerID =
      (filtersOf sink filter.containerID).tail := by
  have hmatches : (fun f : EventSinkFilter => decide (f.containerID = filter.containerID ∧
      (f.eventType = filter.eventType ∨ filter.eventType = .allEventType))) =
      fun f => decide (f.containerID = filter.containerID) := by
    funext f
    simp [hall]
  unfold removeFilter filtersOf
  rw [hmatches]
  induction sink.eventFilters with
  | nil => rfl
  | cons head rest ih =>
      by_cases hhead : head.containerID = filter.containerID
      · rw [List.eraseP_cons_of_pos (by simpa using hhead),
          List.filter_cons_of_pos (by simpa using hhead), List.tail_cons]
      · rw [List.eraseP_cons_of_neg (by simpa using hhead),
          List.filter_cons_of_neg (by simpa using hhead),
          List.filter_cons_of_neg (by simpa using hhead), ih]

theorem filtersOf_removeFilter_subset (containerID : String) :
    filtersOf (sink.removeFilter filter) containerID ⊆ filtersOf sink containerID :=
  (List.eraseP_sublist.filter _).subset

end Filters

/-! ## One call -/

variable {closing next : Closing} {call : Call}

/-- What a call does to the filters and to the record of closed containers. -/
inductive Effect (closing : Closing) (call : Call) (next : Closing) : Prop
  | kept (hfilters : next.sink.filterEvents = closing.sink.filterEvents ∧
        next.sink.eventFilters = closing.sink.eventFilters)
      (hclosed : next.closed = closing.closed) (hcall : ∀ filter, call ≠ .removeFilter filter)
  | added (filter : EventSinkFilter) (hcall : call = .addFilter filter)
      (hsink : next.sink = closing.sink.addFilter filter)
      (hclosed : next.closed = closing.closed.filter (· ≠ filter.containerID))
  | removed (filter : EventSinkFilter) (hcall : call = .removeFilter filter)
      (hsink : next.sink = closing.sink.removeFilter filter)
      (hclosed : next.closed = if filter.eventType = .allEventType then
        filter.containerID :: closing.closed else closing.closed)

theorem effect (hstep : closing.step call = some next) : Effect closing call next := by
  obtain ⟨sink, hcall, rfl⟩ := Option.map_eq_some_iff.mp hstep
  cases call with
  | op op => exact .kept (step_filters hcall) rfl fun _ => Call.noConfusion
  | addFilter filter =>
      cases hcall
      exact .added filter rfl rfl rfl
  | removeFilter filter =>
      cases hcall
      exact .removed filter rfl rfl rfl
  | _ =>
      cases hcall
      exact .kept ⟨rfl, rfl⟩ rfl fun _ => Call.noConfusion

theorem filterEvents_addFilter (sink : EventSink) (filter : EventSinkFilter) :
    (sink.addFilter filter).filterEvents = sink.filterEvents := by
  obtain ⟨eventFilters, heq⟩ := sink.addFilter_eq filter
  rw [heq]

/-- The sink filters, and has no filter twice. -/
def Sound (closing : Closing) : Prop :=
  closing.sink.filterEvents = true ∧ closing.sink.eventFilters.Nodup

theorem Sound.step (hsound : closing.Sound) (hstep : closing.step call = some next) :
    next.Sound := by
  cases effect hstep with
  | kept hfilters => exact ⟨hfilters.1.trans hsound.1, hfilters.2 ▸ hsound.2⟩
  | added filter _ hsink =>
      refine ⟨?_, ?_⟩
      · rw [hsink, filterEvents_addFilter, hsound.1]
      · rw [hsink]
        exact nodup_addFilter hsound.2
  | removed filter _ hsink =>
      rw [Sound, hsink]
      exact ⟨hsound.1, hsound.2.eraseP _⟩

theorem silent_iff (hfilters : closing.sink.filterEvents = true) :
    closing.Silent ↔ ∀ containerID ∈ closing.closed,
      ∀ other ∈ filtersOf closing.sink containerID, ¬ other.eventType.Sent := by
  refine forall₂_congr fun containerID _ => ?_
  exact accepts_eq_false_iff hfilters

/-- A call leaves the closed containers silent exactly if it meets the condition. -/
theorem Silent.step_iff (hsound : closing.Sound) (hsilent : closing.Silent)
    (hstep : closing.step call = some next) : closing.RemovesAll call ↔ next.Silent := by
  rw [silent_iff (hsound.step hstep).1]
  rw [silent_iff hsound.1] at hsilent
  cases effect hstep with
  | kept hfilters hclosed hcall =>
      have hkept : ∀ containerID, filtersOf next.sink containerID =
          filtersOf closing.sink containerID := by
        intro containerID
        rw [filtersOf, hfilters.2, filtersOf]
      refine iff_of_true ?_ ?_
      · cases call with
        | removeFilter filter => exact absurd rfl (hcall filter)
        | _ => trivial
      · intro containerID hmem other hother
        rw [hclosed] at hmem
        rw [hkept] at hother
        exact hsilent containerID hmem other hother
  | added filter hcall hsink hclosed =>
      subst hcall
      refine iff_of_true trivial fun containerID hmem other hother => ?_
      rw [hclosed, List.mem_filter] at hmem
      -- Adding a filter opens its container again, so it is none of those that are closed.
      obtain ⟨hmem, hne⟩ := hmem
      rw [hsink, filtersOf_addFilter_of_ne (of_decide_eq_true hne)] at hother
      exact hsilent containerID hmem other hother
  | removed filter hcall hsink hclosed =>
      subst hcall
      have hothers : ∀ containerID ∈ closing.closed,
          ∀ other ∈ filtersOf next.sink containerID, ¬ other.eventType.Sent := by
        intro containerID hmem other hother
        rw [hsink] at hother
        exact hsilent containerID hmem other (filtersOf_removeFilter_subset containerID hother)
      -- Only the filter of all types leaves nothing that an event could pass by.
      by_cases hall : filter.eventType = .allEventType
      · rw [hclosed, if_pos hall, List.forall_mem_cons, and_iff_left hothers, hsink,
          filtersOf_removeFilter_all hall]
        exact forall_prop_of_true hall
      · rw [hclosed, if_neg hall]
        exact iff_of_true (fun h => absurd h hall) hothers

/-! ## Runs -/

/-- The filters of a container open and close completely in a run exactly if every removal
with `AllEventType` meets the condition. -/
theorem complete_iff {calls : List Call} {last : Closing}
    (hrun : machine.run start calls = some last) :
    Complete calls ↔ machine.Along RemovesAll start calls := by
  have hstart : start.Sound := ⟨rfl, List.nodup_nil⟩
  have hsound : ∀ before state, machine.run start before = some state → state.Sound :=
    fun before state hbefore =>
      machine.run_invariant (fun _ _ _ hsound hstep => hsound.step hstep) hstart hbefore
  rw [machine.along_iff_forall_prefix
    (fun state call next (hsound : state.Sound) hstep => hsound.step hstep)
    (fun state call next hsound hsilent _ hstep => Silent.step_iff hsound hsilent hstep)
    hstart (fun _ hmem => nomatch hmem) hrun]
  constructor
  · exact fun hcomplete => hcomplete.silent
  · intro hsilent
    refine ⟨hsilent, fun before state _ hbefore => (hsound before state hbefore).2, ?_⟩
    intro before filter state _ _ containerID hne
    exact filtersOf_removeFilter_of_ne hne

/-- A container with a filter of its own for execs, which is opened for all types and closed
again. -/
def doubleFilter : List Call :=
  [.addFilter ⟨.execveEventType, "c1"⟩, .addFilter ⟨.allEventType, "c1"⟩,
    .removeFilter ⟨.allEventType, "c1"⟩]

/-- The filter of all types is still there. -/
theorem doubleFilter_open : ¬ ∀ calls : List Call, Complete calls := by
  intro hclaim
  have hsilent := (hclaim doubleFilter).silent doubleFilter _ (List.prefix_refl _) rfl
  exact absurd (hsilent "c1" List.mem_cons_self .dns) (by decide)

/-- With the one filter that the collector adds, nothing is left. -/
theorem singleFilter_closed :
    Complete [.addFilter ⟨.allEventType, "c1"⟩, .addFilter ⟨.allEventType, "c2"⟩,
      .removeFilter ⟨.allEventType, "c1"⟩] := by
  obtain ⟨last, hlast, _⟩ := Option.map_eq_some_iff.mp
    (show (machine.run start [.addFilter ⟨.allEventType, "c1"⟩, .addFilter ⟨.allEventType, "c2"⟩,
      .removeFilter ⟨.allEventType, "c1"⟩]).map (·.closed) = some ["c1"] by decide)
  exact (complete_iff hlast).mpr (by decide)

end Closing

end EventSink

end Kapprofiler
