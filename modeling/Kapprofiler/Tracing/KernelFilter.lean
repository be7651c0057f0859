import Kapprofiler.Foundation.Machine
import Kapprofiler.Tracing.Tracer

/-! # Reference counts and the kernel's filter

User space counts how often a mount namespace is traced and writes 1 or 0 to the
filter map; the kernel asks whether the namespace has an entry. A namespace that was
traced once keeps its entry, whatever the count says.
-/

namespace Kapprofiler.Tracing

open Foundation

/-- The check of `mntns_filter.h` at the head of every filtered program. -/
def gadgetShouldDiscardMntnsId (gadgetFilterByMntns : Bool) (gadgetMntnsFilterMap : EbpfMap)
    (mntnsId : UInt64) : Bool :=
  gadgetFilterByMntns && (gadgetMntnsFilterMap.entries.lookup mntnsId).isNone

/-! ## Puts -/

def EbpfMap.HasRoom (filter : EbpfMap) (mntns : UInt64) : Prop :=
  mntns ∈ filter.entries ∨ filter.entries.keys.card < filter.maxEntries

theorem discards_eq_false_iff {filter : EbpfMap} {mntns : UInt64} :
    gadgetShouldDiscardMntnsId true filter mntns = false ↔ mntns ∈ filter.entries := by
  rw [gadgetShouldDiscardMntnsId, Bool.true_and, Option.isNone_eq_false_iff,
    Finmap.lookup_isSome]

theorem EbpfMap.mem_put {filter : EbpfMap} {mntns other : UInt64} {value : UInt32}
    (hroom : filter.HasRoom mntns) :
    other ∈ (filter.put mntns value).entries ↔ other = mntns ∨ other ∈ filter.entries := by
  unfold HasRoom at hroom
  rw [put, if_pos hroom, Finmap.mem_insert]

/-! ## Calls on a started tracer -/

inductive TraceCall
  | startTraceContainer (mntns : UInt64) (pid : UInt32) (eventType : EventType)
  | stopTraceContainer (mntns : UInt64) (pid : UInt32) (eventType : EventType)

/-- The callers ignore what a call returns. -/
def TraceCall.on (tracer : Tracer) : TraceCall → Tracer
  | .startTraceContainer mntns pid eventType =>
      (tracer.startTraceContainer mntns pid eventType).1
  | .stopTraceContainer mntns pid eventType => (tracer.stopTraceContainer mntns pid eventType).1

def traceMachine : Machine Tracer TraceCall where
  init tracer := ∃ maxContainersPerNode, tracer = .started maxContainersPerNode
  step tracer call := some (call.on tracer)

/-- No put of the call fails. A stop only puts a key that is in the map. -/
def TraceCall.PutsSucceed (tracer : Tracer) : TraceCall → Prop
  | .startTraceContainer mntns _ eventType => ∀ traced ∈ eventType.traced, ∀ count filter,
      tracer.tracingState traced = .gadget count filter → filter.HasRoom mntns
  | .stopTraceContainer .. => True

/-- The call is no stop that takes the last reference to a mount namespace. -/
def TraceCall.KeepsLast (tracer : Tracer) : TraceCall → Prop
  | .startTraceContainer .. => True
  | .stopTraceContainer mntns _ eventType => ∀ traced ∈ eventType.traced, ∀ count filter,
      tracer.tracingState traced = .gadget count filter → count mntns ≠ 1

/-- The events of a mount namespace pass the filter of a gadget exactly if the gadget
counts a reference to it. -/
def TracingState.FiltersByCount : TracingState → Prop
  | .gadget count filter =>
      ∀ mntns, gadgetShouldDiscardMntnsId true filter mntns = false ↔ 0 < count mntns
  | .attachable _ | .peekable | .absent => True

def Tracer.FiltersByCount (tracer : Tracer) : Prop :=
  ∀ eventType, (tracer.tracingState eventType).FiltersByCount

/-- `AllEventType` is tracable in a tracer that was started. -/
structure Tracer.SetUp (tracer : Tracer) : Prop where
  running : tracer.running = true
  tracable : ∀ eventType ∈ EventType.allEventType.traced,
    (∃ count filter, tracer.tracingState eventType = .gadget count filter) ∨
      ∃ pids, tracer.tracingState eventType = .attachable pids

theorem TracingState.isSome_start {state : TracingState} {mntns : UInt64} {pid : UInt32}
    (htracable : (∃ count filter, state = .gadget count filter) ∨
      ∃ pids, state = .attachable pids) : (state.start mntns pid).isSome := by
  rcases htracable with ⟨count, filter, rfl⟩ | ⟨pids, rfl⟩
  · rfl
  · rfl

theorem TracingState.isSome_stop {state : TracingState} {mntns : UInt64} {pid : UInt32}
    (htracable : (∃ count filter, state = .gadget count filter) ∨
      ∃ pids, state = .attachable pids) : (state.stop mntns pid).isSome := by
  rcases htracable with ⟨count, filter, rfl⟩ | ⟨pids, rfl⟩
  · simp only [TracingState.stop]
    split <;> rfl
  · rfl

theorem EventType.traced_single {eventType : EventType} (hne : eventType ≠ .allEventType) :
    eventType.traced = [eventType] := by
  cases eventType <;> first | rfl | exact absurd rfl hne

namespace Tracer

variable {tracer : Tracer} {mntns : UInt64} {pid : UInt32} {eventType : EventType}

theorem forEach_running {change : TracingState → Option TracingState} {types : List EventType} :
    (tracer.forEach change types).1.running = tracer.running := by
  induction types generalizing tracer with
  | nil => rfl
  | cons head rest ih =>
      rw [forEach]
      cases hchange : change (tracer.tracingState head) with
      | none => rfl
      | some state => exact ih

/-- Where every type can be changed, the loop changes each of them once. -/
theorem forEach_tracingState {change : TracingState → Option TracingState}
    {types : List EventType} (hnodup : types.Nodup)
    (hsome : ∀ head ∈ types, (change (tracer.tracingState head)).isSome) :
    (tracer.forEach change types).1.tracingState eventType =
      if eventType ∈ types then
        (change (tracer.tracingState eventType)).getD (tracer.tracingState eventType)
      else tracer.tracingState eventType := by
  induction types generalizing tracer with
  | nil => simp [forEach]
  | cons head rest ih =>
      obtain ⟨hhead, hrest⟩ := List.nodup_cons.mp hnodup
      obtain ⟨state, hstate⟩ := Option.isSome_iff_exists.mp (hsome head List.mem_cons_self)
      have hkept : ∀ other ∈ rest,
          Function.update tracer.tracingState head state other = tracer.tracingState other :=
        fun other hother => Function.update_of_ne (ne_of_mem_of_not_mem hother hhead) _ _
      simp only [forEach, hstate]
      rw [ih hrest]
      · by_cases heq : eventType = head
        · subst heq
          simp [hhead, hstate]
        · simp [heq]
      · intro other hother
        simp only [hkept other hother]
        exact hsome other (List.mem_cons_of_mem _ hother)

theorem forEach_single {change : TracingState → Option TracingState} {single : EventType} :
    (tracer.forEach change [single]).1.tracingState eventType =
      if eventType ∈ [single] then
        (change (tracer.tracingState eventType)).getD (tracer.tracingState eventType)
      else tracer.tracingState eventType := by
  cases hchange : change (tracer.tracingState single) with
  | some state =>
      apply forEach_tracingState (List.nodup_singleton single)
      intro head hhead
      rw [List.mem_singleton.mp hhead, hchange]
      rfl
  | none =>
      have hloop : tracer.forEach change [single] = (tracer, false) := by simp [forEach, hchange]
      rw [hloop]
      by_cases heq : eventType = single
      · subst heq
        simp [hchange]
      · simp [heq]

/-- A call changes each type it is made for once, and no other. -/
theorem SetUp.forEach_tracingState {change : TracingState → Option TracingState}
    (hsetUp : tracer.SetUp) {called : EventType}
    (hchange : ∀ state, (∃ count filter, state = .gadget count filter) ∨
      (∃ pids, state = .attachable pids) → (change state).isSome) :
    (tracer.forEach change called.traced).1.tracingState eventType =
      if eventType ∈ called.traced then
        (change (tracer.tracingState eventType)).getD (tracer.tracingState eventType)
      else tracer.tracingState eventType := by
  by_cases hall : called = .allEventType
  · subst hall
    apply Tracer.forEach_tracingState (by decide)
    intro head hhead
    exact hchange _ (hsetUp.tracable head hhead)
  · rw [EventType.traced_single hall]
    exact forEach_single

theorem SetUp.start_tracingState (hsetUp : tracer.SetUp) {called : EventType} :
    (tracer.startTraceContainer mntns pid called).1.tracingState eventType =
      if eventType ∈ called.traced then
        ((tracer.tracingState eventType).start mntns pid).getD (tracer.tracingState eventType)
      else tracer.tracingState eventType := by
  rw [startTraceContainer, if_pos hsetUp.running]
  exact hsetUp.forEach_tracingState fun _ => TracingState.isSome_start

theorem SetUp.stop_tracingState (hsetUp : tracer.SetUp) {called : EventType} :
    (tracer.stopTraceContainer mntns pid called).1.tracingState eventType =
      if eventType ∈ called.traced then
        ((tracer.tracingState eventType).stop mntns pid).getD (tracer.tracingState eventType)
      else tracer.tracingState eventType := by
  rw [stopTraceContainer, if_pos hsetUp.running]
  exact hsetUp.forEach_tracingState fun _ => TracingState.isSome_stop

theorem SetUp.on (hsetUp : tracer.SetUp) (call : TraceCall) : (call.on tracer).SetUp := by
  refine ⟨?_, fun eventType hmem => ?_⟩
  · cases call with
    | startTraceContainer mntns pid called =>
        rw [TraceCall.on, startTraceContainer, if_pos hsetUp.running, forEach_running]
        exact hsetUp.running
    | stopTraceContainer mntns pid called =>
        rw [TraceCall.on, stopTraceContainer, if_pos hsetUp.running, forEach_running]
        exact hsetUp.running
  · have htracable := hsetUp.tracable eventType hmem
    cases call with
    | startTraceContainer mntns pid called =>
        rw [TraceCall.on, hsetUp.start_tracingState]
        split
        · rcases htracable with ⟨count, filter, heq⟩ | ⟨pids, heq⟩
          · exact Or.inl ⟨_, _, by rw [heq]; rfl⟩
          · exact Or.inr ⟨_, by rw [heq]; rfl⟩
        · exact htracable
    | stopTraceContainer mntns pid called =>
        rw [TraceCall.on, hsetUp.stop_tracingState]
        split
        · rcases htracable with ⟨count, filter, heq⟩ | ⟨pids, heq⟩
          · by_cases hzero : count mntns = 0
            · exact Or.inl ⟨_, _, by simp only [heq, TracingState.stop, if_pos hzero]; rfl⟩
            · exact Or.inl ⟨_, _, by simp only [heq, TracingState.stop, if_neg hzero]; rfl⟩
          · exact Or.inr ⟨_, by rw [heq]; rfl⟩
        · exact htracable

end Tracer

/-! ## One gadget -/

namespace TracingState

variable {state : TracingState} {mntns : UInt64} {pid : UInt32}

theorem FiltersByCount.start (hgood : state.FiltersByCount)
    (hroom : ∀ count filter, state = .gadget count filter → filter.HasRoom mntns) :
    ((state.start mntns pid).getD state).FiltersByCount := by
  cases state with
  | gadget count filter =>
      intro other
      rw [discards_eq_false_iff, EbpfMap.mem_put (hroom count filter rfl),
        ← discards_eq_false_iff, hgood other, Function.update_apply]
      by_cases heq : other = mntns
      · simp [heq]
      · simp [heq]
  | attachable pids => trivial
  | peekable => trivial
  | absent => trivial

/-- Writing a 0 leaves the entry, so the filter is right after a stop unless the stop
takes the last reference. -/
theorem FiltersByCount.stop_gadget_iff {count : UInt64 → Nat} {filter : EbpfMap}
    (hgood : (gadget count filter).FiltersByCount) :
    (((gadget count filter).stop mntns pid).getD (gadget count filter)).FiltersByCount ↔
      count mntns ≠ 1 := by
  by_cases hzero : count mntns = 0
  · rw [stop, if_pos hzero, Option.getD_some]
    exact iff_of_true hgood (by rw [hzero]; exact Nat.zero_ne_one)
  · have hentry : ∀ other, other ∈ filter.entries ↔ 0 < count other := fun other => by
      rw [← hgood other, discards_eq_false_iff]
    have hmem : mntns ∈ filter.entries := (hentry mntns).mpr (Nat.pos_of_ne_zero hzero)
    simp only [stop, if_neg hzero, Option.getD_some, FiltersByCount, discards_eq_false_iff,
      Function.update_self]
    constructor
    · intro hafter hone
      have hlast := (hafter mntns).mp
      rw [hone, if_pos rfl, EbpfMap.mem_put (Or.inl hmem), Function.update_self] at hlast
      exact absurd (hlast (Or.inl rfl)) (lt_irrefl 0)
    · intro hmore other
      have hleft : count mntns - 1 ≠ 0 := by omega
      rw [if_neg hleft, hentry other, Function.update_apply]
      split
      next heq =>
        rw [heq]
        omega
      next => rfl

theorem FiltersByCount.stop_iff (hgood : state.FiltersByCount) :
    ((state.stop mntns pid).getD state).FiltersByCount ↔
      ∀ count filter, state = .gadget count filter → count mntns ≠ 1 := by
  cases state with
  | gadget count filter =>
      rw [hgood.stop_gadget_iff]
      constructor
      · intro hne _ _ heq
        obtain ⟨rfl, rfl⟩ := gadget.inj heq
        exact hne
      · intro hne
        exact hne count filter rfl
  | attachable pids => simp [FiltersByCount, stop]
  | peekable => simp [FiltersByCount, stop]
  | absent => simp [FiltersByCount, stop]

end TracingState

/-! ## Runs -/

theorem Tracer.setUp_started (maxContainersPerNode : Nat) :
    (Tracer.started maxContainersPerNode).SetUp where
  running := rfl
  tracable eventType hmem := by
    simp only [EventType.traced, List.mem_cons, List.not_mem_nil, or_false] at hmem
    rcases hmem with rfl | rfl | rfl | rfl | rfl
    · exact Or.inr ⟨_, rfl⟩
    · exact Or.inr ⟨_, rfl⟩
    · exact Or.inl ⟨_, _, rfl⟩
    · exact Or.inl ⟨_, _, rfl⟩
    · exact Or.inl ⟨_, _, rfl⟩

theorem Tracer.filtersByCount_started (maxContainersPerNode : Nat) :
    (Tracer.started maxContainersPerNode).FiltersByCount := by
  intro eventType
  have hempty : (TracingState.gadget (fun _ => 0) ⟨maxContainersPerNode, ∅⟩).FiltersByCount := by
    intro mntns
    rw [discards_eq_false_iff]
    exact iff_of_false Finmap.notMem_empty (lt_irrefl 0)
  cases eventType <;> first | exact hempty | trivial

/-- After a call whose puts succeed, the filters are right exactly if it took no last
reference. -/
theorem TraceCall.filtersByCount_on {tracer : Tracer} {call : TraceCall}
    (hsetUp : tracer.SetUp) (hgood : tracer.FiltersByCount) (hputs : call.PutsSucceed tracer) :
    call.KeepsLast tracer ↔ (call.on tracer).FiltersByCount := by
  cases call with
  | startTraceContainer mntns pid called =>
      refine iff_of_true trivial fun eventType => ?_
      rw [TraceCall.on, hsetUp.start_tracingState]
      split
      next hmem => exact (hgood eventType).start (hputs eventType hmem)
      next => exact hgood eventType
  | stopTraceContainer mntns pid called =>
      constructor
      · intro hkeeps eventType
        rw [TraceCall.on, hsetUp.stop_tracingState]
        split
        next hmem => exact (hgood eventType).stop_iff.mpr (hkeeps eventType hmem)
        next => exact hgood eventType
      · intro hafter eventType hmem
        have hstate := hafter eventType
        rw [TraceCall.on, hsetUp.stop_tracingState, if_pos hmem] at hstate
        exact (hgood eventType).stop_iff.mp hstate

/-- The kernel filters by the reference counts in every state of a run exactly if no stop
of the run takes the last reference of a gadget to a mount namespace. -/
theorem filtersByCount_iff_keepsLast (maxContainersPerNode : Nat) (calls : List TraceCall)
    (last : Tracer)
    (hputs : traceMachine.Along TraceCall.PutsSucceed (.started maxContainersPerNode) calls)
    (hrun : traceMachine.run (.started maxContainersPerNode) calls = some last) :
    traceMachine.Along TraceCall.KeepsLast (.started maxContainersPerNode) calls ↔
      ∀ before tracer, before <+: calls →
        traceMachine.run (.started maxContainersPerNode) before = some tracer →
        tracer.FiltersByCount := by
  refine traceMachine.along_iff_forall_prefix_of_along ?_ ?_ hputs
    (Tracer.setUp_started maxContainersPerNode)
    (Tracer.filtersByCount_started maxContainersPerNode) hrun
  · intro tracer call next hsetUp _ hstep
    rw [← Option.some.inj hstep]
    exact hsetUp.on call
  · intro tracer call next hsetUp hgood hputs hstep
    rw [← Option.some.inj hstep]
    exact TraceCall.filtersByCount_on hsetUp hgood hputs

/-- A container is traced, and given up again. -/
def tracedOnce : List TraceCall :=
  [.startTraceContainer 4026532201 7 .openEventType,
    .stopTraceContainer 4026532201 7 .openEventType]

theorem tracedOnce_putsSucceed (maxContainersPerNode : Nat) :
    traceMachine.Along TraceCall.PutsSucceed (.started (maxContainersPerNode + 1)) tracedOnce := by
  refine ⟨?_, fun _ _ => ⟨trivial, fun _ _ => trivial⟩⟩
  intro traced hmem count filter hstate
  obtain rfl : traced = .openEventType := by simpa [EventType.traced] using hmem
  obtain ⟨rfl, rfl⟩ := TracingState.gadget.inj hstate
  exact Or.inr (by simp)

/-- The count is back at 0, and the kernel still lets the events through. -/
theorem stopped_container_passes :
    ¬ ∀ (maxContainersPerNode : Nat) (calls : List TraceCall) (last : Tracer),
      traceMachine.Along TraceCall.PutsSucceed (.started maxContainersPerNode) calls →
      traceMachine.run (.started maxContainersPerNode) calls = some last →
      last.FiltersByCount := by
  intro hclaim
  have hafter := hclaim 1024 tracedOnce _ (tracedOnce_putsSucceed 1023) rfl
  have hopen := (hafter .openEventType 4026532201).mp (by decide)
  exact absurd hopen (by decide)

/-- So the stop of that run takes a last reference. -/
theorem tracedOnce_not_keepsLast :
    ¬ traceMachine.Along TraceCall.KeepsLast (.started 1024) tracedOnce := by
  intro hkeeps
  have hafter := (filtersByCount_iff_keepsLast 1024 tracedOnce _ (tracedOnce_putsSucceed 1023)
    rfl).mp hkeeps tracedOnce _ (List.prefix_refl _) rfl
  exact absurd ((hafter .openEventType 4026532201).mp (by decide)) (by decide)

end Kapprofiler.Tracing
