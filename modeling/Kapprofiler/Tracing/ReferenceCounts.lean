import Kapprofiler.Tracing.KernelFilter

/-! # Counting the references to a mount namespace

For each gadget and mount namespace the tracer keeps a count and the value it last put
into the filter map. Both follow from the calls for that namespace alone, in whatever
order the calls for others come in between.
-/

namespace Kapprofiler.Tracing

open Foundation

inductive CountStep
  | start
  | stop
  deriving DecidableEq

/-- What the call does to the count that the tracer of the event type keeps for the mount
namespace. -/
def TraceCall.countStep (eventType : EventType) (mntns : UInt64) : TraceCall → Option CountStep
  | .startTraceContainer called _ calledType =>
      if called = mntns ∧ eventType ∈ calledType.traced then some .start else none
  | .stopTraceContainer called _ calledType =>
      if called = mntns ∧ eventType ∈ calledType.traced then some .stop else none

/-- `usageReferenceCount[mntns]++`, and `usageReferenceCount[mntns]--` behind its guard. -/
def CountStep.onCount (count : Int) : CountStep → Int
  | .start => count + 1
  | .stop => if count = 0 then count else count - 1

/-- The `int` that Go keeps after these steps. -/
def referenceCount (steps : List CountStep) : Int := steps.foldl CountStep.onCount 0

/-- A start counts up, and a stop counts down to zero. -/
def CountStep.onBalance (balance : Nat) : CountStep → Nat
  | .start => balance + 1
  | .stop => balance - 1

def balance (steps : List CountStep) : Nat := steps.foldl CountStep.onBalance 0

/-- The value last put for a mount namespace: 1 from the first start on, and 0 when the count
is back at zero. -/
def lastPut (steps : List CountStep) : Option UInt32 :=
  if 0 < balance steps then some 1 else if .start ∈ steps then some 0 else none

/-- The steps that the calls make for a mount namespace in the tracer of an event type. -/
def countSteps (calls : List TraceCall) (eventType : EventType) (mntns : UInt64) :
    List CountStep :=
  calls.filterMap (·.countStep eventType mntns)

/-- The gadget counts the references that these steps leave, and has put what they last put. -/
def TracingState.CountedBy (steps : UInt64 → List CountStep) : TracingState → Prop
  | .gadget count filter => ∀ mntns, count mntns = balance (steps mntns) ∧
      filter.entries.lookup mntns = lastPut (steps mntns)
  | .attachable _ | .peekable | .absent => True

def Tracer.CountedBy (calls : List TraceCall) (tracer : Tracer) : Prop :=
  ∀ eventType, (tracer.tracingState eventType).CountedBy (countSteps calls eventType)

/-- The count of a mount namespace, which for a tracer without a map reads as zero. -/
def TracingState.usageReferenceCount : TracingState → UInt64 → Nat
  | .gadget count _, mntns => count mntns
  | .attachable _, _ | .peekable, _ | .absent, _ => 0

/-- The mount namespace of the call. -/
def TraceCall.mntns : TraceCall → UInt64
  | .startTraceContainer mntns _ _ => mntns
  | .stopTraceContainer mntns _ _ => mntns

/-- A gadget stays one, with the same counts and entries for the other mount namespaces. -/
def TracingState.SameElsewhere (mntns : UInt64) : TracingState → TracingState → Prop
  | .gadget count filter, .gadget count' filter' => ∀ other, other ≠ mntns →
      count' other = count other ∧ filter'.entries.lookup other = filter.entries.lookup other
  | .gadget .., .attachable _ | .gadget .., .peekable | .gadget .., .absent => False
  | .attachable _, _ | .peekable, _ | .absent, _ => True

/-! ## Counts -/

section Counts

variable {steps : List CountStep}

theorem balance_append (steps : List CountStep) (countStep : CountStep) :
    balance (steps ++ [countStep]) = countStep.onBalance (balance steps) := by
  rw [balance, List.foldl_append]
  rfl

/-- The guard keeps Go's count from going below zero, so that it is the truncated one. -/
theorem referenceCount_eq_balance (steps : List CountStep) :
    referenceCount steps = balance steps := by
  induction steps using List.reverseRecOn with
  | nil => rfl
  | append_singleton steps countStep ih =>
      have hcount : referenceCount (steps ++ [countStep]) =
          countStep.onCount (referenceCount steps) := by
        rw [referenceCount, List.foldl_append]
        rfl
      rw [hcount, ih, balance_append]
      cases countStep with
      | start => rfl
      | stop =>
          unfold CountStep.onCount CountStep.onBalance
          split <;> omega

theorem start_mem_of_pos (hpos : 0 < balance steps) : .start ∈ steps := by
  induction steps using List.reverseRecOn with
  | nil => exact absurd hpos (lt_irrefl 0)
  | append_singleton steps countStep ih =>
      cases countStep with
      | start => exact List.mem_append_right steps List.mem_cons_self
      | stop =>
          rw [balance_append, CountStep.onBalance] at hpos
          exact List.mem_append_left _ (ih (Nat.lt_of_lt_of_le hpos (Nat.sub_le _ _)))

theorem lastPut_start (steps : List CountStep) : lastPut (steps ++ [.start]) = some 1 := by
  have hpos : 0 < balance (steps ++ [.start]) := by
    rw [balance_append]
    exact Nat.succ_pos _
  rw [lastPut, if_pos hpos]

/-- The stop that takes the last reference puts a 0, and no other stop puts anything. -/
theorem lastPut_stop (steps : List CountStep) :
    lastPut (steps ++ [.stop]) = if balance steps = 1 then some 0 else lastPut steps := by
  have hbalance : balance (steps ++ [.stop]) = balance steps - 1 := balance_append steps .stop
  have hmem : .start ∈ steps ++ [.stop] ↔ .start ∈ steps := by simp
  simp only [lastPut, hbalance, hmem]
  by_cases hone : balance steps = 1
  · have hstart : .start ∈ steps := start_mem_of_pos (by omega)
    simp [hone, hstart]
  · have hleft : 0 < balance steps - 1 ↔ 0 < balance steps := by omega
    simp only [hleft, if_neg hone]

end Counts

/-! ## One call -/

section OneCall

variable {state : TracingState} {steps : UInt64 → List CountStep} {mntns : UInt64} {pid : UInt32}

theorem EbpfMap.lookup_put {filter : EbpfMap} {other : UInt64} {value : UInt32}
    (hroom : filter.HasRoom mntns) :
    (filter.put mntns value).entries.lookup other =
      if other = mntns then some value else filter.entries.lookup other := by
  unfold HasRoom at hroom
  rw [put, if_pos hroom]
  split
  next heq => rw [heq, Finmap.lookup_insert]
  next hne => rw [Finmap.lookup_insert_of_ne _ hne]

theorem EbpfMap.lookup_put_of_ne {filter : EbpfMap} {other : UInt64} {value : UInt32}
    (hne : other ≠ mntns) :
    (filter.put mntns value).entries.lookup other = filter.entries.lookup other := by
  rw [put]
  split
  · rw [Finmap.lookup_insert_of_ne _ hne]
  · rfl

namespace TracingState

theorem CountedBy.start (hcounted : state.CountedBy steps)
    (hroom : ∀ count filter, state = .gadget count filter → filter.HasRoom mntns) :
    ((state.start mntns pid).getD state).CountedBy
      (Function.update steps mntns (steps mntns ++ [.start])) := by
  cases state with
  | gadget count filter =>
      intro other
      rw [EbpfMap.lookup_put (hroom count filter rfl)]
      by_cases heq : other = mntns
      · subst heq
        rw [Function.update_self, Function.update_self, if_pos rfl, balance_append,
          (hcounted other).1, lastPut_start]
        exact ⟨rfl, rfl⟩
      · rw [Function.update_of_ne heq, Function.update_of_ne heq, if_neg heq]
        exact hcounted other
  | attachable pids => trivial
  | peekable => trivial
  | absent => trivial

/-- The put of a stop always succeeds: the start that it undoes left an entry. -/
theorem CountedBy.stop (hcounted : state.CountedBy steps) :
    ((state.stop mntns pid).getD state).CountedBy
      (Function.update steps mntns (steps mntns ++ [.stop])) := by
  cases state with
  | gadget count filter =>
      obtain ⟨hcount, hlookup⟩ := hcounted mntns
      by_cases hzero : count mntns = 0
      -- `continue`: the count is zero and stays zero
      · simp only [TracingState.stop, if_pos hzero, Option.getD_some]
        intro other
        by_cases heq : other = mntns
        · subst heq
          rw [Function.update_self, balance_append, lastPut_stop, ← hcount, hzero, hlookup]
          exact ⟨rfl, rfl⟩
        · rw [Function.update_of_ne heq]
          exact hcounted other
      · have hvalue : filter.entries.lookup mntns = some 1 := by
          rw [hlookup, lastPut, if_pos (by omega)]
        have hroom : filter.HasRoom mntns := Or.inl (Finmap.mem_of_lookup_eq_some hvalue)
        simp only [TracingState.stop, if_neg hzero, Option.getD_some, Function.update_self]
        intro other
        by_cases heq : other = mntns
        · subst heq
          rw [Function.update_self, Function.update_self, balance_append, lastPut_stop, ← hcount]
          refine ⟨rfl, ?_⟩
          by_cases hone : count other = 1
          · rw [hone, if_pos rfl, if_pos rfl, EbpfMap.lookup_put hroom, if_pos rfl]
          · rw [if_neg (by omega), if_neg hone, hlookup]
        · rw [Function.update_of_ne heq, Function.update_of_ne heq]
          refine ⟨(hcounted other).1, ?_⟩
          rw [← (hcounted other).2]
          split
          · exact EbpfMap.lookup_put_of_ne heq
          · rfl
  | attachable pids => trivial
  | peekable => trivial
  | absent => trivial

theorem sameElsewhere_refl (state : TracingState) : state.SameElsewhere mntns state := by
  cases state with
  | gadget count filter => exact fun other _ => ⟨rfl, rfl⟩
  | attachable pids => trivial
  | peekable => trivial
  | absent => trivial

theorem sameElsewhere_start :
    state.SameElsewhere mntns ((state.start mntns pid).getD state) := by
  cases state with
  | gadget count filter =>
      intro other hne
      exact ⟨Function.update_of_ne hne _ _, EbpfMap.lookup_put_of_ne hne⟩
  | attachable pids => trivial
  | peekable => trivial
  | absent => trivial

theorem sameElsewhere_stop :
    state.SameElsewhere mntns ((state.stop mntns pid).getD state) := by
  cases state with
  | gadget count filter =>
      by_cases hzero : count mntns = 0
      · simp only [TracingState.stop, if_pos hzero, Option.getD_some]
        exact sameElsewhere_refl _
      · simp only [TracingState.stop, if_neg hzero, Option.getD_some]
        intro other hne
        refine ⟨Function.update_of_ne hne _ _, ?_⟩
        split
        · exact EbpfMap.lookup_put_of_ne hne
        · rfl
  | attachable pids => trivial
  | peekable => trivial
  | absent => trivial

end TracingState

end OneCall

namespace Tracer

variable {tracer : Tracer} {calls : List TraceCall} {call : TraceCall}

/-- A call adds its step for its own mount namespace and its own event types. -/
theorem countSteps_snoc {countStep : CountStep} {mntns : UInt64} {called : EventType}
    (hcall : ∀ eventType other, call.countStep eventType other =
      if mntns = other ∧ eventType ∈ called.traced then some countStep else none)
    (calls : List TraceCall) (eventType : EventType) :
    countSteps (calls ++ [call]) eventType =
      if eventType ∈ called.traced then
        Function.update (countSteps calls eventType) mntns
          (countSteps calls eventType mntns ++ [countStep])
      else countSteps calls eventType := by
  funext other
  by_cases hmem : eventType ∈ called.traced
  · by_cases heq : other = mntns
    · subst heq
      simp [countSteps, hcall, hmem]
    · simp [countSteps, hcall, hmem, heq, Ne.symm heq]
  · simp [countSteps, hcall, hmem]

theorem countSteps_start (calls : List TraceCall) (mntns : UInt64) (pid : UInt32)
    (called eventType : EventType) :
    countSteps (calls ++ [.startTraceContainer mntns pid called]) eventType =
      if eventType ∈ called.traced then
        Function.update (countSteps calls eventType) mntns
          (countSteps calls eventType mntns ++ [.start])
      else countSteps calls eventType :=
  countSteps_snoc (fun _ _ => rfl) calls eventType

theorem countSteps_stop (calls : List TraceCall) (mntns : UInt64) (pid : UInt32)
    (called eventType : EventType) :
    countSteps (calls ++ [.stopTraceContainer mntns pid called]) eventType =
      if eventType ∈ called.traced then
        Function.update (countSteps calls eventType) mntns
          (countSteps calls eventType mntns ++ [.stop])
      else countSteps calls eventType :=
  countSteps_snoc (fun _ _ => rfl) calls eventType

theorem CountedBy.on (hcounted : tracer.CountedBy calls) (hsetUp : tracer.SetUp)
    (hputs : call.PutsSucceed tracer) : (call.on tracer).CountedBy (calls ++ [call]) := by
  intro eventType
  cases call with
  | startTraceContainer mntns pid called =>
      rw [TraceCall.on, hsetUp.start_tracingState, countSteps_start]
      split
      next hmem => exact (hcounted eventType).start (hputs eventType hmem)
      next => exact hcounted eventType
  | stopTraceContainer mntns pid called =>
      rw [TraceCall.on, hsetUp.stop_tracingState, countSteps_stop]
      split
      next => exact (hcounted eventType).stop
      next => exact hcounted eventType

/-- What holds between a state and itself, and before and after a start and a stop of it,
holds of every event type before and after a call. -/
theorem SetUp.related_on (hsetUp : tracer.SetUp)
    (related : UInt64 → TracingState → TracingState → Prop)
    (hsame : ∀ mntns state, related mntns state state)
    (hstart : ∀ mntns pid (state : TracingState),
      related mntns state ((state.start mntns pid).getD state))
    (hstop : ∀ mntns pid (state : TracingState),
      related mntns state ((state.stop mntns pid).getD state))
    (call : TraceCall) (eventType : EventType) :
    related call.mntns (tracer.tracingState eventType)
      ((call.on tracer).tracingState eventType) := by
  cases call with
  | startTraceContainer mntns pid called =>
      rw [TraceCall.on, hsetUp.start_tracingState]
      split
      · exact hstart mntns pid _
      · exact hsame mntns _
  | stopTraceContainer mntns pid called =>
      rw [TraceCall.on, hsetUp.stop_tracingState]
      split
      · exact hstop mntns pid _
      · exact hsame mntns _

theorem SetUp.sameElsewhere (hsetUp : tracer.SetUp) (call : TraceCall) (eventType : EventType) :
    (tracer.tracingState eventType).SameElsewhere call.mntns
      ((call.on tracer).tracingState eventType) :=
  hsetUp.related_on (fun mntns state next => state.SameElsewhere mntns next)
    (fun _ => TracingState.sameElsewhere_refl) (fun _ _ _ => TracingState.sameElsewhere_start)
    (fun _ _ _ => TracingState.sameElsewhere_stop) call eventType

/-! ## The order of the event types -/

theorem forEach_singles_running {change : TracingState → Option TracingState}
    {types : List EventType} :
    (types.foldl (fun tracer single => (tracer.forEach change [single]).1) tracer).running =
      tracer.running := by
  induction types generalizing tracer with
  | nil => rfl
  | cons head rest ih => exact ih.trans forEach_running

/-- Loops over one type each change what one loop over all of them changes. -/
theorem forEach_singles_tracingState {change : TracingState → Option TracingState}
    {types : List EventType} (hnodup : types.Nodup) {eventType : EventType} :
    (types.foldl (fun tracer single => (tracer.forEach change [single]).1) tracer).tracingState
        eventType =
      if eventType ∈ types then
        (change (tracer.tracingState eventType)).getD (tracer.tracingState eventType)
      else tracer.tracingState eventType := by
  induction types generalizing tracer with
  | nil => simp
  | cons head rest ih =>
      obtain ⟨hhead, hrest⟩ := List.nodup_cons.mp hnodup
      rw [List.foldl_cons, ih hrest, forEach_single]
      by_cases heq : eventType = head
      · subst heq
        simp [hhead]
      · simp [heq]

theorem tracer_ext {first second : Tracer} (hrunning : first.running = second.running)
    (hstate : ∀ eventType, first.tracingState eventType = second.tracingState eventType) :
    first = second := by
  cases first
  cases second
  simp only [mk.injEq]
  exact ⟨hrunning, funext hstate⟩

/-- The loop over the types of `AllEventType` is the loops over each of them, in any order. -/
theorem SetUp.forEach_perm {change : TracingState → Option TracingState} {order : List EventType}
    (hsetUp : tracer.SetUp) (horder : order.Perm EventType.allEventType.traced)
    (hchange : ∀ state, (∃ count filter, state = .gadget count filter) ∨
      (∃ pids, state = .attachable pids) → (change state).isSome) :
    (tracer.forEach change EventType.allEventType.traced).1 =
      order.foldl (fun tracer single => (tracer.forEach change [single]).1) tracer := by
  have hnodup : order.Nodup := horder.nodup_iff.mpr (by decide)
  apply tracer_ext
  · rw [forEach_running, forEach_singles_running]
  · intro eventType
    rw [hsetUp.forEach_tracingState hchange, forEach_singles_tracingState hnodup]
    simp only [horder.mem_iff]

/-- A call for a single type is a loop over this type. -/
theorem foldl_singles {change : TracingState → Option TracingState}
    {traceContainer : Tracer → EventType → Tracer × Bool}
    (hcall : ∀ tracer called, tracer.running = true →
      traceContainer tracer called = tracer.forEach change called.traced)
    {types : List EventType} (hne : ∀ single ∈ types, single ≠ .allEventType)
    (hrunning : tracer.running = true) :
    types.foldl (fun tracer single => (traceContainer tracer single).1) tracer =
      types.foldl (fun tracer single => (tracer.forEach change [single]).1) tracer := by
  induction types generalizing tracer with
  | nil => rfl
  | cons head rest ih =>
      obtain ⟨hhead, hrest⟩ := List.forall_mem_cons.mp hne
      rw [List.foldl_cons, List.foldl_cons, hcall tracer head hrunning,
        EventType.traced_single hhead]
      exact ih hrest (forEach_running.trans hrunning)

/-- The same for a call that goes over the types once the tracer runs. -/
theorem SetUp.call_perm {order : List EventType} (hsetUp : tracer.SetUp)
    (change : TracingState → Option TracingState)
    (traceContainer : Tracer → EventType → Tracer × Bool)
    (hcall : ∀ tracer called, tracer.running = true →
      traceContainer tracer called = tracer.forEach change called.traced)
    (hchange : ∀ state, (∃ count filter, state = .gadget count filter) ∨
      (∃ pids, state = .attachable pids) → (change state).isSome)
    (horder : order.Perm EventType.allEventType.traced) :
    (traceContainer tracer .allEventType).1 =
      order.foldl (fun tracer single => (traceContainer tracer single).1) tracer := by
  have hne : ∀ single ∈ order, single ≠ .allEventType := by
    intro single hmem heq
    have hall := horder.mem_iff.mp hmem
    rw [heq] at hall
    exact absurd hall (by decide)
  rw [hcall tracer _ hsetUp.running, hsetUp.forEach_perm horder hchange,
    foldl_singles hcall hne hsetUp.running]

theorem SetUp.start_perm (hsetUp : tracer.SetUp) (mntns : UInt64) (pid : UInt32)
    {order : List EventType} (horder : order.Perm EventType.allEventType.traced) :
    (tracer.startTraceContainer mntns pid .allEventType).1 =
      order.foldl (fun tracer single => (tracer.startTraceContainer mntns pid single).1)
        tracer := by
  refine hsetUp.call_perm (TracingState.start mntns pid)
    (fun tracer => tracer.startTraceContainer mntns pid) ?_
    (fun _ => TracingState.isSome_start) horder
  intro tracer called hrunning
  exact if_pos hrunning

theorem SetUp.stop_perm (hsetUp : tracer.SetUp) (mntns : UInt64) (pid : UInt32)
    {order : List EventType} (horder : order.Perm EventType.allEventType.traced) :
    (tracer.stopTraceContainer mntns pid .allEventType).1 =
      order.foldl (fun tracer single => (tracer.stopTraceContainer mntns pid single).1)
        tracer := by
  refine hsetUp.call_perm (TracingState.stop mntns pid)
    (fun tracer => tracer.stopTraceContainer mntns pid) ?_
    (fun _ => TracingState.isSome_stop) horder
  intro tracer called hrunning
  exact if_pos hrunning

end Tracer

/-! ## Runs -/

theorem Tracer.countedBy_started (maxContainersPerNode : Nat) :
    (Tracer.started maxContainersPerNode).CountedBy [] := by
  intro eventType
  cases eventType with
  | execveEventType => exact fun mntns => ⟨rfl, rfl⟩
  | openEventType => exact fun mntns => ⟨rfl, rfl⟩
  | capabilitiesEventType => exact fun mntns => ⟨rfl, rfl⟩
  | randomXEventType => exact fun mntns => ⟨rfl, rfl⟩
  | networkEventType => trivial
  | dnsEventType => trivial
  | syscallEventType => trivial
  | allEventType => trivial

theorem setUp_of_run {maxContainersPerNode : Nat} {calls : List TraceCall} {last : Tracer}
    (hrun : traceMachine.run (.started maxContainersPerNode) calls = some last) : last.SetUp := by
  refine traceMachine.run_invariant ?_ (Tracer.setUp_started maxContainersPerNode) hrun
  intro tracer call next hsetUp hstep
  rw [← Option.some.inj hstep]
  exact hsetUp.on call

theorem countedBy_of_run {maxContainersPerNode : Nat} {calls : List TraceCall} {last : Tracer}
    (hputs : traceMachine.Along TraceCall.PutsSucceed (.started maxContainersPerNode) calls)
    (hrun : traceMachine.run (.started maxContainersPerNode) calls = some last) :
    last.CountedBy calls := by
  refine traceMachine.run_history_invariant
    (fun calls tracer =>
      traceMachine.Along TraceCall.PutsSucceed (.started maxContainersPerNode) calls →
        tracer.CountedBy calls)
    (fun _ => Tracer.countedBy_started maxContainersPerNode) ?_ hrun hputs
  intro calls tracer call next hbefore hcounted hstep hputs
  obtain ⟨hputs, hcall⟩ := traceMachine.along_append.mp hputs
  rw [← Option.some.inj hstep]
  exact (hcounted hputs).on (setUp_of_run hbefore) (hcall tracer hbefore).1

/-- The counts of a run whose puts succeed: Go's counter is never negative and is the fold of
the calls, the filter holds what the count says, a call leaves the other mount namespaces
alone, and one for `AllEventType` is five single ones in any order. -/
theorem references_counted (maxContainersPerNode : Nat) (calls : List TraceCall) (last : Tracer)
    (hputs : traceMachine.Along TraceCall.PutsSucceed (.started maxContainersPerNode) calls)
    (hrun : traceMachine.run (.started maxContainersPerNode) calls = some last) :
    (∀ eventType count filter, last.tracingState eventType = .gadget count filter →
      ∀ mntns, let steps := countSteps calls eventType mntns
        (count mntns : Int) = referenceCount steps ∧ 0 ≤ referenceCount steps ∧
          count mntns = balance steps ∧
          filter.entries.lookup mntns =
            if 0 < count mntns then some 1 else if .start ∈ steps then some 0 else none) ∧
      (∀ (call : TraceCall) (eventType : EventType),
        (last.tracingState eventType).SameElsewhere call.mntns
          ((call.on last).tracingState eventType)) ∧
      ∀ (mntns : UInt64) (pid : UInt32) (order : List EventType),
        order.Perm [.networkEventType, .dnsEventType, .execveEventType, .capabilitiesEventType,
          .openEventType] →
        TraceCall.on last (.startTraceContainer mntns pid .allEventType) =
            (order.map (TraceCall.startTraceContainer mntns pid)).foldl TraceCall.on last ∧
          TraceCall.on last (.stopTraceContainer mntns pid .allEventType) =
            (order.map (TraceCall.stopTraceContainer mntns pid)).foldl TraceCall.on last := by
  have hsetUp := setUp_of_run hrun
  refine ⟨?_, hsetUp.sameElsewhere, ?_⟩
  · intro eventType count filter hgadget mntns steps
    have hcounted := countedBy_of_run hputs hrun eventType
    rw [hgadget] at hcounted
    obtain ⟨hcount, hlookup⟩ := hcounted mntns
    have hreference : (count mntns : Int) = referenceCount steps := by
      rw [referenceCount_eq_balance, hcount]
    refine ⟨hreference, hreference ▸ Int.natCast_nonneg _, hcount, ?_⟩
    rw [hcount]
    exact hlookup
  · intro mntns pid order horder
    rw [List.foldl_map, List.foldl_map]
    exact ⟨hsetUp.start_perm mntns pid horder, hsetUp.stop_perm mntns pid horder⟩

/-- The count of a container that was traced once is back at zero, and its entry is 0. -/
theorem tracedOnce_counted : ∃ last count filter,
    traceMachine.run (.started 1024) tracedOnce = some last ∧
      last.tracingState .openEventType = .gadget count filter ∧
      (count 4026532201 : Int) = referenceCount [.start, .stop] ∧
      filter.entries.lookup 4026532201 = some 0 := by
  refine ⟨_, _, _, rfl, rfl, ?_⟩
  obtain ⟨hcounts, -⟩ := references_counted 1024 tracedOnce _ (tracedOnce_putsSucceed 1023) rfl
  obtain ⟨hreference, -, hcount, hlookup⟩ := hcounts .openEventType _ _ rfl 4026532201
  exact ⟨hreference, hlookup⟩

end Kapprofiler.Tracing
