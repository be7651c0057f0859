import Kapprofiler.Tracing.ReferenceCounts

/-! # Attached or detached, counted or not

The tracers of the network and dns events are attached to a process once, however often it
is started, and detached by the first stop. The gadgets count the starts in the same loop,
so that the two agree as long as no stop leaves a reference behind.
-/

namespace Kapprofiler.Tracing

open Foundation

/-- The tracer is attached to the process. -/
def TracingState.Attached : TracingState → UInt32 → Prop
  | .attachable pids, pid => pid ∈ pids
  | .gadget .., _ | .peekable, _ | .absent, _ => False

/-- A container's process is attached to exactly if its mount namespace is counted. -/
def Tracer.OnTogether (tracer : Tracer) (mntns : UInt64) (pid : UInt32) : Prop :=
  ((tracer.tracingState .networkEventType).Attached pid ∧
      (tracer.tracingState .dnsEventType).Attached pid) ↔
    0 < (tracer.tracingState .execveEventType).usageReferenceCount mntns ∧
      0 < (tracer.tracingState .openEventType).usageReferenceCount mntns ∧
      0 < (tracer.tracingState .capabilitiesEventType).usageReferenceCount mntns

/-- No two containers share a mount namespace or a process. -/
def DistinctContainers (containers : List (UInt64 × UInt32)) : Prop :=
  (containers.map Prod.fst).Nodup ∧ (containers.map Prod.snd).Nodup

/-- The call is made for all event types of one of the containers. -/
def TraceCall.ForAllTypesOf (containers : List (UInt64 × UInt32)) : TraceCall → Prop
  | .startTraceContainer mntns pid eventType =>
      eventType = .allEventType ∧ (mntns, pid) ∈ containers
  | .stopTraceContainer mntns pid eventType =>
      eventType = .allEventType ∧ (mntns, pid) ∈ containers

/-- A stop meets no more than one reference to its mount namespace. -/
def TraceCall.LeavesNone (tracer : Tracer) : TraceCall → Prop
  | .startTraceContainer .. => True
  | .stopTraceContainer mntns _ _ =>
      ∀ eventType ∈ [.execveEventType, .openEventType, .capabilitiesEventType],
        (tracer.tracingState eventType).usageReferenceCount mntns ≤ 1

/-! ## What the tracers of all event types hold -/

/-- The three gadgets keep these counts, and the other two are attached to these processes. -/
structure Tracer.Holds (tracer : Tracer) (counts : UInt64 → Nat) (pids : Finset UInt32) :
    Prop where
  setUp : tracer.SetUp
  gadgets : ∀ eventType ∈ [.execveEventType, .openEventType, .capabilitiesEventType],
    ∃ filter, tracer.tracingState eventType = .gadget counts filter
  attachables : ∀ eventType ∈ [.networkEventType, .dnsEventType],
    tracer.tracingState eventType = .attachable pids

def Tracer.HoldsSome (tracer : Tracer) : Prop :=
  ∃ counts pids, tracer.Holds counts pids

namespace Tracer.Holds

variable {tracer : Tracer} {counts : UInt64 → Nat} {pids : Finset UInt32} {mntns : UInt64}
  {pid : UInt32}

theorem started (maxContainersPerNode : Nat) :
    (Tracer.started maxContainersPerNode).Holds (fun _ => 0) ∅ where
  setUp := Tracer.setUp_started maxContainersPerNode
  gadgets eventType hmem := by
    simp only [List.mem_cons, List.not_mem_nil, or_false] at hmem
    rcases hmem with rfl | rfl | rfl
    · exact ⟨_, rfl⟩
    · exact ⟨_, rfl⟩
    · exact ⟨_, rfl⟩
  attachables eventType hmem := by
    simp only [List.mem_cons, List.not_mem_nil, or_false] at hmem
    rcases hmem with rfl | rfl
    · rfl
    · rfl

theorem traced_of_gadget {eventType : EventType}
    (hmem : eventType ∈ [.execveEventType, .openEventType, .capabilitiesEventType]) :
    eventType ∈ EventType.allEventType.traced := by
  revert hmem
  cases eventType <;> decide

theorem traced_of_attachable {eventType : EventType}
    (hmem : eventType ∈ [.networkEventType, .dnsEventType]) :
    eventType ∈ EventType.allEventType.traced := by
  revert hmem
  cases eventType <;> decide

theorem start (hholds : tracer.Holds counts pids) :
    (TraceCall.on tracer (.startTraceContainer mntns pid .allEventType)).Holds
      (Function.update counts mntns (counts mntns + 1)) (insert pid pids) where
  setUp := hholds.setUp.on _
  gadgets eventType hmem := by
    obtain ⟨filter, heq⟩ := hholds.gadgets eventType hmem
    rw [TraceCall.on, hholds.setUp.start_tracingState, if_pos (traced_of_gadget hmem), heq]
    exact ⟨_, rfl⟩
  attachables eventType hmem := by
    rw [TraceCall.on, hholds.setUp.start_tracingState, if_pos (traced_of_attachable hmem),
      hholds.attachables eventType hmem]
    rfl

theorem stop (hholds : tracer.Holds counts pids) :
    (TraceCall.on tracer (.stopTraceContainer mntns pid .allEventType)).Holds
      (Function.update counts mntns (counts mntns - 1)) (pids.erase pid) where
  setUp := hholds.setUp.on _
  gadgets eventType hmem := by
    obtain ⟨filter, heq⟩ := hholds.gadgets eventType hmem
    rw [TraceCall.on, hholds.setUp.stop_tracingState, if_pos (traced_of_gadget hmem), heq,
      TracingState.stop]
    by_cases hzero : counts mntns = 0
    · rw [if_pos hzero, hzero, Nat.zero_sub, ← hzero, Function.update_eq_self]
      exact ⟨filter, rfl⟩
    · rw [if_neg hzero]
      exact ⟨_, rfl⟩
  attachables eventType hmem := by
    rw [TraceCall.on, hholds.setUp.stop_tracingState, if_pos (traced_of_attachable hmem),
      hholds.attachables eventType hmem]
    rfl

theorem usageReferenceCount (hholds : tracer.Holds counts pids) {eventType : EventType}
    (hmem : eventType ∈ [.execveEventType, .openEventType, .capabilitiesEventType]) :
    (tracer.tracingState eventType).usageReferenceCount mntns = counts mntns := by
  obtain ⟨filter, heq⟩ := hholds.gadgets eventType hmem
  rw [heq]
  rfl

theorem attached (hholds : tracer.Holds counts pids) {eventType : EventType}
    (hmem : eventType ∈ [.networkEventType, .dnsEventType]) :
    (tracer.tracingState eventType).Attached pid ↔ pid ∈ pids := by
  rw [hholds.attachables eventType hmem]
  exact Iff.rfl

theorem together_iff (hholds : tracer.Holds counts pids) :
    tracer.OnTogether mntns pid ↔ (pid ∈ pids ↔ 0 < counts mntns) := by
  rw [OnTogether, hholds.attached (by decide), hholds.attached (by decide),
    hholds.usageReferenceCount (by decide), hholds.usageReferenceCount (by decide),
    hholds.usageReferenceCount (by decide), and_self, and_self, and_self]

theorem leavesNone_iff (hholds : tracer.Holds counts pids) {called : EventType} :
    TraceCall.LeavesNone tracer (.stopTraceContainer mntns pid called) ↔ counts mntns ≤ 1 := by
  constructor
  · intro hleaves
    have hexec := hleaves .execveEventType (by decide)
    rwa [hholds.usageReferenceCount (by decide)] at hexec
  · intro hcount eventType hmem
    rwa [hholds.usageReferenceCount hmem]

end Tracer.Holds

/-! ## Runs -/

section Runs

variable {containers : List (UInt64 × UInt32)} {tracer : Tracer} {counts : UInt64 → Nat}
  {pids : Finset UInt32} {mntns : UInt64} {pid : UInt32}

theorem DistinctContainers.eq_of_mntns (hdistinct : DistinctContainers containers)
    {first second : UInt64 × UInt32} (hfirst : first ∈ containers) (hsecond : second ∈ containers)
    (heq : first.1 = second.1) : first = second :=
  List.inj_on_of_nodup_map hdistinct.1 hfirst hsecond heq

theorem DistinctContainers.eq_of_pid (hdistinct : DistinctContainers containers)
    {first second : UInt64 × UInt32} (hfirst : first ∈ containers) (hsecond : second ∈ containers)
    (heq : first.2 = second.2) : first = second :=
  List.inj_on_of_nodup_map hdistinct.2 hfirst hsecond heq

/-- A start turns on both of its own container and none of another. -/
theorem Tracer.Holds.onTogether_start (hholds : tracer.Holds counts pids)
    (hdistinct : DistinctContainers containers) (hmem : (mntns, pid) ∈ containers)
    (htogether : ∀ container ∈ containers, tracer.OnTogether container.1 container.2) :
    ∀ container ∈ containers,
      (TraceCall.on tracer (.startTraceContainer mntns pid .allEventType)).OnTogether
        container.1 container.2 := by
  intro container hcontainer
  rw [hholds.start.together_iff, Finset.mem_insert]
  by_cases heq : container = (mntns, pid)
  · subst heq
    rw [Function.update_self]
    exact iff_of_true (Or.inl rfl) (Nat.succ_pos _)
  · have hmntns : container.1 ≠ mntns := fun h => heq (hdistinct.eq_of_mntns hcontainer hmem h)
    have hpid : container.2 ≠ pid := fun h => heq (hdistinct.eq_of_pid hcontainer hmem h)
    rw [Function.update_of_ne hmntns, or_iff_right hpid]
    exact hholds.together_iff.mp (htogether container hcontainer)

/-- A stop detaches from its container's process, and leaves a count unless it was the last. -/
theorem Tracer.Holds.onTogether_stop_iff (hholds : tracer.Holds counts pids)
    (hdistinct : DistinctContainers containers) (hmem : (mntns, pid) ∈ containers)
    (htogether : ∀ container ∈ containers, tracer.OnTogether container.1 container.2) :
    counts mntns ≤ 1 ↔ ∀ container ∈ containers,
      (TraceCall.on tracer (.stopTraceContainer mntns pid .allEventType)).OnTogether
        container.1 container.2 := by
  constructor
  · intro hcount container hcontainer
    rw [hholds.stop.together_iff, Finset.mem_erase]
    by_cases heq : container = (mntns, pid)
    · subst heq
      rw [Function.update_self]
      exact iff_of_false (fun h => h.1 rfl) (by omega)
    · have hmntns : container.1 ≠ mntns := fun h => heq (hdistinct.eq_of_mntns hcontainer hmem h)
      have hpid : container.2 ≠ pid := fun h => heq (hdistinct.eq_of_pid hcontainer hmem h)
      rw [Function.update_of_ne hmntns, and_iff_right hpid]
      exact hholds.together_iff.mp (htogether container hcontainer)
  · intro hafter
    have hown := hafter (mntns, pid) hmem
    rw [hholds.stop.together_iff, Finset.mem_erase, Function.update_self] at hown
    by_contra hmore
    exact (hown.mpr (by omega)).1 rfl

/-- In all states of a run a container's process is attached to exactly if its mount namespace
is counted, if and only if no stop of the run leaves a reference behind. -/
theorem onTogether_iff (maxContainersPerNode : Nat) (containers : List (UInt64 × UInt32))
    (calls : List TraceCall) (last : Tracer) (hdistinct : DistinctContainers containers)
    (hcalls : ∀ call ∈ calls, call.ForAllTypesOf containers)
    (hrun : traceMachine.run (.started maxContainersPerNode) calls = some last) :
    (∀ before tracer, before <+: calls →
        traceMachine.run (.started maxContainersPerNode) before = some tracer →
        ∀ container ∈ containers, tracer.OnTogether container.1 container.2) ↔
      traceMachine.Along TraceCall.LeavesNone (.started maxContainersPerNode) calls := by
  symm
  have hassumes : traceMachine.Along (fun _ call => call.ForAllTypesOf containers)
      (.started maxContainersPerNode) calls :=
    traceMachine.along_of_forall_mem fun _ call hmem => hcalls call hmem
  have hstart : (Tracer.started maxContainersPerNode).HoldsSome :=
    ⟨_, _, .started maxContainersPerNode⟩
  refine traceMachine.along_iff_forall_prefix_of_along ?_ ?_ hassumes hstart ?_ hrun
  · intro tracer call next ⟨counts, pids, hholds⟩ hcall hstep
    obtain rfl := Option.some.inj hstep
    cases call with
    | startTraceContainer mntns pid called =>
        obtain ⟨rfl, -⟩ := hcall
        exact ⟨_, _, hholds.start⟩
    | stopTraceContainer mntns pid called =>
        obtain ⟨rfl, -⟩ := hcall
        exact ⟨_, _, hholds.stop⟩
  · intro tracer call next ⟨counts, pids, hholds⟩ htogether hcall hstep
    obtain rfl := Option.some.inj hstep
    cases call with
    | startTraceContainer mntns pid called =>
        obtain ⟨rfl, hmem⟩ := hcall
        exact iff_of_true trivial (hholds.onTogether_start hdistinct hmem htogether)
    | stopTraceContainer mntns pid called =>
        obtain ⟨rfl, hmem⟩ := hcall
        rw [hholds.leavesNone_iff]
        exact hholds.onTogether_stop_iff hdistinct hmem htogether
  · intro container hcontainer
    rw [(Tracer.Holds.started maxContainersPerNode).together_iff]
    exact iff_of_false (Finset.notMem_empty _) (lt_irrefl 0)

/-- A container is traced for all event types, and given up again. -/
def givenUpOnce : List TraceCall :=
  [.startTraceContainer 4026532201 7 .allEventType,
    .stopTraceContainer 4026532201 7 .allEventType]

theorem givenUpOnce_onTogether : ∃ last,
    traceMachine.run (.started 1024) givenUpOnce = some last ∧
      ∀ before tracer, before <+: givenUpOnce →
        traceMachine.run (.started 1024) before = some tracer →
        ∀ container ∈ [((4026532201, 7) : UInt64 × UInt32)],
          tracer.OnTogether container.1 container.2 := by
  refine ⟨_, rfl, (onTogether_iff 1024 [(4026532201, 7)] givenUpOnce _
    (by simp [DistinctContainers]) ?_ rfl).mpr ?_⟩
  · intro call hmem
    simp only [givenUpOnce, List.mem_cons, List.not_mem_nil, or_false] at hmem
    rcases hmem with rfl | rfl
    · exact ⟨rfl, List.mem_singleton.mpr rfl⟩
    · exact ⟨rfl, List.mem_singleton.mpr rfl⟩
  · refine ⟨trivial, fun _ hstart => ⟨?_, fun _ _ => trivial⟩⟩
    obtain rfl := Option.some.inj hstart
    exact (Tracer.Holds.started 1024).start.leavesNone_iff.mpr (by decide)

/-- The container is counted twice, for its attached and its start event, and one stop
detaches from its process. -/
theorem twice_started_detached :
    ¬ ∀ (containers : List (UInt64 × UInt32)) (calls : List TraceCall) (last : Tracer),
      DistinctContainers containers → (∀ call ∈ calls, call.ForAllTypesOf containers) →
      traceMachine.run (.started 1024) calls = some last →
      ∀ container ∈ containers, last.OnTogether container.1 container.2 := by
  intro hclaim
  have hcalls : ∀ call ∈ [TraceCall.startTraceContainer 4026532201 7 .allEventType,
      .startTraceContainer 4026532201 7 .allEventType,
      .stopTraceContainer 4026532201 7 .allEventType],
      call.ForAllTypesOf [(4026532201, 7)] := by
    intro call hmem
    simp only [List.mem_cons, List.not_mem_nil, or_false] at hmem
    rcases hmem with rfl | rfl | rfl
    · exact ⟨rfl, List.mem_singleton.mpr rfl⟩
    · exact ⟨rfl, List.mem_singleton.mpr rfl⟩
    · exact ⟨rfl, List.mem_singleton.mpr rfl⟩
  have htogether := hclaim [(4026532201, 7)] _ _ (by simp [DistinctContainers]) hcalls rfl
    (4026532201, 7) (List.mem_singleton.mpr rfl)
  rw [(Tracer.Holds.started 1024).start.start.stop.together_iff] at htogether
  exact absurd htogether (by decide)

end Runs

end Kapprofiler.Tracing
