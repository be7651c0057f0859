import Kapprofiler.Tracing.ReferenceCounts

/-! # The filter map runs full

A stop that takes the last reference to a mount namespace puts a 0 and leaves the key, so
that the keys of a filter are all the mount namespaces ever started for it. A put that
finds the map full is lost, and the count goes up all the same.
-/

namespace Kapprofiler.Tracing

open Foundation

/-- The event types whose tracers filter by mount namespace. -/
def gadgetTypes : List EventType :=
  [.execveEventType, .openEventType, .capabilitiesEventType, .randomXEventType]

/-- The mount namespace that the call starts the event type for. -/
def TraceCall.startedFor (eventType : EventType) : TraceCall → Option UInt64
  | .startTraceContainer mntns _ called =>
      if eventType ∈ called.traced then some mntns else none
  | .stopTraceContainer .. => none

/-- The mount namespaces that the calls ever start the event type for. -/
def startedNamespaces (calls : List TraceCall) (eventType : EventType) : Finset UInt64 :=
  (calls.filterMap (·.startedFor eventType)).toFinset

/-- Every mount namespace that a gadget counts a reference to has the entry 1. -/
def TracingState.ShowsCounted : TracingState → Prop
  | .gadget count filter => ∀ mntns, 0 < count mntns → filter.entries.lookup mntns = some 1
  | .attachable _ | .peekable | .absent => True

def Tracer.ShowsCounted (tracer : Tracer) : Prop :=
  ∀ eventType, (tracer.tracingState eventType).ShowsCounted

/-- At most this many mount namespaces have a positive count for some event type. -/
def Tracer.LiveAtMost (bound : Nat) (tracer : Tracer) : Prop :=
  ∃ live : Finset UInt64, live.card ≤ bound ∧ ∀ eventType mntns,
    0 < (tracer.tracingState eventType).usageReferenceCount mntns → mntns ∈ live

/-- The filter has room for this many keys, and these are the keys it has. -/
def TracingState.Keeps (maxEntries : Nat) (namespaces : Finset UInt64) : TracingState → Prop
  | .gadget _ filter => filter.maxEntries = maxEntries ∧ filter.entries.keys = namespaces ∧
      namespaces.card ≤ maxEntries
  | .attachable _ | .peekable | .absent => True

def TracingState.IsGadget (state : TracingState) : Prop :=
  ∃ count filter, state = .gadget count filter

/-- The tracer of each event type is of the kind that it was started as. -/
def Tracer.KeepsKinds (tracer : Tracer) : Prop :=
  ∀ eventType, (tracer.tracingState eventType).IsGadget ↔ eventType ∈ gadgetTypes

/-! ## One gadget -/

namespace TracingState

variable {state : TracingState} {mntns : UInt64} {pid : UInt32} {maxEntries : Nat}
  {namespaces : Finset UInt64}

/-- The start is seen in the filter exactly if its put succeeds. -/
theorem ShowsCounted.start_iff (hshows : state.ShowsCounted) :
    ((state.start mntns pid).getD state).ShowsCounted ↔
      ∀ count filter, state = .gadget count filter → filter.HasRoom mntns := by
  cases state with
  | gadget count filter =>
      constructor
      · intro hafter _ _ heq
        obtain ⟨rfl, rfl⟩ := gadget.inj heq
        have hput : (filter.put mntns 1).entries.lookup mntns = some 1 := by
          apply hafter mntns
          rw [Function.update_self]
          exact Nat.succ_pos _
        by_contra hfull
        -- the put is lost, so that an entry for the namespace was there and it had room
        have hsame : filter.put mntns 1 = filter := if_neg hfull
        rw [hsame] at hput
        exact hfull (Or.inl (Finmap.mem_of_lookup_eq_some hput))
      · intro hroom other hcount
        rw [EbpfMap.lookup_put (hroom count filter rfl)]
        split
        next => rfl
        next hne =>
          rw [Function.update_of_ne hne] at hcount
          exact hshows other hcount
  | attachable pids => exact iff_of_true trivial fun _ _ heq => nomatch heq
  | peekable => exact iff_of_true trivial fun _ _ heq => nomatch heq
  | absent => exact iff_of_true trivial fun _ _ heq => nomatch heq

theorem ShowsCounted.stop (hshows : state.ShowsCounted) :
    ((state.stop mntns pid).getD state).ShowsCounted := by
  cases state with
  | gadget count filter =>
      by_cases hzero : count mntns = 0
      · simp only [TracingState.stop, if_pos hzero, Option.getD_some]
        exact hshows
      · simp only [TracingState.stop, if_neg hzero, Option.getD_some, Function.update_self]
        intro other hcount
        by_cases heq : other = mntns
        · subst heq
          rw [Function.update_self] at hcount
          rw [if_neg (Nat.ne_of_gt hcount)]
          exact hshows other (Nat.pos_of_ne_zero hzero)
        · rw [Function.update_of_ne heq] at hcount
          rw [← hshows other hcount]
          split
          · exact EbpfMap.lookup_put_of_ne heq
          · rfl
  | attachable pids => trivial
  | peekable => trivial
  | absent => trivial

/-- A put needs room for the keys that there are afterwards. -/
theorem Keeps.hasRoom_iff {count : UInt64 → Nat} {filter : EbpfMap}
    (hkeeps : (gadget count filter).Keeps maxEntries namespaces) :
    filter.HasRoom mntns ↔ (insert mntns namespaces).card ≤ maxEntries := by
  obtain ⟨rfl, rfl, hcard⟩ := hkeeps
  rw [EbpfMap.HasRoom, ← Finmap.mem_keys]
  by_cases hmem : mntns ∈ filter.entries.keys
  · rw [Finset.insert_eq_of_mem hmem]
    exact iff_of_true (Or.inl hmem) hcard
  · rw [Finset.card_insert_of_notMem hmem, or_iff_right hmem]
    exact Iff.rfl

theorem Keeps.start (hkeeps : state.Keeps maxEntries namespaces)
    (hroom : ∀ count filter, state = .gadget count filter → filter.HasRoom mntns) :
    ((state.start mntns pid).getD state).Keeps maxEntries (insert mntns namespaces) := by
  cases state with
  | gadget count filter =>
      have hput := hroom count filter rfl
      have hcard := hkeeps.hasRoom_iff.mp hput
      obtain ⟨hmax, hkeys, -⟩ := hkeeps
      have hentries : filter.put mntns 1 =
          { filter with entries := filter.entries.insert mntns 1 } := if_pos hput
      refine ⟨?_, ?_, hcard⟩
      · rw [hentries]
        exact hmax
      · ext other
        rw [hentries, Finmap.mem_keys, Finmap.mem_insert, Finset.mem_insert, ← hkeys,
          Finmap.mem_keys]
  | attachable pids => trivial
  | peekable => trivial
  | absent => trivial

/-- A stop only puts a key that the filter has. -/
theorem Keeps.stop (hkeeps : state.Keeps maxEntries namespaces) (hshows : state.ShowsCounted) :
    ((state.stop mntns pid).getD state).Keeps maxEntries namespaces := by
  cases state with
  | gadget count filter =>
      by_cases hzero : count mntns = 0
      · simp only [TracingState.stop, if_pos hzero, Option.getD_some]
        exact hkeeps
      · simp only [TracingState.stop, if_neg hzero, Option.getD_some, Function.update_self]
        split
        next =>
          have hmem : mntns ∈ filter.entries :=
            Finmap.mem_of_lookup_eq_some (hshows mntns (Nat.pos_of_ne_zero hzero))
          have hentries : filter.put mntns 0 =
              { filter with entries := filter.entries.insert mntns 0 } := if_pos (Or.inl hmem)
          obtain ⟨hmax, hkeys, hcard⟩ := hkeeps
          rw [hentries]
          refine ⟨hmax, ?_, hcard⟩
          ext other
          rw [Finmap.mem_keys, Finmap.mem_insert, ← hkeys, Finmap.mem_keys]
          exact or_iff_right_of_imp fun heq => heq ▸ hmem
        next => exact hkeeps
  | attachable pids => trivial
  | peekable => trivial
  | absent => trivial

theorem isGadget_start : ((state.start mntns pid).getD state).IsGadget ↔ state.IsGadget := by
  cases state with
  | gadget count filter => exact iff_of_true ⟨_, _, rfl⟩ ⟨_, _, rfl⟩
  | attachable pids =>
      apply iff_of_false
      · rintro ⟨count, filter, hgadget⟩
        cases hgadget
      · rintro ⟨count, filter, hgadget⟩
        cases hgadget
  | peekable => exact Iff.rfl
  | absent => exact Iff.rfl

theorem isGadget_stop : ((state.stop mntns pid).getD state).IsGadget ↔ state.IsGadget := by
  cases state with
  | gadget count filter =>
      rw [TracingState.stop]
      split
      · exact Iff.rfl
      · exact iff_of_true ⟨_, _, rfl⟩ ⟨_, _, rfl⟩
  | attachable pids =>
      apply iff_of_false
      · rintro ⟨count, filter, hgadget⟩
        cases hgadget
      · rintro ⟨count, filter, hgadget⟩
        cases hgadget
  | peekable => exact Iff.rfl
  | absent => exact Iff.rfl

end TracingState

/-! ## One call -/

section OneCall

variable {tracer : Tracer} {calls : List TraceCall} {call : TraceCall} {maxEntries : Nat}

theorem startedNamespaces_start (calls : List TraceCall) (mntns : UInt64) (pid : UInt32)
    (called eventType : EventType) :
    startedNamespaces (calls ++ [.startTraceContainer mntns pid called]) eventType =
      if eventType ∈ called.traced then insert mntns (startedNamespaces calls eventType)
      else startedNamespaces calls eventType := by
  ext other
  by_cases hmem : eventType ∈ called.traced
  · simp [startedNamespaces, TraceCall.startedFor, hmem]
  · simp [startedNamespaces, TraceCall.startedFor, hmem]

theorem startedNamespaces_stop (calls : List TraceCall) (mntns : UInt64) (pid : UInt32)
    (called eventType : EventType) :
    startedNamespaces (calls ++ [.stopTraceContainer mntns pid called]) eventType =
      startedNamespaces calls eventType := by
  simp [startedNamespaces, TraceCall.startedFor]

namespace Tracer

theorem KeepsKinds.on (hkinds : tracer.KeepsKinds) (hsetUp : tracer.SetUp) :
    (call.on tracer).KeepsKinds := by
  intro eventType
  rw [← hkinds eventType]
  exact hsetUp.related_on (fun _ state next => next.IsGadget ↔ state.IsGadget)
    (fun _ _ => Iff.rfl) (fun _ _ _ => TracingState.isGadget_start)
    (fun _ _ _ => TracingState.isGadget_stop) call eventType

theorem ShowsCounted.on_iff (hshows : tracer.ShowsCounted) (hsetUp : tracer.SetUp) :
    call.PutsSucceed tracer ↔ (call.on tracer).ShowsCounted := by
  cases call with
  | startTraceContainer mntns pid called =>
      constructor
      · intro hputs eventType
        rw [TraceCall.on, hsetUp.start_tracingState]
        split
        next hmem => exact (hshows eventType).start_iff.mpr (hputs eventType hmem)
        next => exact hshows eventType
      · intro hafter eventType hmem
        have hstate := hafter eventType
        rw [TraceCall.on, hsetUp.start_tracingState, if_pos hmem] at hstate
        exact (hshows eventType).start_iff.mp hstate
  | stopTraceContainer mntns pid called =>
      refine iff_of_true trivial fun eventType => ?_
      rw [TraceCall.on, hsetUp.stop_tracingState]
      split
      · exact (hshows eventType).stop
      · exact hshows eventType

/-- The keys of every filter are the mount namespaces that its event type was started for. -/
def KeepsStarted (maxEntries : Nat) (calls : List TraceCall) (tracer : Tracer) : Prop :=
  ∀ eventType, (tracer.tracingState eventType).Keeps maxEntries
    (startedNamespaces calls eventType)

theorem KeepsStarted.on (hkeeps : tracer.KeepsStarted maxEntries calls) (hsetUp : tracer.SetUp)
    (hshows : tracer.ShowsCounted) (hputs : call.PutsSucceed tracer) :
    (call.on tracer).KeepsStarted maxEntries (calls ++ [call]) := by
  intro eventType
  cases call with
  | startTraceContainer mntns pid called =>
      rw [TraceCall.on, hsetUp.start_tracingState, startedNamespaces_start]
      split
      next hmem => exact (hkeeps eventType).start (hputs eventType hmem)
      next => exact hkeeps eventType
  | stopTraceContainer mntns pid called =>
      rw [TraceCall.on, hsetUp.stop_tracingState, startedNamespaces_stop]
      split
      next => exact (hkeeps eventType).stop (hshows eventType)
      next => exact hkeeps eventType

/-- No put of the call fails if and only if there is room for every mount namespace that the
calls have then started. -/
theorem KeepsStarted.putsSucceed_iff (hkeeps : tracer.KeepsStarted maxEntries calls)
    (hkinds : tracer.KeepsKinds) :
    call.PutsSucceed tracer ↔ ∀ eventType ∈ gadgetTypes,
      (startedNamespaces (calls ++ [call]) eventType).card ≤ maxEntries := by
  have hstate : ∀ eventType ∈ gadgetTypes, ∃ count filter,
      tracer.tracingState eventType = .gadget count filter ∧
        (TracingState.gadget count filter).Keeps maxEntries
          (startedNamespaces calls eventType) := by
    intro eventType hgadget
    obtain ⟨count, filter, hcase⟩ := (hkinds eventType).mpr hgadget
    exact ⟨count, filter, hcase, hcase ▸ hkeeps eventType⟩
  cases call with
  | startTraceContainer mntns pid called =>
      constructor
      · intro hputs eventType hgadget
        obtain ⟨count, filter, hcase, hkept⟩ := hstate eventType hgadget
        rw [startedNamespaces_start]
        split
        next hmem => exact hkept.hasRoom_iff.mp (hputs eventType hmem count filter hcase)
        next => exact hkept.2.2
      · intro hroom eventType hmem count filter hcase
        have hcard := hroom eventType ((hkinds eventType).mp ⟨count, filter, hcase⟩)
        have hkept := hkeeps eventType
        rw [startedNamespaces_start, if_pos hmem] at hcard
        rw [hcase] at hkept
        exact hkept.hasRoom_iff.mpr hcard
  | stopTraceContainer mntns pid called =>
      refine iff_of_true trivial fun eventType hgadget => ?_
      obtain ⟨count, filter, -, hkept⟩ := hstate eventType hgadget
      rw [startedNamespaces_stop]
      exact hkept.2.2

end Tracer

end OneCall

/-! ## Runs -/

section Runs

variable {maxContainersPerNode : Nat} {calls : List TraceCall} {last : Tracer}

theorem Tracer.keepsKinds_started (maxContainersPerNode : Nat) :
    (Tracer.started maxContainersPerNode).KeepsKinds := by
  intro eventType
  cases eventType with
  | execveEventType => exact iff_of_true ⟨_, _, rfl⟩ (by decide)
  | openEventType => exact iff_of_true ⟨_, _, rfl⟩ (by decide)
  | capabilitiesEventType => exact iff_of_true ⟨_, _, rfl⟩ (by decide)
  | randomXEventType => exact iff_of_true ⟨_, _, rfl⟩ (by decide)
  | networkEventType => exact iff_of_false nofun (by decide)
  | dnsEventType => exact iff_of_false nofun (by decide)
  | syscallEventType => exact iff_of_false nofun (by decide)
  | allEventType => exact iff_of_false nofun (by decide)

theorem Tracer.keepsStarted_started (maxContainersPerNode : Nat) :
    (Tracer.started maxContainersPerNode).KeepsStarted maxContainersPerNode [] := by
  intro eventType
  have hempty : (TracingState.gadget (fun _ => 0) ⟨maxContainersPerNode, ∅⟩).Keeps
      maxContainersPerNode ∅ := ⟨rfl, rfl, Nat.zero_le _⟩
  cases eventType <;> first | exact hempty | trivial

theorem TracingState.CountedBy.showsCounted {state : TracingState}
    {steps : UInt64 → List CountStep} (hcounted : state.CountedBy steps) :
    state.ShowsCounted := by
  cases state with
  | gadget count filter =>
      intro mntns hpos
      obtain ⟨hcount, hlookup⟩ := hcounted mntns
      rw [hlookup, lastPut, if_pos (hcount ▸ hpos)]
  | attachable pids => trivial
  | peekable => trivial
  | absent => trivial

theorem keepsKinds_of_run
    (hrun : traceMachine.run (.started maxContainersPerNode) calls = some last) :
    last.KeepsKinds := by
  refine traceMachine.run_history_invariant (fun _ tracer => tracer.KeepsKinds)
    (Tracer.keepsKinds_started maxContainersPerNode) ?_ hrun
  intro calls tracer call next hbefore hkinds hstep
  rw [← Option.some.inj hstep]
  exact hkinds.on (setUp_of_run hbefore)

theorem keepsStarted_of_run
    (hputs : traceMachine.Along TraceCall.PutsSucceed (.started maxContainersPerNode) calls)
    (hrun : traceMachine.run (.started maxContainersPerNode) calls = some last) :
    last.KeepsStarted maxContainersPerNode calls := by
  refine traceMachine.run_history_invariant
    (fun calls tracer =>
      traceMachine.Along TraceCall.PutsSucceed (.started maxContainersPerNode) calls →
        tracer.KeepsStarted maxContainersPerNode calls)
    (fun _ => Tracer.keepsStarted_started maxContainersPerNode) ?_ hrun hputs
  intro calls tracer call next hbefore hkeeps hstep hputs
  obtain ⟨hputs, hcall⟩ := traceMachine.along_append.mp hputs
  have hshows : tracer.ShowsCounted := fun eventType =>
    (countedBy_of_run hputs hbefore eventType).showsCounted
  rw [← Option.some.inj hstep]
  exact (hkeeps hputs).on (setUp_of_run hbefore) hshows (hcall tracer hbefore).1

/-- No put of a run fails if and only if the filters have room for all the mount namespaces
that the run starts. -/
theorem putsSucceed_iff
    (hrun : traceMachine.run (.started maxContainersPerNode) calls = some last) :
    traceMachine.Along TraceCall.PutsSucceed (.started maxContainersPerNode) calls ↔
      ∀ eventType ∈ gadgetTypes,
        (startedNamespaces calls eventType).card ≤ maxContainersPerNode := by
  -- the keys are those of the calls before, as long as no put of theirs failed
  refine traceMachine.run_history_invariant
    (fun calls _ =>
      traceMachine.Along TraceCall.PutsSucceed (.started maxContainersPerNode) calls ↔
        ∀ eventType ∈ gadgetTypes,
          (startedNamespaces calls eventType).card ≤ maxContainersPerNode)
    (iff_of_true trivial fun _ _ => Nat.zero_le _) ?_ hrun
  intro calls tracer call next hbefore hiff hstep
  have hmono : ∀ eventType, startedNamespaces calls eventType ⊆
      startedNamespaces (calls ++ [call]) eventType := by
    intro eventType other hmem
    simp only [startedNamespaces, List.filterMap_append, List.toFinset_append,
      Finset.mem_union] at hmem ⊢
    exact Or.inl hmem
  constructor
  · intro hputs
    obtain ⟨hputs, hcall⟩ := traceMachine.along_append.mp hputs
    exact ((keepsStarted_of_run hputs hbefore).putsSucceed_iff
      (keepsKinds_of_run hbefore)).mp (hcall tracer hbefore).1
  · intro hroom
    have hputs := hiff.mpr fun eventType hgadget =>
      (Finset.card_le_card (hmono eventType)).trans (hroom eventType hgadget)
    refine traceMachine.along_append.mpr ⟨hputs, ?_⟩
    intro middle hmiddle
    obtain rfl := Option.some.inj (hbefore.symm.trans hmiddle)
    exact ⟨((keepsStarted_of_run hputs hbefore).putsSucceed_iff
      (keepsKinds_of_run hbefore)).mpr hroom, fun _ _ => trivial⟩

theorem putsSucceed_iff_showsCounted
    (hrun : traceMachine.run (.started maxContainersPerNode) calls = some last) :
    traceMachine.Along TraceCall.PutsSucceed (.started maxContainersPerNode) calls ↔
      ∀ before tracer, before <+: calls →
        traceMachine.run (.started maxContainersPerNode) before = some tracer →
        tracer.ShowsCounted := by
  refine traceMachine.along_iff_forall_prefix ?_ ?_ (Tracer.setUp_started maxContainersPerNode)
    ?_ hrun
  · intro tracer call next hsetUp hstep
    rw [← Option.some.inj hstep]
    exact hsetUp.on call
  · intro tracer call next hsetUp hshows _ hstep
    rw [← Option.some.inj hstep]
    exact hshows.on_iff hsetUp
  · intro eventType
    exact (Tracer.countedBy_started maxContainersPerNode eventType).showsCounted

/-- The filters show every counted mount namespace in all states of a run exactly if the run
starts no more mount namespaces for an event type than its filter has entries, however few of
them are counted at a time. -/
theorem showsCounted_iff (maxContainersPerNode : Nat) (calls : List TraceCall) (last : Tracer)
    (hrun : traceMachine.run (.started maxContainersPerNode) calls = some last) :
    (∀ before tracer, before <+: calls →
        traceMachine.run (.started maxContainersPerNode) before = some tracer →
        tracer.ShowsCounted) ↔
      ∀ eventType ∈ gadgetTypes,
        (startedNamespaces calls eventType).card ≤ maxContainersPerNode := by
  rw [← putsSucceed_iff_showsCounted hrun]
  exact putsSucceed_iff hrun

/-- One container leaves room. -/
theorem tracedOnce_showsCounted : ∃ last,
    traceMachine.run (.started 1024) tracedOnce = some last ∧
      ∀ before tracer, before <+: tracedOnce →
        traceMachine.run (.started 1024) before = some tracer → tracer.ShowsCounted := by
  refine ⟨_, rfl, ?_⟩
  exact (showsCounted_iff 1024 tracedOnce _ rfl).mpr (by decide)

end Runs

/-! ## One container after the other -/

/-- No mount namespace is counted. -/
def Tracer.Quiet (tracer : Tracer) : Prop :=
  ∀ eventType mntns, (tracer.tracingState eventType).usageReferenceCount mntns = 0

/-- Each container is started and stopped before the next one is started. -/
def oneAfterTheOther (containers : List (UInt64 × UInt32)) : List TraceCall :=
  containers.flatMap fun (mntns, pid) =>
    [.startTraceContainer mntns pid .allEventType, .stopTraceContainer mntns pid .allEventType]

section OneAfterTheOther

variable {state : TracingState} {tracer : Tracer} {mntns : UInt64} {pid : UInt32}

theorem TracingState.usageReferenceCount_start {other : UInt64} (hne : other ≠ mntns) :
    ((state.start mntns pid).getD state).usageReferenceCount other =
      state.usageReferenceCount other := by
  cases state with
  | gadget count filter => exact Function.update_of_ne hne _ _
  | attachable pids => rfl
  | peekable => rfl
  | absent => rfl

/-- A start and a stop cancel out. -/
theorem TracingState.usageReferenceCount_stop_start {other : UInt64} :
    let between := (state.start mntns pid).getD state
    ((between.stop mntns pid).getD between).usageReferenceCount other =
      state.usageReferenceCount other := by
  cases state with
  | gadget count filter =>
      simp only [TracingState.start, TracingState.stop, Option.getD_some, Function.update_self,
        if_neg (Nat.succ_ne_zero _)]
      by_cases heq : other = mntns
      · subst heq
        exact Function.update_self ..
      · simp only [usageReferenceCount, Function.update_of_ne heq]
  | attachable pids => rfl
  | peekable => rfl
  | absent => rfl

theorem Tracer.quiet_started (maxContainersPerNode : Nat) :
    (Tracer.started maxContainersPerNode).Quiet := by
  intro eventType mntns
  cases eventType <;> rfl

theorem Tracer.Quiet.liveAtMost (hquiet : tracer.Quiet) (bound : Nat) :
    tracer.LiveAtMost bound := by
  refine ⟨∅, Nat.zero_le _, ?_⟩
  intro eventType mntns hpos
  rw [hquiet eventType mntns] at hpos
  exact absurd hpos (lt_irrefl 0)

theorem Tracer.LiveAtMost.mono {bound larger : Nat} (hlive : tracer.LiveAtMost bound)
    (hle : bound ≤ larger) : tracer.LiveAtMost larger := by
  obtain ⟨live, hcard, hmem⟩ := hlive
  exact ⟨live, hcard.trans hle, hmem⟩

theorem Tracer.Quiet.liveAtMost_start (hquiet : tracer.Quiet) (hsetUp : tracer.SetUp) :
    (TraceCall.on tracer (.startTraceContainer mntns pid .allEventType)).LiveAtMost 1 := by
  refine ⟨{mntns}, le_of_eq (Finset.card_singleton mntns), ?_⟩
  intro eventType other hpos
  rw [Finset.mem_singleton]
  by_contra hne
  rw [TraceCall.on, hsetUp.start_tracingState] at hpos
  split at hpos
  · rw [TracingState.usageReferenceCount_start hne, hquiet] at hpos
    exact lt_irrefl 0 hpos
  · rw [hquiet] at hpos
    exact lt_irrefl 0 hpos

theorem Tracer.Quiet.stop_start (hquiet : tracer.Quiet) (hsetUp : tracer.SetUp) :
    (TraceCall.on (TraceCall.on tracer (.startTraceContainer mntns pid .allEventType))
      (.stopTraceContainer mntns pid .allEventType)).Quiet := by
  intro eventType other
  have hbetween : (TraceCall.on tracer (.startTraceContainer mntns pid .allEventType)).tracingState
      eventType = _ := hsetUp.start_tracingState
  have hafter : (TraceCall.on (TraceCall.on tracer (.startTraceContainer mntns pid .allEventType))
      (.stopTraceContainer mntns pid .allEventType)).tracingState eventType = _ :=
    (hsetUp.on _).stop_tracingState
  rw [hafter, hbetween]
  split
  · rw [TracingState.usageReferenceCount_stop_start]
    exact hquiet eventType other
  · exact hquiet eventType other

theorem oneAfterTheOther_cons (containers : List (UInt64 × UInt32)) :
    oneAfterTheOther ((mntns, pid) :: containers) =
      .startTraceContainer mntns pid .allEventType ::
        .stopTraceContainer mntns pid .allEventType :: oneAfterTheOther containers := rfl

/-- No more than one of these containers is counted at a time. -/
theorem liveAtMost_of_oneAfterTheOther {containers : List (UInt64 × UInt32)}
    (hquiet : tracer.Quiet) (hsetUp : tracer.SetUp) {before : List TraceCall} {last : Tracer}
    (hbefore : before <+: oneAfterTheOther containers)
    (hrun : traceMachine.run tracer before = some last) : last.LiveAtMost 1 := by
  induction containers generalizing tracer before with
  | nil =>
      rw [List.prefix_nil.mp hbefore, Machine.run_nil, Option.some.injEq] at hrun
      exact hrun ▸ hquiet.liveAtMost 1
  | cons container rest ih =>
      obtain ⟨mntns, pid⟩ := container
      rw [oneAfterTheOther_cons] at hbefore
      cases before with
      | nil =>
          rw [Machine.run_nil, Option.some.injEq] at hrun
          exact hrun ▸ hquiet.liveAtMost 1
      | cons start before =>
          obtain ⟨rfl, hfirst⟩ := List.cons_prefix_cons.mp hbefore
          obtain ⟨started, hstart, hstarted⟩ := traceMachine.run_cons.mp hrun
          obtain rfl := Option.some.inj hstart
          cases before with
          | nil =>
              rw [Machine.run_nil, Option.some.injEq] at hstarted
              exact hstarted ▸ hquiet.liveAtMost_start hsetUp
          | cons stop before =>
              obtain ⟨rfl, hsecond⟩ := List.cons_prefix_cons.mp hfirst
              obtain ⟨stopped, hstop, hstopped⟩ := traceMachine.run_cons.mp hstarted
              obtain rfl := Option.some.inj hstop
              exact ih (hquiet.stop_start hsetUp) ((hsetUp.on _).on _) hsecond hstopped

theorem traceMachine_run_isSome (tracer : Tracer) (calls : List TraceCall) :
    ∃ last, traceMachine.run tracer calls = some last := by
  induction calls generalizing tracer with
  | nil => exact ⟨tracer, rfl⟩
  | cons call rest ih => exact ih (call.on tracer)

theorem startedNamespaces_oneAfterTheOther (containers : List (UInt64 × UInt32)) :
    startedNamespaces (oneAfterTheOther containers) .openEventType =
      (containers.map Prod.fst).toFinset := by
  induction containers with
  | nil => rfl
  | cons container rest ih =>
      obtain ⟨mntns, pid⟩ := container
      have hstart : startedNamespaces (oneAfterTheOther ((mntns, pid) :: rest)) .openEventType =
          insert mntns (startedNamespaces (oneAfterTheOther rest) .openEventType) := by
        ext other
        simp [startedNamespaces, oneAfterTheOther_cons, TraceCall.startedFor, EventType.traced]
      rw [hstart, ih, List.map_cons, List.toFinset_cons]

/-- As soon as there are more containers than entries, one of them is not shown. -/
theorem not_showsCounted_of_oneAfterTheOther {containers : List (UInt64 × UInt32)}
    {maxContainersPerNode : Nat} (hnodup : (containers.map Prod.fst).Nodup)
    (hmore : maxContainersPerNode < containers.length) :
    ¬ ∀ before tracer, before <+: oneAfterTheOther containers →
      traceMachine.run (.started maxContainersPerNode) before = some tracer →
      tracer.ShowsCounted := by
  intro hshows
  obtain ⟨last, hrun⟩ :=
    traceMachine_run_isSome (.started maxContainersPerNode) (oneAfterTheOther containers)
  have hputs := (putsSucceed_iff_showsCounted hrun).mpr hshows
  have hroom := (putsSucceed_iff hrun).mp hputs .openEventType (by decide)
  rw [startedNamespaces_oneAfterTheOther, List.toFinset_card_of_nodup hnodup,
    List.length_map] at hroom
  omega

end OneAfterTheOther

/-- One container more than the filter has entries. -/
def churned : List (UInt64 × UInt32) :=
  (List.range 1025).map fun index => (.ofNat (4026532201 + index), .ofNat (1 + index))

theorem churned_nodup : (churned.map Prod.fst).Nodup := by
  rw [churned, List.map_map]
  refine List.Nodup.map_on ?_ List.nodup_range
  intro first hfirst second hsecond heq
  rw [List.mem_range] at hfirst hsecond
  have hnat := congrArg UInt64.toNat heq
  simp only [Function.comp_apply, UInt64.toNat_ofNat'] at hnat
  omega

/-- At most one of the churned containers is counted at a time, and still one is counted that
the filter lets no event of through. -/
theorem churn_exhausts_filter :
    ¬ ∀ (calls : List TraceCall) (last : Tracer),
      (∀ before tracer, before <+: calls →
        traceMachine.run (.started 1024) before = some tracer → tracer.LiveAtMost 1024) →
      traceMachine.run (.started 1024) calls = some last →
      last.ShowsCounted := by
  intro hclaim
  have hmore : 1024 < churned.length := by
    rw [churned, List.length_map, List.length_range]
    exact Nat.lt_succ_self 1024
  apply not_showsCounted_of_oneAfterTheOther churned_nodup hmore
  intro before tracer hbefore hrun
  refine hclaim before tracer (fun earlier state hearlier hstate => ?_) hrun
  exact (liveAtMost_of_oneAfterTheOther (Tracer.quiet_started 1024)
    (Tracer.setUp_started 1024) (hearlier.trans hbefore) hstate).mono (Nat.le_add_left 1 1023)

end Kapprofiler.Tracing
