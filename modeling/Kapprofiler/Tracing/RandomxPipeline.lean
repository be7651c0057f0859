import Kapprofiler.Tracing.KernelFilter
import Kapprofiler.Tracing.Randomx

/-! # From the tracepoint to the alert

The kernel runs the program of `randomx.bpf.c` whenever the registers of the FPU are given up.
Its samples go through the perf buffer of the CPU, which may lose some, to the loop that counts
them. Whatever the buffers lose and in whatever order they are read: a namespace is reported
once at most, and only after it was traced and gave up the FPU often enough in a rounding mode
that programs seldom choose.
-/

namespace Kapprofiler.Tracing.Randomx

open Foundation

/-! ## The program -/

/-- What the program reads of the current task. -/
structure TaskStruct where
  inum : UInt32
  realParentPid : UInt32

def TaskStruct.mntnsId (task : TaskStruct) : UInt64 := task.inum.toUInt64

/-- What the program finds at the tracepoint. The task and the FPU's registers are behind
pointers that may be null. -/
structure Deactivation where
  currentTask : Option TaskStruct
  uidGid : UInt64
  pidTgid : UInt64
  mxcsr : Option UInt32
  bootNs : UInt64
  comm : Vector UInt8 16

def invalidUid : UInt32 := 0xffffffff

def validUid (uid : UInt32) : Bool := uid ≠ invalidUid

/-- The rounding mode, which is 0 for the nearest number. -/
def fpcr (mxcsr : UInt32) : UInt32 := (mxcsr &&& 0x6000) >>> 13

def Deactivation.sample (hit : Deactivation) (task : TaskStruct) : RandomxEvent where
  timestamp := hit.bootNs
  mntnsId := task.mntnsId
  pid := (hit.pidTgid >>> 32).toUInt32
  ppid := task.realParentPid
  uid := hit.uidGid.toUInt32
  gid := (hit.uidGid >>> 32).toUInt32
  comm := hit.comm

/-- `tracepoint__x86_fpu_regs_deactivated`, and the sample that it emits if it does. -/
def x86FpuRegsDeactivated (targUid : UInt32) (gadgetFilterByMntns : Bool)
    (gadgetMntnsFilterMap : EbpfMap) (hit : Deactivation) : Option RandomxEvent :=
  match hit.currentTask with
  | none => none
  | some task =>
      if validUid targUid ∧ targUid ≠ hit.uidGid.toUInt32 then none
      else if gadgetShouldDiscardMntnsId gadgetFilterByMntns gadgetMntnsFilterMap task.mntnsId then
        none
      else
        match hit.mxcsr with
        | none => none
        | some mxcsr => if fpcr mxcsr ≠ 0 then some (hit.sample task) else none

/-- A task of the namespace gives up the FPU in another rounding mode than the usual one. -/
def Deactivation.roundsIn (mntnsId : UInt64) (hit : Deactivation) : Bool :=
  hit.currentTask.any (fun task => task.mntnsId = mntnsId) &&
    hit.mxcsr.any fun mxcsr => fpcr mxcsr ≠ 0

theorem of_emitted {targUid : UInt32} {filter : EbpfMap} {hit : Deactivation}
    {sample : RandomxEvent} (hemits : x86FpuRegsDeactivated targUid true filter hit = some sample) :
    sample.mntnsId ∈ filter.entries ∧ hit.roundsIn sample.mntnsId = true ∧
      ∃ task ∈ hit.currentTask, sample = hit.sample task := by
  unfold x86FpuRegsDeactivated at hemits
  split at hemits
  next => cases hemits
  next task htask =>
    split at hemits
    next => cases hemits
    next =>
      split at hemits
      next => cases hemits
      next hpasses =>
        split at hemits
        next => cases hemits
        next mxcsr hmxcsr =>
          split at hemits
          next hrounds =>
            obtain rfl := Option.some.inj hemits
            refine ⟨discards_eq_false_iff.mp (Bool.eq_false_iff.mpr hpasses), ?_, task, htask, rfl⟩
            simp [Deactivation.roundsIn, Deactivation.sample, htask, hmxcsr, hrounds]
          next => cases hemits

/-! ## The perf buffers -/

/-- The buffers of all CPUs: what was written to each and not read yet, oldest first, and how
many samples did not fit into it since. -/
structure PerfBuffers where
  records : List (Nat × Record)
  lost : Nat → UInt64

namespace PerfBuffers

def empty : PerfBuffers := ⟨[], fun _ => 0⟩

/-- `bpf_perf_event_output`. When there is room again, a record of the lost samples comes
before the sample. -/
def output (buffers : PerfBuffers) (cpu : Nat) (fits : Bool) (sample : RandomxEvent) :
    PerfBuffers :=
  if fits then
    let lost := if 0 < buffers.lost cpu then [(cpu, ⟨buffers.lost cpu, none⟩)] else []
    { records := buffers.records ++ lost ++ [(cpu, ⟨0, some sample⟩)]
      lost := Function.update buffers.lost cpu 0 }
  else { buffers with lost := Function.update buffers.lost cpu (buffers.lost cpu + 1) }

/-- The oldest record of a CPU. -/
def next (buffers : PerfBuffers) (cpu : Nat) : Option Record :=
  (buffers.records.find? fun record => record.1 = cpu).map Prod.snd

def drop (buffers : PerfBuffers) (cpu : Nat) : PerfBuffers :=
  { buffers with records := buffers.records.eraseP fun record => record.1 = cpu }

/-- The samples that are waiting. -/
def samples (buffers : PerfBuffers) : List RandomxEvent :=
  buffers.records.flatMap fun record => Reading.samples (.record record.2)

theorem samples_output (buffers : PerfBuffers) (cpu : Nat) (fits : Bool) (sample : RandomxEvent) :
    (buffers.output cpu fits sample).samples =
      if fits then buffers.samples ++ [sample] else buffers.samples := by
  cases fits with
  | false => rfl
  | true =>
      by_cases hlost : 0 < buffers.lost cpu <;>
        simp [output, samples, Reading.samples, hlost]

/-- A read takes the samples of its record out of the buffers. -/
theorem samples_next {buffers : PerfBuffers} {cpu : Nat} {record : Record}
    (hnext : buffers.next cpu = some record) :
    buffers.samples.Perm (Reading.samples (.record record) ++ (buffers.drop cpu).samples) := by
  obtain ⟨⟨owner, _⟩, hfind, rfl⟩ := Option.map_eq_some_iff.mp hnext
  obtain ⟨howner, before, after, hrecords, hbefore⟩ := List.find?_eq_some_iff_append.mp hfind
  have hdrop : buffers.records.eraseP (fun record => record.1 = cpu) = before ++ after := by
    rw [hrecords,
      List.eraseP_append_right _ (fun other hother => by simpa using hbefore other hother),
      List.eraseP_cons_of_pos (by simpa using howner)]
  simp only [samples, drop, hdrop]
  rw [hrecords, List.flatMap_append, List.flatMap_append, List.flatMap_cons]
  exact List.perm_append_comm_assoc ..

end PerfBuffers

/-! ## The gadget in the kernel and in the tracer -/

/-- The tracer, the buffers, the loop of the gadget, and whether the program is still attached
to the tracepoint and the buffers are open. -/
structure Pipeline where
  tracer : Tracer
  buffers : PerfBuffers
  detector : Detector
  attached : Bool

/-- The filter map of the gadget, which the program and the loop share with the tracer. -/
def filterOf (tracer : Tracer) : Option EbpfMap :=
  match tracer.tracingState .randomXEventType with
  | .gadget _ filter => some filter
  | _ => none

/-- The loop puts a 0 for a namespace that it has reported. -/
def putZeros (tracer : Tracer) (mntnsIds : List UInt64) : Tracer :=
  match tracer.tracingState .randomXEventType with
  | .gadget count filter => { tracer with
      tracingState := Function.update tracer.tracingState .randomXEventType
        (.gadget count (mntnsIds.foldl (fun filter mntnsId => filter.put mntnsId 0) filter)) }
  | _ => tracer

/-- A call of the tracer, a hit of the tracepoint, a read of the loop, or the end of the gadget.
The environment decides whether a sample fits into its buffer, which buffer is read next, and
whether the puts of the loop succeed. -/
inductive Label
  | trace (call : TraceCall)
  | deactivated (cpu : Nat) (hit : Deactivation) (fits : Bool)
  | read (cpu : Nat) (putFails : Bool)
  | readFails (err : String)
  | close

variable (convert : Conversions)

/-- Nobody sets `targ_uid`, and the program filters because the gadget was given a map. -/
def Pipeline.step (pipeline : Pipeline) : Label → Option Pipeline
  | .trace call => some { pipeline with tracer := call.on pipeline.tracer }
  | .deactivated cpu hit fits =>
      let emitted := if pipeline.attached then
        (filterOf pipeline.tracer).bind fun filter =>
          x86FpuRegsDeactivated invalidUid true filter hit
      else none
      match emitted with
      | none => some pipeline
      | some sample =>
          some { pipeline with buffers := pipeline.buffers.output cpu fits sample }
  | .read cpu putFails =>
      if pipeline.attached then
        (pipeline.buffers.next cpu).bind fun record =>
          (pipeline.detector.step convert (.record record)).map fun detector =>
            let puts := detector.filterPuts.drop pipeline.detector.filterPuts.length
            { pipeline with
              tracer := if putFails then pipeline.tracer else putZeros pipeline.tracer puts
              buffers := pipeline.buffers.drop cpu
              detector := detector }
      else (pipeline.detector.step convert .closed).map fun detector =>
        { pipeline with detector := detector }
  | .readFails err => (pipeline.detector.step convert (.failed err)).map fun detector =>
      { pipeline with detector := detector }
  | .close => some { pipeline with attached := false }

/-- The gadget has just been started, with a tracer that was. -/
def Pipeline.started (maxContainersPerNode : Nat) : Pipeline :=
  ⟨.started maxContainersPerNode, .empty, .started, true⟩

def pipelineMachine : Machine Pipeline Label where
  init pipeline := ∃ maxContainersPerNode, pipeline = .started maxContainersPerNode
  step := Pipeline.step convert

/-! ## What one step can do -/

variable {convert}

/-- The loop puts the namespaces of samples that it has just read. -/
theorem filterPuts_step {detector next : Detector} {reading : Reading}
    (hstep : detector.step convert reading = some next) : ∃ mntnsIds,
      next.filterPuts = detector.filterPuts ++ mntnsIds ∧
        ∀ mntnsId ∈ mntnsIds, reading.samplesOf mntnsId ≠ [] := by
  have hcheck : ∀ (counted : Detector) (sample : RandomxEvent),
      counted.filterPuts = detector.filterPuts → sample ∈ reading.samples → ∃ mntnsIds,
        (counted.check convert sample).filterPuts = detector.filterPuts ++ mntnsIds ∧
          ∀ mntnsId ∈ mntnsIds, reading.samplesOf mntnsId ≠ [] := by
    intro counted sample hcounted hsample
    simp only [Detector.check]
    split
    next =>
      refine ⟨[sample.mntnsId], by rw [← hcounted], fun mntnsId hmntnsId => ?_⟩
      rw [List.mem_singleton.mp hmntnsId]
      exact List.ne_nil_of_mem (Reading.mem_samplesOf.mpr ⟨hsample, rfl⟩)
    next => exact ⟨[], by rw [hcounted, List.append_nil], fun _ hnone => by cases hnone⟩
  cases Detector.step_cases hstep with
  | sample record sample hlost hsample =>
      have hmem : sample ∈ Reading.samples (.record record) := by
        rw [Reading.samples, if_neg hlost, hsample]
        exact List.mem_singleton_self sample
      unfold Detector.observe
      split
      · exact hcheck _ sample rfl hmem
      · split_ifs
        · exact hcheck _ sample rfl hmem
        · exact hcheck _ sample rfl hmem
        · exact ⟨[], (List.append_nil _).symm, fun _ hnone => by cases hnone⟩
  | _ => exact ⟨[], (List.append_nil _).symm, fun _ hnone => by cases hnone⟩

inductive PipelineChange (convert : Conversions) (pipeline : Pipeline) : Label → Pipeline → Prop
  | trace {call : TraceCall} : PipelineChange convert pipeline (.trace call)
      { pipeline with tracer := call.on pipeline.tracer }
  | silent {cpu : Nat} {hit : Deactivation} {fits : Bool} :
      PipelineChange convert pipeline (.deactivated cpu hit fits) pipeline
  | emitted {cpu : Nat} {hit : Deactivation} {fits : Bool} {filter : EbpfMap}
      {sample : RandomxEvent} (hfilter : filterOf pipeline.tracer = some filter)
      (hemits : x86FpuRegsDeactivated invalidUid true filter hit = some sample) :
      PipelineChange convert pipeline (.deactivated cpu hit fits)
        { pipeline with buffers := pipeline.buffers.output cpu fits sample }
  | read {cpu : Nat} {putFails : Bool} {record : Record} {detector : Detector} {tracer : Tracer}
      {mntnsIds : List UInt64} (hnext : pipeline.buffers.next cpu = some record)
      (hstep : pipeline.detector.step convert (.record record) = some detector)
      (hputs : ∀ mntnsId ∈ mntnsIds, Reading.samplesOf mntnsId (.record record) ≠ [])
      (htracer : tracer = pipeline.tracer ∨ tracer = putZeros pipeline.tracer mntnsIds) :
      PipelineChange convert pipeline (.read cpu putFails)
        { pipeline with
          tracer := tracer, buffers := pipeline.buffers.drop cpu, detector := detector }
  | closed {cpu : Nat} {putFails : Bool} {detector : Detector}
      (hstep : pipeline.detector.step convert .closed = some detector) :
      PipelineChange convert pipeline (.read cpu putFails) { pipeline with detector := detector }
  | failed {err : String} {detector : Detector}
      (hstep : pipeline.detector.step convert (.failed err) = some detector) :
      PipelineChange convert pipeline (.readFails err) { pipeline with detector := detector }
  | close : PipelineChange convert pipeline .close { pipeline with attached := false }

theorem Pipeline.step_change {pipeline next : Pipeline} {label : Label}
    (hstep : pipeline.step convert label = some next) :
    PipelineChange convert pipeline label next := by
  cases label with
  | trace call =>
      cases hstep
      exact .trace
  | deactivated cpu hit fits =>
      simp only [Pipeline.step] at hstep
      split at hstep
      next =>
        cases hstep
        exact .silent
      next sample hemitted =>
        cases hstep
        split at hemitted
        next =>
          obtain ⟨filter, hfilter, hemits⟩ := Option.bind_eq_some_iff.mp hemitted
          exact .emitted hfilter hemits
        next => cases hemitted
  | read cpu putFails =>
      simp only [Pipeline.step] at hstep
      split at hstep
      next =>
        obtain ⟨record, hnext, hread⟩ := Option.bind_eq_some_iff.mp hstep
        obtain ⟨detector, hdetector, rfl⟩ := Option.map_eq_some_iff.mp hread
        obtain ⟨mntnsIds, hputs, hsamples⟩ := filterPuts_step hdetector
        refine .read hnext hdetector hsamples ?_
        rw [hputs, List.drop_left]
        split
        · exact Or.inl rfl
        · exact Or.inr rfl
      next =>
        obtain ⟨detector, hdetector, rfl⟩ := Option.map_eq_some_iff.mp hstep
        exact .closed hdetector
  | readFails err =>
      obtain ⟨detector, hdetector, rfl⟩ := Option.map_eq_some_iff.mp hstep
      exact .failed hdetector
  | close =>
      cases hstep
      exact .close

/-! ## One namespace -/

/-- How many samples of a namespace its count stands for. -/
def Outcome.counted (outcome : Outcome) : Nat :=
  (outcome.cache.map fun cache => cache.eventsCount.toNat).getD 0

variable (convert) in
/-- A sample counts once, and a namespace is reported when enough were counted. -/
theorem Outcome.observe_counted (outcome : Outcome) (sample : RandomxEvent) :
    (outcome.observe convert sample).counted ≤ outcome.counted + 1 ∧
      ((outcome.observe convert sample).alerts = outcome.alerts ∨
        (outcome.observe convert sample).alerts = outcome.alerts ++ [sample.event convert] ∧
          targetRandomxEventsCount.toNat < (outcome.observe convert sample).counted) := by
  have hone : (1 : UInt64).toNat = 1 := rfl
  obtain ⟨cache, alerts⟩ := outcome
  cases cache with
  | none => exact ⟨Nat.le_refl 1, Or.inl rfl⟩
  | some cache =>
      have hsucc : (cache.eventsCount + 1).toNat ≤ cache.eventsCount.toNat + 1 := by
        rw [UInt64.toNat_add, hone]
        exact Nat.mod_le _ _
      simp only [Outcome.observe]
      split_ifs with halerted htooLong henough
      · exact ⟨Nat.le_succ _, Or.inl rfl⟩
      · exact ⟨Nat.le_add_left 1 _, Or.inl rfl⟩
      · exact ⟨hsucc, Or.inr ⟨rfl, UInt64.lt_iff_toNat_lt.mp henough⟩⟩
      · exact ⟨hsucc, Or.inl rfl⟩

/-- A namespace was reported once if it is marked so, and otherwise not at all. -/
def Outcome.ReportedOnce (outcome : Outcome) : Prop :=
  outcome.alerts.length ≤ 1 ∧
    ((∀ cache ∈ outcome.cache, cache.alerted = false) → outcome.alerts = [])

theorem Outcome.ReportedOnce.observe {outcome : Outcome} (honce : outcome.ReportedOnce)
    (sample : RandomxEvent) : (outcome.observe convert sample).ReportedOnce := by
  obtain ⟨cache, alerts⟩ := outcome
  cases cache with
  | none =>
      obtain rfl : alerts = [] := honce.2 fun _ hnone => by cases hnone
      exact ⟨Nat.zero_le 1, fun _ => rfl⟩
  | some cache =>
      simp only [Outcome.observe]
      split_ifs with halerted htooLong henough
      · exact honce
      all_goals
        obtain rfl : alerts = [] := honce.2 fun other hother => by
          rw [← Option.some.inj hother]
          exact Bool.eq_false_iff.mpr halerted
      · exact ⟨Nat.zero_le 1, fun _ => rfl⟩
      · exact ⟨Nat.le_refl 1, fun hnone => by cases hnone _ rfl⟩
      · exact ⟨Nat.zero_le 1, fun _ => rfl⟩

/-- The samples of a namespace in a list. -/
def countOf (mntnsId : UInt64) (samples : List RandomxEvent) : Nat :=
  samples.countP fun sample => sample.mntnsId = mntnsId

/-- The step is a hit in the namespace. -/
def Label.roundsIn (mntnsId : UInt64) : Label → Bool
  | .deactivated _ hit _ => hit.roundsIn mntnsId
  | _ => false

/-- One of the steps took the sample. -/
def TakenIn (labels : List Label) (sample : RandomxEvent) : Prop :=
  ∃ cpu hit fits, Label.deactivated cpu hit fits ∈ labels ∧
    hit.roundsIn sample.mntnsId = true ∧ ∃ task ∈ hit.currentTask, sample = hit.sample task

/-- What waits and what is counted of the namespace, and what was reported of it, is accounted
for by the hits of these steps. -/
structure Accounts (convert : Conversions) (labels : List Label) (mntnsId : UInt64)
    (buffers : PerfBuffers) (outcome : Outcome) : Prop where
  counted : countOf mntnsId buffers.samples + outcome.counted ≤
    labels.countP (Label.roundsIn mntnsId)
  taken : ∀ sample ∈ buffers.samples, sample.mntnsId = mntnsId → TakenIn labels sample
  alerted : ∀ event ∈ outcome.alerts,
    targetRandomxEventsCount.toNat < labels.countP (Label.roundsIn mntnsId) ∧
      ∃ sample, TakenIn labels sample ∧ sample.mntnsId = mntnsId ∧ event = sample.event convert

namespace Accounts

variable {labels : List Label} {mntnsId : UInt64} {buffers : PerfBuffers} {outcome : Outcome}

theorem concat (haccounts : Accounts convert labels mntnsId buffers outcome) (label : Label) :
    Accounts convert (labels ++ [label]) mntnsId buffers outcome := by
  have hmore : labels.countP (Label.roundsIn mntnsId) ≤
      (labels ++ [label]).countP (Label.roundsIn mntnsId) := by
    rw [List.countP_append]
    exact Nat.le_add_right _ _
  have htaken : ∀ sample, TakenIn labels sample → TakenIn (labels ++ [label]) sample := by
    rintro sample ⟨cpu, hit, fits, hmem, hhit⟩
    exact ⟨cpu, hit, fits, List.mem_append_left _ hmem, hhit⟩
  refine ⟨haccounts.counted.trans hmore, ?_, ?_⟩
  · exact fun sample hsample hown => htaken sample (haccounts.taken sample hsample hown)
  · intro event hevent
    obtain ⟨hmany, sample, hsample, hown, heq⟩ := haccounts.alerted event hevent
    exact ⟨hmany.trans_le hmore, sample, htaken sample hsample, hown, heq⟩

/-- A hit accounts for the sample that it adds. -/
theorem output {cpu : Nat} {hit : Deactivation} {fits : Bool} {sample : RandomxEvent}
    (haccounts : Accounts convert labels mntnsId buffers outcome)
    (hrounds : hit.roundsIn sample.mntnsId = true)
    (htask : ∃ task ∈ hit.currentTask, sample = hit.sample task) :
    Accounts convert (labels ++ [.deactivated cpu hit fits]) mntnsId
      (buffers.output cpu fits sample) outcome := by
  have hlater := haccounts.concat (.deactivated cpu hit fits)
  have htaken : TakenIn (labels ++ [.deactivated cpu hit fits]) sample :=
    ⟨cpu, hit, fits, List.mem_append_right _ List.mem_cons_self, hrounds, htask⟩
  cases fits with
  | false => exact ⟨hlater.counted, hlater.taken, hlater.alerted⟩
  | true =>
      have hsamples : (buffers.output cpu true sample).samples = buffers.samples ++ [sample] :=
        buffers.samples_output cpu true sample
      refine ⟨?_, ?_, hlater.alerted⟩
      · have hcounted := haccounts.counted
        rw [hsamples, countOf, List.countP_append, List.countP_append, List.countP_singleton,
          List.countP_singleton, ← countOf]
        by_cases hown : sample.mntnsId = mntnsId
        · have hlabel : Label.roundsIn mntnsId (.deactivated cpu hit true) = true := by
            rw [← hown]
            exact hrounds
          rw [if_pos hlabel, if_pos (decide_eq_true hown)]
          omega
        · rw [if_neg (by simpa using hown)]
          omega
      · intro other hother hown
        rw [hsamples] at hother
        rcases List.mem_append.mp hother with hold | hnew
        · exact hlater.taken other hold hown
        · rw [List.mem_singleton.mp hnew]
          exact htaken

/-- A read moves the samples of its record from the buffers to the count. -/
theorem read {cpu : Nat} {record : Record}
    (haccounts : Accounts convert labels mntnsId buffers outcome)
    (hnext : buffers.next cpu = some record) :
    Accounts convert labels mntnsId (buffers.drop cpu)
      ((Reading.samplesOf mntnsId (.record record)).foldl (Outcome.observe convert) outcome) := by
  have hperm := PerfBuffers.samples_next hnext
  have hcount : countOf mntnsId buffers.samples =
      (Reading.samplesOf mntnsId (.record record)).length +
        countOf mntnsId (buffers.drop cpu).samples := by
    rw [countOf, hperm.countP_eq, List.countP_append, Reading.samplesOf,
      List.countP_eq_length_filter, ← countOf]
  have hcounted := haccounts.counted
  have htaken : ∀ sample ∈ (buffers.drop cpu).samples, sample.mntnsId = mntnsId →
      TakenIn labels sample :=
    fun sample hsample => haccounts.taken sample
      (hperm.mem_iff.mpr (List.mem_append_right _ hsample))
  -- The record holds no sample of the namespace, or exactly one.
  rcases Reading.samplesOf_cases (.record record) mntnsId with hnone | ⟨sample, hsingle⟩
  · rw [hnone] at hcount ⊢
    exact ⟨by simpa [hcount] using hcounted, htaken, haccounts.alerted⟩
  · have hmem : sample ∈ Reading.samplesOf mntnsId (.record record) := by
      rw [hsingle]
      exact List.mem_singleton_self sample
    obtain ⟨hread, hown⟩ := Reading.mem_samplesOf.mp hmem
    have hsample := haccounts.taken sample
      (hperm.mem_iff.mpr (List.mem_append_left _ hread)) hown
    obtain ⟨hobserved, halerts⟩ := outcome.observe_counted convert sample
    rw [hsingle, List.length_singleton] at hcount
    rw [hsingle, List.foldl_cons, List.foldl_nil]
    have hmoved : countOf mntnsId (buffers.drop cpu).samples +
        (outcome.observe convert sample).counted ≤
          labels.countP (Label.roundsIn mntnsId) := by
      omega
    refine ⟨hmoved, htaken, fun event hevent => ?_⟩
    rcases halerts with hsame | ⟨hadded, hmany⟩
    · rw [hsame] at hevent
      exact haccounts.alerted event hevent
    · rw [hadded] at hevent
      rcases List.mem_append.mp hevent with hold | hnew
      · exact haccounts.alerted event hold
      · exact ⟨by omega, sample, hsample, hown, List.mem_singleton.mp hnew⟩

end Accounts

/-! ## What is not traced -/

/-- The randomx gadget neither counts a reference to the namespace nor lets its events pass. -/
def Untraced (tracer : Tracer) (mntnsId : UInt64) : Prop :=
  ∀ count filter, tracer.tracingState .randomXEventType = .gadget count filter →
    count mntnsId = 0 ∧ mntnsId ∉ filter.entries

theorem mem_of_mem_put {filter : EbpfMap} {mntnsId other : UInt64} {value : UInt32}
    (hmem : mntnsId ∈ (filter.put other value).entries) :
    mntnsId = other ∨ mntnsId ∈ filter.entries := by
  unfold EbpfMap.put at hmem
  split at hmem
  next => exact Finmap.mem_insert.mp hmem
  next => exact Or.inr hmem

theorem randomx_traced {called : EventType} (hmem : .randomXEventType ∈ called.traced) :
    called = .randomXEventType := by
  cases called <;> first | rfl | simp [EventType.traced] at hmem

/-- Only a start for the randomx gadget itself opens its filter. -/
theorem Untraced.on {tracer : Tracer} {mntnsId : UInt64} (huntraced : Untraced tracer mntnsId)
    (hsetUp : tracer.SetUp) (call : TraceCall) :
    Untraced (call.on tracer) mntnsId ∨
      ∃ pid, call = .startTraceContainer mntnsId pid .randomXEventType := by
  cases call with
  | startTraceContainer started pid called =>
      by_cases htraced : .randomXEventType ∈ called.traced
      · by_cases hsame : started = mntnsId
        · exact Or.inr ⟨pid, by rw [hsame, randomx_traced htraced]⟩
        · refine Or.inl fun count filter hstate => ?_
          rw [TraceCall.on, hsetUp.start_tracingState, if_pos htraced] at hstate
          cases hbefore : tracer.tracingState .randomXEventType with
          | gadget count' filter' =>
              obtain ⟨hcount, hfilter⟩ := huntraced count' filter' hbefore
              rw [hbefore] at hstate
              obtain ⟨rfl, rfl⟩ := TracingState.gadget.inj hstate
              refine ⟨by rw [Function.update_of_ne (Ne.symm hsame)]; exact hcount, fun hmem => ?_⟩
              rcases mem_of_mem_put hmem with heq | hold
              · exact hsame heq.symm
              · exact hfilter hold
          | _ =>
              rw [hbefore] at hstate
              cases hstate
      · refine Or.inl fun count filter hstate => huntraced count filter ?_
        rwa [TraceCall.on, hsetUp.start_tracingState, if_neg htraced] at hstate
  | stopTraceContainer stopped pid called =>
      refine Or.inl fun count filter hstate => ?_
      rw [TraceCall.on, hsetUp.stop_tracingState] at hstate
      split at hstate
      next =>
        cases hbefore : tracer.tracingState .randomXEventType with
        | gadget count' filter' =>
            obtain ⟨hcount, hfilter⟩ := huntraced count' filter' hbefore
            rw [hbefore] at hstate
            -- A stop that puts a 0 is one of a namespace with a reference.
            by_cases hzero : count' stopped = 0
            · simp only [TracingState.stop, if_pos hzero] at hstate
              obtain ⟨rfl, rfl⟩ := TracingState.gadget.inj hstate
              exact ⟨hcount, hfilter⟩
            · have hne : mntnsId ≠ stopped := fun heq => hzero (heq ▸ hcount)
              simp only [TracingState.stop, if_neg hzero] at hstate
              obtain ⟨rfl, rfl⟩ := TracingState.gadget.inj hstate
              refine ⟨by rw [Function.update_of_ne hne]; exact hcount, fun hmem => ?_⟩
              split at hmem
              next =>
                rcases mem_of_mem_put hmem with heq | hold
                · exact hne heq
                · exact hfilter hold
              next => exact hfilter hmem
        | _ =>
            rw [hbefore] at hstate
            cases hstate
      next => exact huntraced count filter hstate

theorem Untraced.putZeros {tracer : Tracer} {mntnsId : UInt64}
    (huntraced : Untraced tracer mntnsId) {mntnsIds : List UInt64} (hnot : mntnsId ∉ mntnsIds) :
    Untraced (putZeros tracer mntnsIds) mntnsId := by
  intro count filter hstate
  unfold Randomx.putZeros at hstate
  split at hstate
  next count' filter' hbefore =>
    simp only [Function.update_self] at hstate
    obtain ⟨rfl, rfl⟩ := TracingState.gadget.inj hstate
    obtain ⟨hcount, hfilter⟩ := huntraced count' filter' hbefore
    refine ⟨hcount, ?_⟩
    clear hbefore hstate
    induction mntnsIds generalizing filter' with
    | nil => exact hfilter
    | cons head rest ih =>
        obtain ⟨hhead, hrest⟩ := not_or.mp (List.mem_cons.not.mp hnot)
        apply ih hrest
        intro hmem
        rcases mem_of_mem_put hmem with heq | hold
        · exact hhead heq
        · exact hfilter hold
  next => exact huntraced count filter hstate

theorem setUp_putZeros {tracer : Tracer} (hsetUp : tracer.SetUp) (mntnsIds : List UInt64) :
    (putZeros tracer mntnsIds).SetUp := by
  unfold putZeros
  split
  next =>
    refine ⟨hsetUp.running, fun eventType hmem => ?_⟩
    have hne : eventType ≠ .randomXEventType := by
      rintro rfl
      cases randomx_traced hmem
    simp only [Function.update_of_ne hne]
    exact hsetUp.tracable eventType hmem
  next => exact hsetUp

/-! ## Whole runs -/

/-- Nothing of the namespace ever came into the gadget. -/
structure Untouched (mntnsId : UInt64) (pipeline : Pipeline) : Prop where
  untraced : Untraced pipeline.tracer mntnsId
  waiting : ∀ sample ∈ pipeline.buffers.samples, sample.mntnsId ≠ mntnsId
  outcome : pipeline.detector.outcome mntnsId = ⟨none, []⟩

/-- The namespace was traced, and the steps since then account for all that the gadget has of
it. -/
def TracedAt (convert : Conversions) (labels : List Label) (mntnsId : UInt64)
    (pipeline : Pipeline) : Prop :=
  ∃ before pid after,
    labels = before ++ .trace (.startTraceContainer mntnsId pid .randomXEventType) :: after ∧
      Accounts convert after mntnsId pipeline.buffers (pipeline.detector.outcome mntnsId)

/-- Every namespace is untouched or accounted for, and was reported once at most. -/
structure AllAccounted (convert : Conversions) (labels : List Label) (pipeline : Pipeline) :
    Prop where
  setUp : pipeline.tracer.SetUp
  namespaces : ∀ mntnsId, Untouched mntnsId pipeline ∨ TracedAt convert labels mntnsId pipeline
  once : ∀ mntnsId, (pipeline.detector.outcome mntnsId).ReportedOnce

theorem TracedAt.concat {labels : List Label} {mntnsId : UInt64} {pipeline next : Pipeline}
    {label : Label} (htraced : TracedAt convert labels mntnsId pipeline)
    (hnext : ∀ after,
      Accounts convert after mntnsId pipeline.buffers (pipeline.detector.outcome mntnsId) →
      Accounts convert (after ++ [label]) mntnsId next.buffers (next.detector.outcome mntnsId)) :
    TracedAt convert (labels ++ [label]) mntnsId next := by
  obtain ⟨before, pid, after, rfl, haccounts⟩ := htraced
  refine ⟨before, pid, after ++ [label], ?_, hnext after haccounts⟩
  rw [List.append_assoc, List.cons_append]

theorem outcome_of_no_sample {detector next : Detector} {reading : Reading}
    (hstep : detector.step convert reading = some next) (hnone : reading.samples = [])
    (mntnsId : UInt64) : next.outcome mntnsId = detector.outcome mntnsId := by
  rw [outcome_step hstep, Reading.samplesOf, hnone]
  rfl

section Step

variable {labels : List Label} {pipeline next : Pipeline} {label : Label}

/-- A step that leaves the buffers and the counts alone. -/
theorem AllAccounted.same (hall : AllAccounted convert labels pipeline)
    (hsetUp : next.tracer.SetUp)
    (huntraced : ∀ mntnsId, Untraced pipeline.tracer mntnsId → Untraced next.tracer mntnsId)
    (hbuffers : next.buffers = pipeline.buffers)
    (houtcome : ∀ mntnsId, next.detector.outcome mntnsId = pipeline.detector.outcome mntnsId) :
    AllAccounted convert (labels ++ [label]) next := by
  refine ⟨hsetUp, fun mntnsId => ?_, fun mntnsId => houtcome mntnsId ▸ hall.once mntnsId⟩
  rcases hall.namespaces mntnsId with huntouched | htraced
  · refine Or.inl ⟨huntraced mntnsId huntouched.untraced, ?_, ?_⟩
    · rw [hbuffers]
      exact huntouched.waiting
    · rw [houtcome]
      exact huntouched.outcome
  · refine Or.inr (htraced.concat fun after haccounts => ?_)
    rw [hbuffers, houtcome]
    exact haccounts.concat label

theorem AllAccounted.step (hall : AllAccounted convert labels pipeline)
    (hstep : pipeline.step convert label = some next) :
    AllAccounted convert (labels ++ [label]) next := by
  cases Pipeline.step_change hstep with
  | @trace call =>
      refine ⟨hall.setUp.on call, fun mntnsId => ?_, hall.once⟩
      rcases hall.namespaces mntnsId with ⟨huntraced, hwaiting, houtcome⟩ | htraced
      · rcases huntraced.on hall.setUp call with hstill | ⟨pid, rfl⟩
        · exact Or.inl ⟨hstill, hwaiting, houtcome⟩
        -- From here on the namespace is traced, with nothing counted so far.
        · refine Or.inr ⟨labels, pid, [], rfl, ?_, ?_, ?_⟩
          · have hnone : countOf mntnsId pipeline.buffers.samples = 0 :=
              List.countP_eq_zero.mpr fun sample hsample => by simpa using hwaiting sample hsample
            simp only [hnone, houtcome]
            exact Nat.le_refl 0
          · exact fun sample hsample hown => absurd hown (hwaiting sample hsample)
          · simp only [houtcome]
            exact fun event hevent => by cases hevent
      · exact Or.inr (htraced.concat fun after haccounts => haccounts.concat _)
  | silent => exact hall.same hall.setUp (fun _ huntraced => huntraced) rfl fun _ => rfl
  | @emitted cpu hit fits filter sample hfilter hemits =>
      obtain ⟨hmem, hrounds, htask⟩ := of_emitted hemits
      refine ⟨hall.setUp, fun mntnsId => ?_, hall.once⟩
      rcases hall.namespaces mntnsId with huntouched | htraced
      · -- The filter lets nothing pass of a namespace that is not traced.
        have hother : sample.mntnsId ≠ mntnsId := by
          rintro rfl
          unfold filterOf at hfilter
          split at hfilter
          next count filter' hstate =>
            obtain rfl := Option.some.inj hfilter
            exact (huntouched.untraced count filter' hstate).2 hmem
          next => cases hfilter
        refine Or.inl ⟨huntouched.untraced, ?_, huntouched.outcome⟩
        intro waiting hwaiting
        rw [PerfBuffers.samples_output] at hwaiting
        split at hwaiting
        · rcases List.mem_append.mp hwaiting with hold | hnew
          · exact huntouched.waiting waiting hold
          · rwa [List.mem_singleton.mp hnew]
        · exact huntouched.waiting waiting hwaiting
      · exact Or.inr (htraced.concat fun after haccounts => haccounts.output hrounds htask)
  | @read cpu putFails record detector tracer mntnsIds hnext hdetector hputs htracer =>
      refine ⟨?_, fun mntnsId => ?_, fun mntnsId => ?_⟩
      · rcases htracer with rfl | rfl
        · exact hall.setUp
        · exact setUp_putZeros hall.setUp mntnsIds
      · rcases hall.namespaces mntnsId with huntouched | htraced
        · have hperm := PerfBuffers.samples_next hnext
          have hnone : Reading.samplesOf mntnsId (.record record) = [] := by
            refine List.filter_eq_nil_iff.mpr fun sample hsample => ?_
            have hwaiting := huntouched.waiting sample
              (hperm.mem_iff.mpr (List.mem_append_left _ hsample))
            simpa using hwaiting
          refine Or.inl ⟨?_, ?_, ?_⟩
          · rcases htracer with rfl | rfl
            · exact huntouched.untraced
            · exact huntouched.untraced.putZeros fun hmem => hputs mntnsId hmem hnone
          · exact fun sample hsample => huntouched.waiting sample
              (hperm.mem_iff.mpr (List.mem_append_right _ hsample))
          · rw [outcome_step hdetector, hnone]
            exact huntouched.outcome
        · refine Or.inr (htraced.concat fun after haccounts => ?_)
          rw [outcome_step hdetector]
          exact (haccounts.read hnext).concat _
      · rw [outcome_step hdetector]
        rcases Reading.samplesOf_cases (.record record) mntnsId with hnone | ⟨sample, hsingle⟩
        · rw [hnone]
          exact hall.once mntnsId
        · rw [hsingle]
          exact (hall.once mntnsId).observe sample
  | closed hdetector =>
      exact hall.same hall.setUp (fun _ huntraced => huntraced) rfl
        (outcome_of_no_sample hdetector rfl)
  | failed hdetector =>
      exact hall.same hall.setUp (fun _ huntraced => huntraced) rfl
        (outcome_of_no_sample hdetector rfl)
  | close => exact hall.same hall.setUp (fun _ huntraced => huntraced) rfl fun _ => rfl

end Step

theorem allAccounted_started (maxContainersPerNode : Nat) :
    AllAccounted convert [] (.started maxContainersPerNode) := by
  have houtcome : ∀ mntnsId, Detector.started.outcome mntnsId = ⟨none, []⟩ := fun mntnsId => by
    simp [Detector.outcome, Detector.started, Detector.alertsFor]
  refine ⟨Tracer.setUp_started maxContainersPerNode, fun mntnsId => Or.inl ⟨?_, ?_, ?_⟩, ?_⟩
  · intro count filter hstate
    obtain ⟨rfl, rfl⟩ := TracingState.gadget.inj hstate
    exact ⟨rfl, Finmap.notMem_empty⟩
  · exact fun sample hsample => by cases hsample
  · exact houtcome mntnsId
  · intro mntnsId
    rw [Pipeline.started, houtcome]
    exact ⟨Nat.zero_le 1, fun _ => rfl⟩

theorem allAccounted_of_run {start last : Pipeline} {labels : List Label}
    (hinit : (pipelineMachine convert).init start)
    (hrun : (pipelineMachine convert).run start labels = some last) :
    AllAccounted convert labels last := by
  obtain ⟨maxContainersPerNode, rfl⟩ := hinit
  exact (pipelineMachine convert).run_history_invariant (AllAccounted convert)
    (allAccounted_started maxContainersPerNode)
    (fun _ _ _ _ _ hall hstep => hall.step hstep) hrun

/-- Why a namespace was reported: it was traced for the randomx gadget, after that its tasks
gave up the FPU in an unusual rounding mode more often than `targetRandomxEventsCount`, and one
of these hits is the event. -/
def Warranted (convert : Conversions) (labels : List Label) (mntnsId : UInt64) (event : Event) :
    Prop :=
  ∃ before pid after,
    labels = before ++ .trace (.startTraceContainer mntnsId pid .randomXEventType) :: after ∧
      targetRandomxEventsCount.toNat < after.countP (Label.roundsIn mntnsId) ∧
      ∃ sample, TakenIn after sample ∧ sample.mntnsId = mntnsId ∧ event = sample.event convert

/-- In every run, whatever the buffers lose and in whatever order the CPUs are read: the
callback is called once at most for a namespace, and a call is warranted. -/
theorem alerts_warranted {start last : Pipeline} {labels : List Label}
    (hinit : (pipelineMachine convert).init start)
    (hrun : (pipelineMachine convert).run start labels = some last) (mntnsId : UInt64) :
    (last.detector.alertsFor mntnsId).length ≤ 1 ∧
      ∀ event ∈ last.detector.alertsFor mntnsId, Warranted convert labels mntnsId event := by
  have hall := allAccounted_of_run hinit hrun
  refine ⟨(hall.once mntnsId).1, fun event hevent => ?_⟩
  rcases hall.namespaces mntnsId with huntouched | ⟨before, pid, after, hlabels, haccounts⟩
  · have hnone : last.detector.alertsFor mntnsId = [] :=
      congrArg Outcome.alerts huntouched.outcome
    rw [hnone] at hevent
    cases hevent
  · obtain ⟨hmany, htaken⟩ := haccounts.alerted event hevent
    exact ⟨before, pid, after, hlabels, hmany, htaken⟩

/-- A miner gives up the FPU once a second, rounding down. -/
def minerHit (second : Nat) : Deactivation where
  currentTask := some ⟨4026532201, 1⟩
  uidGid := 0
  pidTgid := 0x2a0000002a
  mxcsr := some 0x3f80
  bootNs := .ofNat (1000000000 * (second + 1))
  comm := (xmrigSample 0 0).comm

/-- The miner is traced. It runs on two CPUs, and the first sample of each is lost. -/
def minerRun : List Label :=
  .trace (.startTraceContainer 4026532201 7 .randomXEventType) ::
    .deactivated 0 (minerHit 0) false :: .deactivated 1 (minerHit 0) false ::
      (List.range 51).flatMap fun second =>
        [.deactivated (second % 2) (minerHit (second + 1)) true, .read (second % 2) true]

/-- The records of the lost samples were read first, so two samples are left. -/
def minerReads : List Label := [.read 1 true, .read 0 true]

theorem minerRun_warranted : ∃ last event,
    (pipelineMachine hostConversions).run (.started 1024) (minerRun ++ minerReads) = some last ∧
      last.detector.alertsFor 4026532201 = [event] ∧
      Warranted hostConversions (minerRun ++ minerReads) 4026532201 event := by
  let event := (xmrigSample 4026532201 52000000000).event hostConversions
  have hends : ((pipelineMachine hostConversions).run (.started 1024)
      (minerRun ++ minerReads)).any (fun last =>
        decide (last.detector.alertsFor 4026532201 = [event])) = true := by
    decide +kernel
  obtain ⟨last, hrun, hlast⟩ := (Option.any_eq_true _ _).mp hends
  have halerts := of_decide_eq_true hlast
  refine ⟨last, event, hrun, halerts, ?_⟩
  apply (alerts_warranted ⟨1024, rfl⟩ hrun 4026532201).2 event
  rw [halerts]
  exact List.mem_singleton_self event

end Kapprofiler.Tracing.Randomx
