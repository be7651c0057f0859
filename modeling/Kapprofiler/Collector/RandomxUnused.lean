import Kapprofiler.Collector.Steps
import Kapprofiler.Tracing.RandomxPipeline

/-! # The randomx gadget under the manager

The process of `main` starts the randomx gadget with the others, but its only user of the tracer
is the manager, which traces containers for `AllEventType`. That does not stand for the randomx
gadget, so its filter stays empty and it never reports anything.
-/

namespace Kapprofiler.Collector

open Foundation Tracing Tracing.Randomx

/-- The manager, and what the randomx gadget adds to the tracer. -/
structure MiningProcess where
  system : System
  buffers : PerfBuffers
  detector : Detector
  attached : Bool

namespace MiningProcess

def pipeline (process : MiningProcess) : Pipeline :=
  ⟨process.system.world.tracer, process.buffers, process.detector, process.attached⟩

def withPipeline (process : MiningProcess) (pipeline : Pipeline) : MiningProcess where
  system := { process.system with
    world := { process.system.world with tracer := pipeline.tracer } }
  buffers := pipeline.buffers
  detector := pipeline.detector
  attached := pipeline.attached

/-- A step of the manager, or one of the gadget that is no call of the tracer. -/
inductive Label
  | manager (label : Collector.Label)
  | deactivated (cpu : Nat) (hit : Deactivation) (fits : Bool)
  | read (cpu : Nat) (putFails : Bool)
  | readFails (err : String)
  | close

variable (config : CollectorManagerConfig) (convert : Conversions)

def step (process : MiningProcess) : Label → Option MiningProcess
  | .manager label => (Collector.step config process.system label).map fun system =>
      { process with system := system }
  | .deactivated cpu hit fits =>
      (process.pipeline.step convert (.deactivated cpu hit fits)).map process.withPipeline
  | .read cpu putFails =>
      (process.pipeline.step convert (.read cpu putFails)).map process.withPipeline
  | .readFails err => (process.pipeline.step convert (.readFails err)).map process.withPipeline
  | .close => (process.pipeline.step convert .close).map process.withPipeline

/-- The manager and the gadgets have just been started. -/
structure Initial (process : MiningProcess) : Prop where
  system : Collector.Initial process.system
  pipeline : ∃ maxContainersPerNode, process.pipeline = .started maxContainersPerNode

def machine : Machine MiningProcess Label where
  init := Initial
  step := step config convert

end MiningProcess

variable {config : CollectorManagerConfig} {convert : Conversions}

/-! ## The calls of the manager -/

/-- The call starts or stops the gadgets that `AllEventType` stands for. -/
def ForAll : TraceCall → Prop
  | .startTraceContainer _ _ eventType | .stopTraceContainer _ _ eventType =>
      eventType = .allEventType

/-- The manager makes at most one call of the tracer in a step, and for all types at once. -/
def TracesAll (before after : Tracer) : Prop :=
  after = before ∨ ∃ call, ForAll call ∧ after = TraceCall.on before call

theorem startStep_tracesAll {id : ContainerId} {attach : Bool} {answers : Answers}
    {world : World} {state : StartState} {next : StartState × World}
    (hstep : startStep config id attach answers world state = some next) :
    TracesAll world.tracer next.2.tracer := by
  cases startStep_change hstep with
  | trace => exact Or.inr ⟨.startTraceContainer id.nsMntId id.pid .allEventType, rfl, rfl⟩
  | _ => exact Or.inl rfl

theorem collectStep_tracesAll (id : ContainerId) (answers : Answers) (world : World)
    (state : PassState) :
    TracesAll world.tracer (collectStep config id answers world state).2.tracer := by
  have hchange := collectStep_change config id answers world state
  generalize (collectStep config id answers world state).2 = after at hchange ⊢
  cases hchange with
  | stopTrace => exact Or.inr ⟨.stopTraceContainer id.nsMntId id.pid .allEventType, rfl, rfl⟩
  | _ => exact Or.inl rfl

theorem containerStopped_tracesAll (world : World) (id : ContainerId) :
    TracesAll world.tracer (containerStopped world id).tracer := by
  unfold containerStopped
  split
  next =>
    obtain ⟨cache, heq⟩ := dropPodMounts_eq
      ((((world.markPodNotRecording id).stopTraceContainer id).removeFilter id).untrack id) id
    rw [heq]
    exact Or.inr ⟨.stopTraceContainer id.nsMntId id.pid .allEventType, rfl, rfl⟩
  next => exact Or.inl rfl

theorem step_tracesAll {system next : System} {label : Label}
    (hstep : step config system label = some next) :
    TracesAll system.world.tracer next.world.tracer := by
  rcases step_cases hstep with
    ⟨index, answers, call, after, _, _, hadvance, _⟩ | ⟨launched, hchange, _⟩
  · rcases Call.step_cases hadvance with
      ⟨id, attach, state, started, _, hstarted, _, hafter⟩ | ⟨id, state, _, _, _, hafter⟩ |
      ⟨nameSpace, podName, _, _, hafter⟩ | ⟨nameSpace, podName, _, _, hafter⟩
    · rw [hafter]
      exact startStep_tracesAll hstarted
    · rw [hafter]
      exact collectStep_tracesAll id answers system.world state
    · obtain ⟨profiles, heq⟩ := finalizeProfile_eq config answers system.world nameSpace podName
      rw [hafter, heq]
      exact Or.inl rfl
    · obtain ⟨profiles, heq⟩ := deleteProfile_eq config answers system.world nameSpace podName
      rw [hafter, heq]
      exact Or.inl rfl
  · generalize next.world = after at hchange ⊢
    cases hchange with
    | stopped id => exact containerStopped_tracesAll system.world id
    | _ => exact Or.inl rfl

/-! ## Whole runs -/

/-- The gadget is not used: its filter is empty, and nothing came through it. -/
structure Unused (pipeline : Pipeline) : Prop where
  setUp : pipeline.tracer.SetUp
  untraced : ∀ mntnsId, Untraced pipeline.tracer mntnsId
  buffers : pipeline.buffers.records = []
  called : ∀ event ∈ pipeline.detector.called, event.type ≠ .normal

theorem Unused.discards {pipeline : Pipeline} (hunused : Unused pipeline) {filter : EbpfMap}
    (hfilter : filterOf pipeline.tracer = some filter) (hit : Deactivation) :
    x86FpuRegsDeactivated invalidUid true filter hit = none := by
  cases hemits : x86FpuRegsDeactivated invalidUid true filter hit with
  | none => rfl
  | some sample =>
      unfold filterOf at hfilter
      split at hfilter
      next count filter' hstate =>
        obtain rfl := Option.some.inj hfilter
        exact absurd (of_emitted hemits).1 (hunused.untraced sample.mntnsId count filter' hstate).2
      next => cases hfilter

theorem Unused.tracesAll {pipeline : Pipeline} {tracer : Tracer} (hunused : Unused pipeline)
    (htraces : TracesAll pipeline.tracer tracer) :
    Unused { pipeline with tracer := tracer } := by
  rcases htraces with rfl | ⟨call, hall, rfl⟩
  · exact hunused
  · refine ⟨hunused.setUp.on call, fun mntnsId => ?_, hunused.buffers, hunused.called⟩
    rcases (hunused.untraced mntnsId).on hunused.setUp call with huntraced | ⟨pid, rfl⟩
    · exact huntraced
    · cases hall

/-- No step of the gadget itself is the first to use it. -/
theorem Unused.step {pipeline next : Pipeline} {label : Randomx.Label}
    (hunused : Unused pipeline) (htrace : ∀ call, label ≠ .trace call)
    (hstep : pipeline.step convert label = some next) : Unused next := by
  cases Pipeline.step_change hstep with
  | trace => exact absurd rfl (htrace _)
  | silent => exact hunused
  | emitted hfilter hemits =>
      rw [hunused.discards hfilter] at hemits
      cases hemits
  | read hnext =>
      rw [PerfBuffers.next, hunused.buffers] at hnext
      cases hnext
  | closed hdetector =>
      cases Detector.step_cases hdetector
      exact ⟨hunused.setUp, hunused.untraced, hunused.buffers, hunused.called⟩
  | failed hdetector =>
      cases Detector.step_cases hdetector
      refine ⟨hunused.setUp, hunused.untraced, hunused.buffers, fun event hevent => ?_⟩
      rcases List.mem_append.mp hevent with hold | hnew
      · exact hunused.called event hold
      · rw [List.mem_singleton.mp hnew]
        exact MessageType.noConfusion
  | close => exact ⟨hunused.setUp, hunused.untraced, hunused.buffers, hunused.called⟩

theorem MiningProcess.unused_step {process next : MiningProcess} {label : MiningProcess.Label}
    (hunused : Unused process.pipeline) (hstep : process.step config convert label = some next) :
    Unused next.pipeline := by
  have hgadget : ∀ own : Randomx.Label, (∀ call, own ≠ .trace call) →
      (process.pipeline.step convert own).map process.withPipeline = some next →
      Unused next.pipeline := by
    intro own hown hmap
    obtain ⟨pipeline, hpipeline, rfl⟩ := Option.map_eq_some_iff.mp hmap
    exact hunused.step hown hpipeline
  cases label with
  | manager label =>
      obtain ⟨system, hsystem, rfl⟩ := Option.map_eq_some_iff.mp hstep
      exact hunused.tracesAll (step_tracesAll hsystem)
  | deactivated cpu hit fits =>
      exact hgadget (.deactivated cpu hit fits) (fun _ => Randomx.Label.noConfusion) hstep
  | read cpu putFails =>
      exact hgadget (.read cpu putFails) (fun _ => Randomx.Label.noConfusion) hstep
  | readFails err => exact hgadget (.readFails err) (fun _ => Randomx.Label.noConfusion) hstep
  | close => exact hgadget .close (fun _ => Randomx.Label.noConfusion) hstep

theorem unused_started (maxContainersPerNode : Nat) : Unused (.started maxContainersPerNode) := by
  refine ⟨Tracer.setUp_started maxContainersPerNode, ?_, rfl, fun event hevent => by cases hevent⟩
  intro mntnsId count filter hstate
  obtain ⟨rfl, rfl⟩ := TracingState.gadget.inj hstate
  exact ⟨rfl, Finmap.notMem_empty⟩

/-- Whatever containers start and stop and however they use the FPU: under the manager the
kernel's program discards every hit, nothing is ever written to the perf buffers, and the
callback is not called for an event. -/
theorem randomx_never_reports {start last : MiningProcess} {labels : List MiningProcess.Label}
    (hinit : MiningProcess.Initial start)
    (hrun : (MiningProcess.machine config convert).run start labels = some last) :
    (∀ filter hit, filterOf last.system.world.tracer = some filter →
      x86FpuRegsDeactivated invalidUid true filter hit = none) ∧
      last.buffers.records = [] ∧ ∀ event ∈ last.detector.called, event.type ≠ .normal := by
  have hunused : Unused last.pipeline := by
    obtain ⟨maxContainersPerNode, hpipeline⟩ := hinit.pipeline
    have hstart : Unused start.pipeline := by
      rw [hpipeline]
      exact unused_started maxContainersPerNode
    have hpreserve : ∀ process label next, Unused process.pipeline →
        (MiningProcess.machine config convert).step process label = some next →
        Unused next.pipeline :=
      fun _ _ _ hunused hstep => MiningProcess.unused_step hunused hstep
    exact (MiningProcess.machine config convert).run_invariant hpreserve hstart hrun
  exact ⟨fun filter hit hfilter => hunused.discards hfilter hit, hunused.buffers, hunused.called⟩

def freshProcess : MiningProcess := ⟨freshSystem, .empty, .started, true⟩

/-- The container is started, and mines from then on. -/
def nginxMines : List MiningProcess.Label :=
  .manager (.containerStarted nginx false) :: List.replicate 7 (.manager (.advance 0 {})) ++
    (List.range 60).map fun second => .deactivated 0
      { minerHit second with currentTask := some ⟨nginx.nsMntId.toUInt32, 1⟩ } true

theorem nginxMines_unreported : ∃ last,
    (MiningProcess.machine mainConfig hostConversions).run freshProcess nginxMines = some last ∧
      (∀ filter hit, filterOf last.system.world.tracer = some filter →
        x86FpuRegsDeactivated invalidUid true filter hit = none) ∧
      last.buffers.records = [] ∧ ∀ event ∈ last.detector.called, event.type ≠ .normal := by
  have hends : ((MiningProcess.machine mainConfig hostConversions).run freshProcess
      nginxMines).isSome = true := by
    decide +kernel
  obtain ⟨last, hrun⟩ := Option.isSome_iff_exists.mp hends
  have hinit : MiningProcess.Initial freshProcess := ⟨initial_freshSystem, 1024, rfl⟩
  exact ⟨last, hrun, randomx_never_reports hinit hrun⟩

end Kapprofiler.Collector
