import Kapprofiler.Collector.Batching
import Kapprofiler.Collector.Capabilities
import Kapprofiler.Collector.Dns

/-! # Entries that are stored once

A merge filters the new entries by the stored ones and not by each other, so that a list
stays without duplicates because the batch was built without any. The exception are the
execs without a path name, which a batch keeps as often as they come.
-/

namespace Kapprofiler.Collector

open Tracing Foundation

variable {config : CollectorManagerConfig} {id : ContainerId}

/-! ## The keyed lists -/

/-- No list of the profile has two entries of one key. -/
structure Keyed (profile : ContainerProfile) : Prop where
  sysCalls : profile.sysCalls.Nodup
  dns : DistinctNames profile.dns
  syscalls : DistinctSyscalls profile.capabilities
  capabilities : ∀ call ∈ profile.capabilities, call.capabilities.Nodup
  incoming : profile.networkActivity.incoming.Nodup
  outgoing : profile.networkActivity.outgoing.Nodup

/-- An item that a list lacks can be appended to it. -/
theorem nodup_concat {names : List String} (hnames : names.Nodup) {name : String}
    (hnew : name ∉ names) : (names ++ [name]).Nodup := by
  apply List.nodup_append.mpr ⟨hnames, List.nodup_singleton _, ?_⟩
  rintro known hknown other hother rfl
  exact hnew (List.mem_singleton.mp hother ▸ hknown)

theorem nodup_addCapability {calls : List CapabilitiesCalls}
    (hcalls : ∀ call ∈ calls, call.capabilities.Nodup) (event : CapabilitiesEvent) :
    ∀ call ∈ addCapability calls event, call.capabilities.Nodup := by
  induction calls with
  | nil =>
      intro call hcall
      rw [addCapability, List.mem_singleton] at hcall
      rw [hcall]
      exact List.nodup_singleton _
  | cons first rest ih =>
      obtain ⟨hfirst, hrest⟩ := List.forall_mem_cons.mp hcalls
      unfold addCapability
      split
      · apply List.forall_mem_cons.mpr ⟨?_, hrest⟩
        split
        · exact hfirst
        next hnew => exact nodup_concat hfirst hnew
      · exact List.forall_mem_cons.mpr ⟨hfirst, ih hrest⟩

theorem nodup_foldl_addCapability (events : List CapabilitiesEvent) :
    ∀ calls : List CapabilitiesCalls, (∀ call ∈ calls, call.capabilities.Nodup) →
      ∀ call ∈ events.foldl addCapability calls, call.capabilities.Nodup := by
  induction events with
  | nil => exact fun _ hcalls => hcalls
  | cons event rest ih => exact fun calls hcalls => ih _ (nodup_addCapability hcalls event)

theorem nodup_mergeCapabilityNames {existing : List String} (hexisting : existing.Nodup)
    (new : List String) : (mergeCapabilityNames existing new).Nodup := by
  rcases mergeCapabilityNames_cases existing new with hsame | ⟨last, hnew, hadded⟩
  · rwa [hsame]
  · rw [hadded]
    exact nodup_concat hexisting hnew

theorem nodup_mergeCapability {calls : List CapabilitiesCalls}
    (hcalls : ∀ call ∈ calls, call.capabilities.Nodup) (capability : CapabilitiesCalls) :
    ∀ call ∈ mergeCapability capability calls, call.capabilities.Nodup := by
  induction calls with
  | nil => exact hcalls
  | cons first rest ih =>
      obtain ⟨hfirst, hrest⟩ := List.forall_mem_cons.mp hcalls
      unfold mergeCapability
      split
      · exact List.forall_mem_cons.mpr ⟨nodup_mergeCapabilityNames hfirst _, hrest⟩
      · exact List.forall_mem_cons.mpr ⟨hfirst, ih hrest⟩

theorem nodup_mergeCapabilities {existing new : List CapabilitiesCalls}
    (hexisting : ∀ call ∈ existing, call.capabilities.Nodup)
    (hnew : ∀ call ∈ new, call.capabilities.Nodup) :
    ∀ call ∈ mergeCapabilities existing new, call.capabilities.Nodup := by
  have hfold : ∀ merged : List CapabilitiesCalls × List CapabilitiesCalls,
      (∀ call ∈ merged.1, call.capabilities.Nodup) →
      (∀ call ∈ merged.2, call.capabilities.Nodup) →
      (∀ call ∈ (new.foldl placeCapability merged).1, call.capabilities.Nodup) ∧
        ∀ call ∈ (new.foldl placeCapability merged).2, call.capabilities.Nodup := by
    induction new with
    | nil => exact fun _ hknown happended => ⟨hknown, happended⟩
    | cons first rest ih =>
        intro merged hknown happended
        obtain ⟨hfirst, hrest⟩ := List.forall_mem_cons.mp hnew
        rw [List.foldl_cons, placeCapability]
        split
        · exact ih hrest _ (nodup_mergeCapability hknown first) happended
        · refine ih hrest (merged.1, merged.2 ++ [first]) hknown ?_
          exact List.forall_mem_append.mpr ⟨happended, List.forall_mem_singleton.mpr hfirst⟩
  obtain ⟨hmerged, happended⟩ := hfold (existing, []) hexisting nofun
  exact List.forall_mem_append.mpr ⟨hmerged, happended⟩

/-- A batch of distinct syscalls is built into a keyed profile. -/
theorem keyed_built {batch : Batch} (hpeek : batch.totalEvents.syscallEvents.Nodup)
    (container : String) : Keyed (batch.built config container) where
  sysCalls := hpeek
  dns := distinctNames_foldl _
  syscalls := (capabilities_built config batch container).1
  capabilities := nodup_foldl_addCapability _ [] nofun
  incoming := nodup_foldl_addConnection _ _
  outgoing := nodup_foldl_addConnection _ _

theorem Keyed.merge {existing new : ContainerProfile} (hexisting : Keyed existing)
    (hnew : Keyed new) (mounts : List String) :
    Keyed (mergeContainerProfile config mounts existing new) where
  sysCalls := by
    refine List.nodup_append.mpr ⟨hexisting.sysCalls, hnew.sysCalls.filter _, ?_⟩
    rintro syscall hsyscall other hother rfl
    exact of_decide_eq_true (List.mem_filter.mp hother).2 hsyscall
  dns := hexisting.dns.merge hnew.dns
  syscalls := (capabilities_merged hexisting.syscalls hnew.syscalls).1
  capabilities := nodup_mergeCapabilities hexisting.capabilities hnew.capabilities
  incoming := nodup_mergeConnections hexisting.incoming _
  outgoing := nodup_mergeConnections hexisting.outgoing _

/-- In every session whose peeks return distinct syscalls, the stored profile is keyed. -/
theorem stored_keyed {world : World} {passes : List Collection}
    (hsession : Session config id world passes)
    (hpeek : ∀ pass ∈ passes, pass.batch.totalEvents.syscallEvents.Nodup) :
    Keyed (world.stored config id) := by
  refine hsession.invariant (fun batches profile =>
    (∀ batch ∈ batches, batch.totalEvents.syscallEvents.Nodup) → Keyed profile) ?_ ?_ ?_ ?_
  · exact fun _ => ⟨List.nodup_nil, List.nodup_nil, List.nodup_nil, nofun, List.nodup_nil,
      List.nodup_nil⟩
  · exact fun batch hbatch => keyed_built (hbatch batch List.mem_cons_self) id.container
  · intro batches profile batch hprofile hbatches
    rw [List.forall_mem_append, List.forall_mem_singleton] at hbatches
    exact (hprofile hbatches.1).merge (keyed_built hbatches.2 id.container) batch.mounts
  · exact List.forall_mem_map.mpr hpeek

/-- Two passes that find one connection, the first of them twice, and peek one syscall that is
the same. -/
theorem nginx_keyed : ∃ world passes, Session mainConfig nginx world passes ∧
    passes.length = 2 ∧
    (world.stored mainConfig nginx).sysCalls = ["connect", "read", "write"] ∧
    Keyed (world.stored mainConfig nginx) := by
  have hfirst := (session_trackedWorld mainConfig).afterPass
    (trackedWorld.withEvents [] [httpsEvent, httpsEvent]) { peek := .ok ["connect", "read"] } rfl
    (Or.inl (by decide))
  generalize hworld : World.afterPass mainConfig { peek := .ok ["connect", "read"] }
    (trackedWorld.withEvents [] [httpsEvent, httpsEvent]) = world at hfirst
  have hsecond := hfirst.afterPass (world.withEvents [] [httpsEvent])
    { peek := .ok ["read", "write"] } rfl (Or.inr (by rw [← hworld]; decide))
  refine ⟨_, _, hsecond, rfl, by rw [← hworld]; decide, stored_keyed hsecond ?_⟩
  rw [List.nil_append, List.forall_mem_append, List.forall_mem_singleton,
    List.forall_mem_singleton]
  change ["connect", "read"].Nodup ∧ ["read", "write"].Nodup
  decide

/-! ## Execs -/

/-- The execs that a batch reports, one for each event. -/
def Batch.execs (batch : Batch) : List ExecCalls :=
  batch.totalEvents.execEvents.map ExecCalls.ofEvent

/-- How often an exec comes in the first batch that has it. -/
def firstCount : List Batch → ExecCalls → Nat
  | [], _ => 0
  | batch :: rest, exec =>
      if exec ∈ batch.execs then batch.execs.count exec else firstCount rest exec

theorem firstCount_concat (batches : List Batch) (batch : Batch) (exec : ExecCalls) :
    firstCount (batches ++ [batch]) exec =
      firstCount batches exec +
        if firstCount batches exec = 0 then batch.execs.count exec else 0 := by
  induction batches with
  | nil =>
      rw [List.nil_append, firstCount, firstCount, if_pos rfl, Nat.zero_add]
      split
      · rfl
      next hexec => exact (List.count_eq_zero.mpr hexec).symm
  | cons first rest ih =>
      rw [List.cons_append, firstCount, firstCount]
      split
      next hexec =>
        have hsome : first.execs.count exec ≠ 0 := List.count_eq_zero.not.mpr (not_not.mpr hexec)
        rw [if_neg hsome, Nat.add_zero]
      next => exact ih

/-- Equal entries of the list have no path. -/
def DistinctPaths (execs : List ExecCalls) : Prop :=
  execs.Pairwise fun first second => first.path ≠ "" → first ≠ second

theorem distinctPaths_built (events : List ExecveEvent) :
    DistinctPaths (events.foldl addExec []) := by
  refine pairwise_foldl_appendWhen ?_ List.Pairwise.nil
  intro kept event hadmits exec hexec hpath heq
  subst heq
  rw [Bool.or_eq_true, Bool.not_eq_true'] at hadmits
  rcases hadmits with hnew | hnameless
  · rw [Bool.eq_false_iff] at hnew
    exact hnew (execEventExists_iff.mpr hexec)
  · exact hpath (of_decide_eq_true hnameless)

/-- Every exec without a path is kept. -/
theorem count_built {exec : ExecCalls} (hexec : exec.path = "") (events : List ExecveEvent) :
    ∀ kept : List ExecCalls, (events.foldl addExec kept).count exec =
      kept.count exec + (events.map ExecCalls.ofEvent).count exec := by
  induction events with
  | nil => exact fun _ => rfl
  | cons event rest ih =>
      intro kept
      rw [List.foldl_cons, ih, List.map_cons, List.count_cons]
      by_cases hevent : ExecCalls.ofEvent event = exec
      · have hnameless : event.pathName = "" := by
          rw [← hexec, ← hevent]
          rfl
        have hadded : addExec kept event = kept ++ [exec] := by
          rw [← hevent]
          exact appendWhen_of_admits (by simp [hnameless])
        rw [hadded, List.count_append, List.count_singleton_self, hevent]
        simp
        omega
      · have hsame : (addExec kept event).count exec = kept.count exec := by
          unfold addExec appendWhen
          split
          · rw [List.count_append, List.count_singleton]
            simp [hevent]
          · rfl
        rw [hsame]
        simp [hevent]

theorem count_execs_built {exec : ExecCalls} (hexec : exec.path = "") (batch : Batch)
    (container : String) :
    (batch.built config container).execs.count exec = batch.execs.count exec :=
  (count_built hexec batch.totalEvents.execEvents []).trans (Nat.zero_add _)

/-- A merge adds the new entries that are not stored, as often as the batch has them. -/
theorem count_merged (existing new : List ExecCalls) (exec : ExecCalls) :
    (existing ++ new.filter fun exec => !execEventExists exec.toEvent existing).count exec =
      existing.count exec + if existing.count exec = 0 then new.count exec else 0 := by
  rw [List.count_append]
  congr 1
  by_cases hknown : exec ∈ existing
  · have hsome : existing.count exec ≠ 0 := List.count_eq_zero.not.mpr (not_not.mpr hknown)
    rw [if_neg hsome, List.count_eq_zero]
    intro hnew
    simp [execEventExists_toEvent.mpr hknown] at hnew
  · rw [if_pos (List.count_eq_zero.mpr hknown)]
    apply List.count_filter
    simpa using execEventExists_toEvent.not.mpr hknown

theorem DistinctPaths.merge {existing new : List ExecCalls} (hexisting : DistinctPaths existing)
    (hnew : DistinctPaths new) : DistinctPaths
      (existing ++ new.filter fun exec => !execEventExists exec.toEvent existing) := by
  refine List.pairwise_append.mpr ⟨hexisting, hnew.filter _, ?_⟩
  rintro exec hexec other hother _ rfl
  simp [execEventExists_toEvent.mpr hexec] at hother

/-- The execs of the batches as they are stored: no two equal entries have a path, and an
entry without one is stored as often as in the first batch that has it. -/
structure ExecsStored (batches : List Batch) (execs : List ExecCalls) : Prop where
  distinct : DistinctPaths execs
  nameless : ∀ exec, exec.path = "" → execs.count exec = firstCount batches exec

/-- In every session. -/
theorem stored_execs {world : World} {passes : List Collection}
    (hsession : Session config id world passes) :
    ExecsStored (passes.map (·.batch)) (world.stored config id).execs := by
  refine hsession.invariant (fun batches profile => ExecsStored batches profile.execs) ?_ ?_ ?_
  · exact ⟨List.Pairwise.nil, fun _ _ => rfl⟩
  · intro batch
    refine ⟨distinctPaths_built _, ?_⟩
    intro exec hexec
    have hcount := firstCount_concat [] batch exec
    rw [List.nil_append, firstCount, if_pos rfl, Nat.zero_add] at hcount
    rw [hcount, count_execs_built hexec]
  · intro batches profile batch hstored
    refine ⟨hstored.distinct.merge (distinctPaths_built _), ?_⟩
    intro exec hexec
    refine (count_merged profile.execs _ exec).trans ?_
    rw [firstCount_concat, hstored.nameless exec hexec, count_execs_built hexec]

/-- An exec event without a path name. -/
def namelessEvent : ExecveEvent :=
  { pathName := "", upperLayer := false, args := ["init"], env := [] }

/-- A first pass that finds two of them, and a second that finds a third and a shell. -/
theorem exists_nameless_session : ∃ world passes, Session mainConfig nginx world passes ∧
    passes.length = 2 ∧ (world.stored mainConfig nginx).execs =
      [ExecCalls.ofEvent namelessEvent, ExecCalls.ofEvent namelessEvent,
        ExecCalls.ofEvent shellEvent] := by
  have hfirst := (session_trackedWorld mainConfig).afterPass
    (trackedWorld.withEvents [namelessEvent, namelessEvent] []) {} rfl (Or.inl (by decide))
  generalize hworld : World.afterPass mainConfig {}
    (trackedWorld.withEvents [namelessEvent, namelessEvent] []) = world at hfirst
  have hsecond := hfirst.afterPass (world.withEvents [namelessEvent, shellEvent] []) {} rfl
    (Or.inr (by rw [← hworld]; decide))
  exact ⟨_, _, hsecond, rfl, by rw [← hworld]; decide⟩

/-- Execs without a path name are stored more than once. -/
theorem nameless_exec_stored_twice :
    ¬ ∀ (config : CollectorManagerConfig) (id : ContainerId) (world : World)
      (passes : List Collection), Session config id world passes →
      (world.stored config id).execs.Nodup := by
  intro hclaim
  obtain ⟨world, passes, hsession, -, hexecs⟩ := exists_nameless_session
  have hnodup := hclaim mainConfig nginx world passes hsession
  rw [hexecs] at hnodup
  exact absurd hnodup (by decide)

theorem nameless_execs_stored : ∃ world passes, Session mainConfig nginx world passes ∧
    passes.length = 2 ∧ (world.stored mainConfig nginx).execs.length = 3 ∧
    ExecsStored (passes.map (·.batch)) (world.stored mainConfig nginx).execs := by
  obtain ⟨world, passes, hsession, htwo, hexecs⟩ := exists_nameless_session
  exact ⟨world, passes, hsession, htwo, by rw [hexecs]; rfl, stored_execs hsession⟩

end Kapprofiler.Collector
