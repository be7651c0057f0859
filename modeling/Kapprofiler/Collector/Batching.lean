import Mathlib.Data.List.Dedup
import Kapprofiler.Collector.Sessions

/-! # Batching does not matter

The execs, the syscalls and the connections of a stored profile are those of the
events, as sets, however the events were split into passes. For connections this
needs the limit on their number not to be reached.
-/

namespace Kapprofiler.Collector

open Tracing Foundation

variable {config : CollectorManagerConfig} {id : ContainerId}

/-! ## Execs -/

theorem execEventExists_iff {event : ExecveEvent} {execs : List ExecCalls} :
    execEventExists event execs = true ↔ ExecCalls.ofEvent event ∈ execs := by
  simp only [execEventExists, List.any_eq_true, decide_eq_true_eq]
  constructor
  · rintro ⟨call, hcall, hpath, hargs, henvs, hlayer⟩
    have heq : ExecCalls.ofEvent event = call := by
      cases call
      simp_all [ExecCalls.ofEvent]
    exact heq ▸ hcall
  · exact fun hexec => ⟨_, hexec, rfl, rfl, rfl, rfl⟩

theorem execEventExists_toEvent {exec : ExecCalls} {execs : List ExecCalls} :
    execEventExists exec.toEvent execs = true ↔ exec ∈ execs :=
  @execEventExists_iff exec.toEvent execs

theorem mem_foldl_addExec {events : List ExecveEvent} {exec : ExecCalls} :
    exec ∈ events.foldl addExec [] ↔ exec ∈ events.map ExecCalls.ofEvent := by
  constructor
  · intro hexec
    rcases mem_foldl_appendWhen hexec with hexec | ⟨event, hevent, rfl⟩
    · cases hexec
    · exact List.mem_map_of_mem hevent
  · intro hexec
    obtain ⟨event, hevent, rfl⟩ := List.mem_map.mp hexec
    refine (foldl_appendWhen_accounts
      (fun execs (event : ExecveEvent) => ExecCalls.ofEvent event ∈ execs) ?_ ?_ ?_).2
      event hevent
    · exact fun _ _ _ h => List.mem_append_left _ h
    · exact fun _ _ => List.mem_append_right _ List.mem_cons_self
    · intro kept event hrejects
      rw [Bool.or_eq_false_iff, Bool.not_eq_false'] at hrejects
      exact execEventExists_iff.mp hrejects.1

theorem mem_mergedExecs {existing new : List ExecCalls} {exec : ExecCalls} :
    exec ∈ existing ++ new.filter (fun exec => !execEventExists exec.toEvent existing) ↔
      exec ∈ existing ∨ exec ∈ new := by
  have hknown : execEventExists exec.toEvent existing = true ↔ exec ∈ existing :=
    execEventExists_toEvent
  rw [List.mem_append, List.mem_filter]
  by_cases hexec : exec ∈ existing
  · simp [hexec]
  · simp [hexec, Bool.eq_false_iff.mpr (hknown.not.mpr hexec)]

/-! ## Connections -/

/-- The connections of the events of one direction. -/
def connections (packetType : String) (events : List NetworkEvent) : List NetworkCalls :=
  (events.filter fun event => event.packetType = packetType).map NetworkCalls.ofEvent

theorem networkEventExists_iff {event : NetworkEvent} {calls : List NetworkCalls} :
    networkEventExists event calls = true ↔ NetworkCalls.ofEvent event ∈ calls := by
  simp only [networkEventExists, List.any_eq_true, decide_eq_true_eq]
  constructor
  · rintro ⟨call, hcall, hendpoint, hport, hprotocol⟩
    have heq : NetworkCalls.ofEvent event = call := by
      cases call
      simp_all [NetworkCalls.ofEvent]
    exact heq ▸ hcall
  · exact fun hcall => ⟨_, hcall, rfl, rfl, rfl⟩

theorem networkEventExists_toEvent {call : NetworkCalls} {calls : List NetworkCalls} :
    networkEventExists call.toEvent calls = true ↔ call ∈ calls :=
  @networkEventExists_iff call.toEvent calls

theorem nodup_foldl_addConnection (packetType : String) (events : List NetworkEvent) :
    (events.foldl (addConnection packetType) []).Nodup := by
  refine pairwise_foldl_appendWhen ?_ List.Pairwise.nil
  intro kept event hadmits call hcall heq
  have hexists : networkEventExists event kept = true := networkEventExists_iff.mpr (heq ▸ hcall)
  simp [hexists] at hadmits

theorem mem_foldl_addConnection {packetType : String} {events : List NetworkEvent}
    {call : NetworkCalls} :
    call ∈ events.foldl (addConnection packetType) [] ↔ call ∈ connections packetType events := by
  -- Generalised over what is kept, as the loop appends to it.
  have hsound : ∀ (events : List NetworkEvent) (kept : List NetworkCalls),
      call ∈ events.foldl (addConnection packetType) kept →
        call ∈ kept ∨ call ∈ connections packetType events := by
    intro events
    induction events with
    | nil => exact fun _ h => Or.inl h
    | cons event rest ih =>
        intro kept hcall
        have hrest : call ∈ connections packetType rest →
            call ∈ connections packetType (event :: rest) := by
          intro h
          exact List.map_subset _ (List.filter_subset _ (List.subset_cons_self _ _)) h
        rcases ih _ hcall with hkept | hlater
        · unfold addConnection appendWhen at hkept
          split at hkept
          next hadmits =>
            rw [Bool.and_eq_true, decide_eq_true_eq] at hadmits
            rcases List.mem_append.mp hkept with hkept | hnew
            · exact Or.inl hkept
            · rw [List.mem_singleton.mp hnew]
              right
              exact List.mem_map_of_mem
                (List.mem_filter.mpr ⟨List.mem_cons_self, by simpa using hadmits.1⟩)
          next => exact Or.inl hkept
        · exact Or.inr (hrest hlater)
  constructor
  · intro hcall
    exact (hsound events [] hcall).resolve_left List.not_mem_nil
  · intro hcall
    obtain ⟨event, hevent, rfl⟩ := List.mem_map.mp hcall
    obtain ⟨hmem, htype⟩ := List.mem_filter.mp hevent
    refine (foldl_appendWhen_accounts (fun calls (event : NetworkEvent) =>
      event.packetType = packetType → NetworkCalls.ofEvent event ∈ calls) ?_ ?_ ?_).2
      event hmem (of_decide_eq_true htype)
    · exact fun _ _ _ h hpacket => List.mem_append_left _ (h hpacket)
    · exact fun _ _ _ => List.mem_append_right _ List.mem_cons_self
    · intro kept event hrejects hpacket
      rw [Bool.and_eq_false_iff] at hrejects
      rcases hrejects with hother | hexists
      · exact absurd hpacket (of_decide_eq_false hother)
      · rw [Bool.not_eq_false'] at hexists
        exact networkEventExists_iff.mp hexists

theorem nodup_mergeConnections {existing : List NetworkCalls} (hnodup : existing.Nodup)
    (new : List NetworkCalls) : (mergeConnections existing new).Nodup := by
  refine pairwise_foldl_appendWhen ?_ hnodup
  intro kept call hadmits other hother heq
  have hsame : other = call := heq
  have hexists : networkEventExists call.toEvent kept = true :=
    networkEventExists_toEvent.mpr (hsame ▸ hother)
  simp [hexists] at hadmits

theorem mem_of_mem_mergeConnections {existing new : List NetworkCalls} {call : NetworkCalls}
    (hcall : call ∈ mergeConnections existing new) : call ∈ existing ∨ call ∈ new := by
  rcases mem_foldl_appendWhen hcall with hexisting | ⟨other, hother, rfl⟩
  · exact Or.inl hexisting
  · exact Or.inr hother

/-- Below the limit every connection is merged: a list without duplicates cannot be
longer than the number of connections there are. -/
theorem mem_mergeConnections {existing new all : List NetworkCalls} (hnodup : existing.Nodup)
    (hexisting : existing ⊆ all) (hnew : new ⊆ all) (hlimit : all.dedup.length < maxNetworkEvents)
    (call : NetworkCalls) :
    call ∈ mergeConnections existing new ↔ call ∈ existing ∨ call ∈ new := by
  refine ⟨mem_of_mem_mergeConnections, ?_⟩
  unfold mergeConnections
  induction new generalizing existing with
  | nil => simp
  | cons first rest ih =>
      obtain ⟨hfirst, hrest⟩ := List.cons_subset.mp hnew
      -- The limit is never met: what is stored so far has no duplicates.
      have hlength : existing.length < maxNetworkEvents := by
        have hsubset : existing ⊆ all.dedup := List.Subset.trans hexisting (List.subset_dedup all)
        exact (List.subperm_of_subset hnodup hsubset).length_le.trans_lt hlimit
      rw [List.foldl_cons]
      by_cases hknown : first ∈ existing
      · rw [appendWhen_of_rejects (by simp [networkEventExists_toEvent.mpr hknown])]
        rintro (hcall | hcall)
        · exact ih hnodup hexisting hrest (Or.inl hcall)
        · rcases List.mem_cons.mp hcall with rfl | hcall
          · exact ih hnodup hexisting hrest (Or.inl hknown)
          · exact ih hnodup hexisting hrest (Or.inr hcall)
      · have hadmits : (existing.length < maxNetworkEvents &&
            !networkEventExists first.toEvent existing) = true := by
          have hexists : networkEventExists first.toEvent existing = false :=
            Bool.eq_false_iff.mpr (networkEventExists_toEvent.not.mpr hknown)
          simp [hlength, hexists]
        rw [appendWhen_of_admits hadmits]
        have hnodup' : (existing ++ [first]).Nodup :=
          List.nodup_append.mpr ⟨hnodup, List.nodup_singleton _, by
            intro other hother another hanother
            rw [List.mem_singleton.mp hanother]
            rintro rfl
            exact hknown hother⟩
        have hexisting' : existing ++ [first] ⊆ all :=
          List.append_subset.mpr ⟨hexisting, List.cons_subset.mpr ⟨hfirst, List.nil_subset _⟩⟩
        rintro (hcall | hcall)
        · exact ih hnodup' hexisting' hrest (Or.inl (List.mem_append_left _ hcall))
        · rcases List.mem_cons.mp hcall with rfl | hcall
          · exact ih hnodup' hexisting' hrest
              (Or.inl (List.mem_append_right _ List.mem_cons_self))
          · exact ih hnodup' hexisting' hrest (Or.inr hcall)

/-! ## Whole sessions -/

/-- Everything that the passes collected, in order. -/
def collected (passes : List Collection) : TotalEvents where
  execEvents := passes.flatMap (·.batch.totalEvents.execEvents)
  openEvents := passes.flatMap (·.batch.totalEvents.openEvents)
  syscallEvents := passes.flatMap (·.batch.totalEvents.syscallEvents)
  capabilitiesEvents := passes.flatMap (·.batch.totalEvents.capabilitiesEvents)
  dnsEvents := passes.flatMap (·.batch.totalEvents.dnsEvents)
  networkEvents := passes.flatMap (·.batch.totalEvents.networkEvents)

/-- The profile has the execs, syscalls and connections of the events, as sets. -/
structure Represents (events : TotalEvents) (profile : ContainerProfile) : Prop where
  execs : ∀ exec, exec ∈ profile.execs ↔ exec ∈ events.execEvents.map ExecCalls.ofEvent
  sysCalls : ∀ syscall, syscall ∈ profile.sysCalls ↔ syscall ∈ events.syscallEvents
  outgoing : ∀ call, call ∈ profile.networkActivity.outgoing ↔
    call ∈ connections "OUTGOING" events.networkEvents
  incoming : ∀ call, call ∈ profile.networkActivity.incoming ↔
    call ∈ connections "HOST" events.networkEvents

/-- The profiles have the same execs, syscalls and connections, as sets. -/
structure SameSets (first second : ContainerProfile) : Prop where
  execs : ∀ exec, exec ∈ first.execs ↔ exec ∈ second.execs
  sysCalls : ∀ syscall, syscall ∈ first.sysCalls ↔ syscall ∈ second.sysCalls
  outgoing : ∀ call, call ∈ first.networkActivity.outgoing ↔
    call ∈ second.networkActivity.outgoing
  incoming : ∀ call, call ∈ first.networkActivity.incoming ↔
    call ∈ second.networkActivity.incoming

theorem Represents.sameSets {events : TotalEvents} {first second : ContainerProfile}
    (hfirst : Represents events first) (hsecond : Represents events second) :
    SameSets first second where
  execs exec := (hfirst.execs exec).trans (hsecond.execs exec).symm
  sysCalls syscall := (hfirst.sysCalls syscall).trans (hsecond.sysCalls syscall).symm
  outgoing call := (hfirst.outgoing call).trans (hsecond.outgoing call).symm
  incoming call := (hfirst.incoming call).trans (hsecond.incoming call).symm

theorem Session.execs {world : World} {passes : List Collection}
    (hsession : Session config id world passes) (exec : ExecCalls) :
    exec ∈ (world.stored config id).execs ↔
      exec ∈ (collected passes).execEvents.map ExecCalls.ofEvent := by
  have hinvariant := hsession.invariant (fun batches profile =>
    exec ∈ profile.execs ↔
      exec ∈ (batches.flatMap (·.totalEvents.execEvents)).map ExecCalls.ofEvent) ?_ ?_ ?_
  · rw [List.flatMap_map] at hinvariant
    exact hinvariant
  · simp
  · intro batch
    rw [List.flatMap_singleton]
    exact mem_foldl_addExec
  · intro batches profile batch hexecs
    rw [List.flatMap_append, List.map_append, List.mem_append, List.flatMap_singleton, ← hexecs,
      ← mem_foldl_addExec]
    exact mem_mergedExecs

theorem Session.sysCalls {world : World} {passes : List Collection}
    (hsession : Session config id world passes) (syscall : String) :
    syscall ∈ (world.stored config id).sysCalls ↔ syscall ∈ (collected passes).syscallEvents := by
  have hinvariant := hsession.invariant (fun batches profile =>
    syscall ∈ profile.sysCalls ↔ syscall ∈ batches.flatMap (·.totalEvents.syscallEvents)) ?_ ?_ ?_
  · rw [List.flatMap_map] at hinvariant
    exact hinvariant
  · simp
  · intro batch
    rw [List.flatMap_singleton]
    exact Iff.rfl
  · intro batches profile batch hsysCalls
    rw [List.flatMap_append, List.mem_append, List.flatMap_singleton, ← hsysCalls]
    simp only [mergeContainerProfile, List.mem_append, List.mem_filter, decide_eq_true_eq]
    by_cases hknown : syscall ∈ profile.sysCalls
    · simp [hknown]
    · simp only [hknown, false_or, not_false_eq_true, and_true]
      exact Iff.rfl

/-- The lists of one direction are built and merged alike. -/
theorem Session.connections {world : World} {passes : List Collection} {packetType : String}
    (direction : NetworkActivity → List NetworkCalls) (hempty : direction {} = [])
    (hbuilt : ∀ batch : Batch, direction (batch.built config id.container).networkActivity =
      batch.totalEvents.networkEvents.foldl (addConnection packetType) [])
    (hmerged : ∀ mounts profile new,
      direction (mergeContainerProfile config mounts profile new).networkActivity =
        mergeConnections (direction profile.networkActivity) (direction new.networkActivity))
    (hsession : Session config id world passes)
    (hlimit : (Collector.connections packetType (collected passes).networkEvents).dedup.length <
      maxNetworkEvents) (call : NetworkCalls) :
    call ∈ direction (world.stored config id).networkActivity ↔
      call ∈ Collector.connections packetType (collected passes).networkEvents := by
  -- Completeness needs the limit, so it is an implication inside the invariant.
  have hinvariant := hsession.invariant (fun batches profile =>
    (direction profile.networkActivity).Nodup ∧
    (direction profile.networkActivity) ⊆
      Collector.connections packetType (batches.flatMap (·.totalEvents.networkEvents)) ∧
    ((Collector.connections packetType
        (batches.flatMap (·.totalEvents.networkEvents))).dedup.length < maxNetworkEvents →
      Collector.connections packetType (batches.flatMap (·.totalEvents.networkEvents)) ⊆
        direction profile.networkActivity)) ?_ ?_ ?_
  · rw [List.flatMap_map] at hinvariant
    obtain ⟨_, hsound, hcomplete⟩ := hinvariant
    exact ⟨fun h => hsound h, fun h => hcomplete hlimit h⟩
  · rw [hempty]
    exact ⟨List.nodup_nil, List.nil_subset _, fun _ => List.nil_subset _⟩
  · intro batch
    rw [hbuilt, List.flatMap_singleton]
    exact ⟨nodup_foldl_addConnection _ _, fun _ h => mem_foldl_addConnection.mp h,
      fun _ _ h => mem_foldl_addConnection.mpr h⟩
  · rintro batches profile batch ⟨hnodup, hsound, hcomplete⟩
    rw [hmerged, hbuilt, List.flatMap_append, List.flatMap_singleton]
    generalize hearlier : batches.flatMap (·.totalEvents.networkEvents) = earlier at *
    generalize batch.totalEvents.networkEvents = events at *
    have hboth : Collector.connections packetType (earlier ++ events) =
        Collector.connections packetType earlier ++ Collector.connections packetType events := by
      simp [Collector.connections]
    rw [hboth]
    have hnew : events.foldl (addConnection packetType) [] ⊆
        Collector.connections packetType events := fun _ h => mem_foldl_addConnection.mp h
    refine ⟨nodup_mergeConnections hnodup _, ?_, ?_⟩
    · intro other hother
      rcases mem_of_mem_mergeConnections hother with hother | hother
      · exact List.mem_append_left _ (hsound hother)
      · exact List.mem_append_right _ (hnew hother)
    · intro hall other hother
      have hmem := mem_mergeConnections hnodup
        (List.Subset.trans hsound (List.subset_append_left _ _))
        (List.Subset.trans hnew (List.subset_append_right _ _)) hall other
      rcases List.mem_append.mp hother with hother | hother
      · refine hmem.mpr (Or.inl (hcomplete ?_ hother))
        have hdedup : (Collector.connections packetType earlier).dedup ⊆
            (Collector.connections packetType earlier ++
              Collector.connections packetType events).dedup := by
          intro connection hconnection
          exact List.mem_dedup.mpr (List.mem_append_left _ (List.mem_dedup.mp hconnection))
        exact (List.subperm_of_subset (List.nodup_dedup _) hdedup).length_le.trans_lt hall
      · exact hmem.mpr (Or.inr (mem_foldl_addConnection.mpr hother))

/-- Below the limit of connections a stored profile represents exactly what the passes
collected, so that two sessions that collect the same store the same sets. -/
theorem batching_irrelevant {world : World} {passes : List Collection}
    (hsession : Session config id world passes)
    (hincoming : (connections "HOST" (collected passes).networkEvents).dedup.length <
      maxNetworkEvents)
    (houtgoing : (connections "OUTGOING" (collected passes).networkEvents).dedup.length <
      maxNetworkEvents) :
    Represents (collected passes) (world.stored config id) ∧
    ∀ world' passes', Session config id world' passes' → collected passes' = collected passes →
      SameSets (world.stored config id) (world'.stored config id) := by
  have hrepresents : ∀ world' passes', Session config id world' passes' →
      collected passes' = collected passes →
      Represents (collected passes) (world'.stored config id) := by
    intro world' passes' hsession' hsame
    rw [← hsame] at hincoming houtgoing ⊢
    exact {
      execs := hsession'.execs
      sysCalls := hsession'.sysCalls
      outgoing := hsession'.connections NetworkActivity.outgoing rfl (fun _ => rfl)
        (fun _ _ _ => rfl) houtgoing
      incoming := hsession'.connections NetworkActivity.incoming rfl (fun _ => rfl)
        (fun _ _ _ => rfl) hincoming }
  refine ⟨hrepresents world passes hsession rfl, ?_⟩
  intro world' passes' hsession' hsame
  exact (hrepresents world passes hsession rfl).sameSets
    (hrepresents world' passes' hsession' hsame)

/-! ## A session of one container -/

/-- The container's execve and network buckets hold the events. -/
def World.withEvents (world : World) (execs : List ExecveEvent) (calls : List NetworkEvent) :
    World :=
  { world with eventSink := { world.eventSink with
      execve := ⟨[], ⟨some (Finmap.singleton (nginx.bucketOf "execve") execs)⟩⟩
      network := ⟨[], ⟨some (Finmap.singleton (nginx.bucketOf "network") calls)⟩⟩ } }

def httpsEvent : NetworkEvent where
  packetType := "OUTGOING"
  protocol := "TCP"
  port := 443
  dstEndpoint := "10.0.0.1"

/-- The second pass repeats the shell and brings a connection and a syscall. -/
theorem nginx_batching_irrelevant : ∃ world passes, Session mainConfig nginx world passes ∧
    passes.length = 2 ∧ Represents (collected passes) (world.stored mainConfig nginx) := by
  have hfirst := (session_trackedWorld mainConfig).afterPass
    (trackedWorld.withEvents [shellEvent, shellEvent] []) {} rfl (Or.inl (by decide))
  generalize hworld : World.afterPass mainConfig {}
    (trackedWorld.withEvents [shellEvent, shellEvent] []) = world at hfirst
  have hsecond := hfirst.afterPass (world.withEvents [shellEvent] [httpsEvent])
    { peek := .ok ["connect"] } rfl (Or.inr (by rw [← hworld]; decide))
  subst hworld
  exact ⟨_, _, hsecond, rfl, (batching_irrelevant hsecond (by decide) (by decide)).1⟩

end Kapprofiler.Collector
