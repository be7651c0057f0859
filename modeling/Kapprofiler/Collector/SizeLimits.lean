import Kapprofiler.Collector.Batching

/-! # The limits on the size of a profile

A profile should not have more than `MaxOpenEvents` opens, nor more than
`MaxNetworkEvents` connections in a direction. The test on the opens compares with `>`
and, while a batch is merged, looks at the stored list alone; the connections are not
limited when the profile is created.
-/

namespace Kapprofiler.Collector

open Tracing Foundation

variable {config : CollectorManagerConfig} {id : ContainerId}

/-! ## Opens -/

/-- The path is ignored by a prefix or by a mount. -/
def ignoresOpen (config : CollectorManagerConfig) (mounts : List String) (event : OpenEvent) :
    Bool :=
  config.ignorePrefixes.any (hasPrefix event.pathName) ||
    (config.ignoreMounts && mounts.any (hasPrefix event.pathName))

/-- Some entry has the path, and one of these has all flags. -/
def coversOpen (opens : List OpenCalls) (event : OpenEvent) : Bool :=
  (openEventExists event opens).1 && (openEventExists event opens).2

theorem shouldIncludeOpenEvent_eq (mounts : List String) (opens : List OpenCalls)
    (event : OpenEvent) :
    shouldIncludeOpenEvent config mounts opens event =
      (decide (opens.length < maxOpenEvents + 1) &&
        (!ignoresOpen config mounts event && !coversOpen opens event)) := by
  unfold shouldIncludeOpenEvent ignoresOpen coversOpen
  generalize config.ignorePrefixes.any (hasPrefix event.pathName) = ignored
  generalize mounts.any (hasPrefix event.pathName) = mounted
  generalize (openEventExists event opens).1 = samePath
  generalize (openEventExists event opens).2 = sameFlags
  by_cases hfull : maxOpenEvents < opens.length
  · have hlimit : ¬ opens.length < maxOpenEvents + 1 := by omega
    simp [hfull, hlimit]
  · have hlimit : opens.length < maxOpenEvents + 1 := by omega
    cases ignored <;> cases mounted <;> cases samePath <;> cases sameFlags <;>
      cases config.ignoreMounts <;> simp [hfull, hlimit]

theorem coversOpen_iff {opens : List OpenCalls} {event : OpenEvent} :
    coversOpen opens event = true ↔
      ∃ element ∈ opens, element.path = event.pathName ∧ event.flags ⊆ element.flags := by
  simp only [coversOpen, openEventExists, Bool.and_eq_true, List.any_eq_true,
    decide_eq_true_eq, List.all_eq_true]
  constructor
  · rintro ⟨_, element, helement, hpath, hflags⟩
    exact ⟨element, helement, hpath, fun flag hflag => by simpa using hflags flag hflag⟩
  · rintro ⟨element, helement, hpath, hflags⟩
    exact ⟨⟨element, helement, hpath⟩, element, helement, hpath,
      fun flag hflag => by simpa using hflags hflag⟩

/-- The opens of the events that are not ignored, without those covered by an earlier one. -/
def distinctOpens (config : CollectorManagerConfig) (mounts : List String)
    (events : List OpenEvent) : List OpenCalls :=
  events.foldl (appendWhen (fun opens event =>
    !ignoresOpen config mounts event && !coversOpen opens event) OpenCalls.ofEvent) []

/-- A batch is built into its first distinct opens, one more than the limit. -/
theorem foldl_addOpen (mounts : List String) (events : List OpenEvent) :
    events.foldl (addOpen config mounts) [] =
      (distinctOpens config mounts events).take (maxOpenEvents + 1) := by
  have hadd : addOpen config mounts = appendWhen (fun opens event =>
      decide (opens.length < maxOpenEvents + 1) &&
        (!ignoresOpen config mounts event && !coversOpen opens event)) OpenCalls.ofEvent := by
    funext opens event
    unfold addOpen appendWhen
    rw [shouldIncludeOpenEvent_eq]
  rw [hadd]
  exact foldl_appendWhen_limit (maxOpenEvents + 1) events (Nat.zero_le _)

theorem not_ignored_of_mem {mounts : List String} {events : List OpenEvent} {opens : OpenCalls}
    (hopens : opens ∈ distinctOpens config mounts events) :
    ignoresOpen config mounts opens.toEvent = false := by
  rcases exists_admitted_of_mem hopens with hopens | ⟨event, _, ⟨before, hadmits⟩, rfl⟩
  · cases hopens
  · rw [Bool.and_eq_true, Bool.not_eq_true'] at hadmits
    exact hadmits.1

/-- The opens that a batch adds to the stored ones. -/
def addedOpens (config : CollectorManagerConfig) (stored : List OpenCalls) (batch : Batch) :
    List OpenCalls :=
  ((distinctOpens config batch.mounts batch.totalEvents.openEvents).take
    (maxOpenEvents + 1)).filter fun opens => !coversOpen stored opens.toEvent

theorem opens_built_eq_take {batch : Batch} {container : String} :
    (batch.built config container).opens =
      (distinctOpens config batch.mounts batch.totalEvents.openEvents).take
        (maxOpenEvents + 1) :=
  foldl_addOpen batch.mounts batch.totalEvents.openEvents

/-- The first batch adds its opens to none. -/
theorem opens_built {batch : Batch} {container : String} :
    (batch.built config container).opens = addedOpens config [] batch := by
  have hnone : ∀ opens : OpenCalls, coversOpen [] opens.toEvent = false := fun _ => rfl
  unfold addedOpens
  simp only [hnone, Bool.not_false, List.filter_true]
  exact opens_built_eq_take

/-- Below the limit, a batch is merged by appending what the stored opens do not cover. -/
theorem opens_mergeContainerProfile {existing : ContainerProfile} {batch : Batch}
    {container : String} (hlimit : existing.opens.length ≤ maxOpenEvents) :
    (mergeContainerProfile config batch.mounts existing (batch.built config container)).opens =
      existing.opens ++ addedOpens config existing.opens batch := by
  simp only [mergeContainerProfile, opens_built_eq_take, addedOpens]
  congr 1
  apply List.filter_congr
  intro opens hopens
  rw [shouldIncludeOpenEvent_eq, not_ignored_of_mem (List.mem_of_mem_take hopens)]
  simp [Nat.lt_succ_of_le hlimit]

/-- Above the limit, nothing is merged. -/
theorem opens_mergeContainerProfile_of_full {existing new : ContainerProfile}
    {mounts : List String} (hfull : maxOpenEvents < existing.opens.length) :
    (mergeContainerProfile config mounts existing new).opens = existing.opens := by
  simp [mergeContainerProfile, shouldIncludeOpenEvent, hfull]

/-! ## Connections -/

/-- Merging stops at the limit. -/
theorem length_mergeConnections_le {existing : List NetworkCalls}
    (hlimit : existing.length ≤ maxNetworkEvents) (new : List NetworkCalls) :
    (mergeConnections existing new).length ≤ maxNetworkEvents := by
  unfold mergeConnections
  rw [foldl_appendWhen_limit maxNetworkEvents new hlimit]
  exact List.length_take_le _ _

/-- A batch is built into its distinct connections, however many there are. -/
theorem length_foldl_addConnection (packetType : String) (events : List NetworkEvent) :
    (events.foldl (addConnection packetType) []).length =
      (connections packetType events).dedup.length := by
  apply List.Perm.length_eq
  rw [List.perm_ext_iff_of_nodup (nodup_foldl_addConnection packetType events)
    (List.nodup_dedup _)]
  intro call
  rw [mem_foldl_addConnection, List.mem_dedup]

/-! ## Whole sessions -/

/-- The sizes that a profile of one container may have. -/
structure WithinLimits (profile : ContainerProfile) : Prop where
  opens : profile.opens.length ≤ maxOpenEvents
  incoming : profile.networkActivity.incoming.length ≤ maxNetworkEvents
  outgoing : profile.networkActivity.outgoing.length ≤ maxNetworkEvents

/-- The opens stored by the passes so far. -/
def storedOpens (earlier : List Collection) : List OpenCalls :=
  (earlier.getLast?.map fun collection => collection.stored.opens).getD []

/-- The opens of the batch fit in besides the stored ones, and the connections of the
first batch are not too many. -/
structure Fits (config : CollectorManagerConfig) (earlier : List Collection)
    (collection : Collection) : Prop where
  opens : (storedOpens earlier).length +
    (addedOpens config (storedOpens earlier) collection.batch).length ≤ maxOpenEvents
  incoming : earlier = [] →
    (connections "HOST" collection.batch.totalEvents.networkEvents).dedup.length ≤
      maxNetworkEvents
  outgoing : earlier = [] →
    (connections "OUTGOING" collection.batch.totalEvents.networkEvents).dedup.length ≤
      maxNetworkEvents

theorem built_withinLimits_iff {batch : Batch} {container : String} {stored : ContainerProfile} :
    WithinLimits (batch.built config container) ↔ Fits config [] ⟨batch, stored⟩ := by
  have hopens : (batch.built config container).opens =
      addedOpens config (storedOpens []) batch := opens_built
  constructor
  · intro hlimits
    refine ⟨?_, fun _ => ?_, fun _ => ?_⟩
    · rw [← hopens, storedOpens]
      simpa using hlimits.opens
    · rw [← length_foldl_addConnection]
      exact hlimits.incoming
    · rw [← length_foldl_addConnection]
      exact hlimits.outgoing
  · intro hfits
    refine ⟨?_, ?_, ?_⟩
    · have hlength := hfits.opens
      rw [← hopens, storedOpens] at hlength
      simpa using hlength
    · exact (length_foldl_addConnection _ _).trans_le (hfits.incoming rfl)
    · exact (length_foldl_addConnection _ _).trans_le (hfits.outgoing rfl)

/-- Only the opens can grow over the limit after the first pass. -/
theorem merged_withinLimits_iff {existing : ContainerProfile} {batch : Batch}
    {container : String} (hlimits : WithinLimits existing) :
    WithinLimits (mergeContainerProfile config batch.mounts existing
        (batch.built config container)) ↔
      existing.opens.length + (addedOpens config existing.opens batch).length ≤
        maxOpenEvents := by
  rw [← List.length_append, ← opens_mergeContainerProfile hlimits.opens]
  constructor
  · exact fun hmerged => hmerged.opens
  · intro hopens
    exact ⟨hopens, length_mergeConnections_le hlimits.incoming _,
      length_mergeConnections_le hlimits.outgoing _⟩

/-- What is stored for the container is what the last pass stored. -/
theorem Session.entry_eq_getLast? {world : World} {passes : List Collection}
    (hsession : Session config id world passes) :
    world.entry config id = passes.getLast?.map (·.stored) := by
  induction hsession with
  | start world hfresh => exact hfresh
  | environment next _ hsame ih => exact hsame.trans ih
  | pass answers _ hpass hwritten _ =>
      rw [List.getLast?_concat, Option.map_some, World.stored, entry_of_pass hpass hwritten]
      rfl

/-- The stored profile stays within its limits in a session exactly if every batch fits. -/
theorem withinLimits_iff_fits {world : World} {passes : List Collection}
    (hsession : Session config id world passes) :
    (∀ collection ∈ passes, WithinLimits collection.stored) ↔
      EachAfter (Fits config) passes := by
  induction hsession with
  | start world hfresh => simp [EachAfter]
  | environment next _ _ ih => exact ih
  | @pass world next passes answers exit hsession hpass hwritten ih =>
      rw [eachAfter_concat, ← ih, List.forall_mem_append, List.forall_mem_singleton]
      refine and_congr_right fun hlimits => ?_
      have hstored := entry_of_pass hpass hwritten
      rw [hsession.entry_eq_getLast?] at hstored
      -- The first pass creates the profile, each later one merges into that of the pass before.
      cases passes using List.reverseRecOn with
      | nil =>
          have hbuilt : next.stored config id = world.built config id answers := by
            rw [World.stored, hstored]
            rfl
          rw [hbuilt]
          exact @built_withinLimits_iff config ⟨world.mounts id, world.batch id answers⟩ _ _
      | append_singleton passes last =>
          rw [List.getLast?_concat, Option.map_some] at hstored
          have hmerged : next.stored config id = mergeContainerProfile config (world.mounts id)
              last.stored (world.built config id answers) := by
            rw [World.stored, hstored]
            rfl
          have hlast : storedOpens (passes ++ [last]) = last.stored.opens := by
            rw [storedOpens, List.getLast?_concat]
            rfl
          rw [hmerged]
          refine (@merged_withinLimits_iff config last.stored
            ⟨world.mounts id, world.batch id answers⟩ _ (hlimits last (by simp))).trans ?_
          rw [← hlast]
          constructor
          · exact fun hopens => ⟨hopens, fun hnil => by simp at hnil, fun hnil => by simp at hnil⟩
          · exact fun hfits => hfits.opens

/-! ## A first pass -/

/-- The first pass of a tracked container with connections creates its profile. -/
theorem exists_session_of_calls (first : NetworkEvent) (rest : List NetworkEvent) :
    ∃ world stored, Session mainConfig nginx world
        [⟨⟨[], { networkEvents := first :: rest }⟩, stored⟩] ∧
      stored = Batch.built mainConfig "app" ⟨[], { networkEvents := first :: rest }⟩ := by
  have hpass : collectContainerEvents mainConfig nginx {}
      (trackedWorld.withEvents [] (first :: rest)) = (.returned .created, _) := rfl
  have hfresh : (trackedWorld.withEvents [] (first :: rest)).entry mainConfig nginx = none := rfl
  have hsession := Session.pass {} (.environment (trackedWorld.withEvents [] (first :: rest))
    (.start trackedWorld rfl) hfresh) hpass (Or.inl rfl)
  refine ⟨_, _, hsession, ?_⟩
  rw [World.stored, entry_of_pass hpass (Or.inl rfl), hfresh]
  rfl

/-- Connections to so many ports of one host. -/
def portScan (count : Nat) : List NetworkEvent :=
  (List.range count).map fun port => { httpsEvent with port := UInt16.ofNat port }

theorem connections_portScan {count : Nat} (hcount : count ≤ 2 ^ 16) :
    (connections "OUTGOING" (portScan count)).dedup.length = count := by
  have hconnections : connections "OUTGOING" (portScan count) =
      (List.range count).map fun port => ⟨"TCP", UInt16.ofNat port, "10.0.0.1"⟩ := by
    unfold connections portScan
    rw [List.filter_eq_self.mpr, List.map_map]
    · rfl
    · intro event hevent
      obtain ⟨port, _, rfl⟩ := List.mem_map.mp hevent
      rfl
  have hnodup : (connections "OUTGOING" (portScan count)).Nodup := by
    rw [hconnections]
    refine List.Nodup.map_on ?_ List.nodup_range
    intro port hport other hother heq
    have hsame := congrArg (fun call => call.port.toNat) heq
    rw [List.mem_range] at hport hother
    simp only [UInt16.toNat_ofNat'] at hsame
    rwa [Nat.mod_eq_of_lt (hport.trans_le hcount), Nat.mod_eq_of_lt (hother.trans_le hcount)]
      at hsame
  rw [hnodup.dedup, hconnections, List.length_map, List.length_range]

/-- A first pass stores every connection of its batch. -/
theorem first_pass_exceeds_limit :
    ¬ ∀ (config : CollectorManagerConfig) (id : ContainerId) (world : World)
      (passes : List Collection), Session config id world passes →
      ∀ collection ∈ passes, WithinLimits collection.stored := by
  intro hclaim
  cases hscan : portScan (maxNetworkEvents + 1) with
  | nil => exact absurd (congrArg List.length hscan) (by simp [portScan])
  | cons first rest =>
      obtain ⟨world, stored, hsession, hbuilt⟩ := exists_session_of_calls first rest
      have hlimits := hclaim mainConfig nginx world _ hsession _ List.mem_cons_self
      have hlength : stored.networkActivity.outgoing.length = maxNetworkEvents + 1 := by
        rw [hbuilt, ← @connections_portScan (maxNetworkEvents + 1) (by decide), hscan]
        exact length_foldl_addConnection "OUTGOING" (first :: rest)
      have houtgoing : stored.networkActivity.outgoing.length ≤ maxNetworkEvents :=
        hlimits.outgoing
      omega

/-- A first batch with one connection is within the limits. -/
theorem small_pass_within_limits : ∃ world stored,
    Session mainConfig nginx world [⟨⟨[], { networkEvents := [httpsEvent] }⟩, stored⟩] ∧
      WithinLimits stored := by
  obtain ⟨world, stored, hsession, _⟩ := exists_session_of_calls httpsEvent []
  have hfits : Fits mainConfig [] ⟨⟨[], { networkEvents := [httpsEvent] }⟩, stored⟩ :=
    ⟨Nat.zero_le _, fun _ => Nat.zero_le _, fun _ => Nat.le_add_left 1 9999⟩
  refine ⟨world, stored, hsession, (withinLimits_iff_fits hsession).mpr ?_ _ List.mem_cons_self⟩
  rw [← List.nil_append [_], eachAfter_concat]
  exact ⟨by simp [EachAfter], hfits⟩

end Kapprofiler.Collector
