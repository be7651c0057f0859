import Kapprofiler.Collector.Pass

/-! # Batches whose write failed

A pass empties the buckets of its container before it writes anything, so a
write that fails must not go unnoticed: the stored profile has to be marked
failed. The branch of a failed update does so; the branch of a failed create
only logs.
-/

namespace Kapprofiler.Collector

open Tracing Foundation

variable (config : CollectorManagerConfig) (id : ContainerId) (answers : Answers)

/-- Every event of the batch can still be drained from the sink. -/
def Retrievable (sink : EventSink) (batch : TotalEvents) : Prop :=
  let left := (loadTotalEvents id sink (.ok [])).1
  batch.execEvents ⊆ left.execEvents ∧ batch.openEvents ⊆ left.openEvents ∧
    batch.capabilitiesEvents ⊆ left.capabilitiesEvents ∧
    batch.dnsEvents ⊆ left.dnsEvents ∧ batch.networkEvents ⊆ left.networkEvents

/-- The container's pod profile is stored and marked failed. -/
def FailedMarked (world : World) : Prop :=
  ∃ object ∈ world.profiles.get (id.profileKey config),
    object.value.labels.get failedLabel = "true"

/-- If the pass fails to create or to update the profile, then what it drained can
be drained again, or the profile is marked failed. -/
def FailureNoticed (world : World) : Prop :=
  ∀ exit next, collectContainerEvents config id answers world = (.returned exit, next) →
    exit = .createFailed ∨ exit = .updateFailed →
    Retrievable id next.eventSink (world.batch id answers) ∨ FailedMarked config id next

/-- The get finds no profile, or fails, and the create is refused, or fails. -/
def CreateRefused (world : World) : Prop :=
  (answers.getFails = true ∨ world.profiles.get (id.profileKey config) = none) ∧
    (answers.createFails = true ∨ world.profiles.get (id.profileKey config) ≠ none)

/-- The batch without the syscalls, which a pass peeks and does not drain. -/
def TotalEvents.drained (totalEvents : TotalEvents) : TotalEvents :=
  { totalEvents with syscallEvents := [] }

variable {config id answers} {world : World}

/-! ## Drained buckets -/

/-- The buckets of a container are empty after they were drained. -/
theorem loadTotalEvents_drain (sink : EventSink) (peek : Except String (List String)) :
    (loadTotalEvents id (loadTotalEvents id sink peek).2 (.ok [])).1 = {} := by
  simp only [loadTotalEvents, EventSource.all, List.foldl, loadEvents, EventStream.getEvents,
    InMemoryMapDB.getNClean_fst, InMemoryMapDB.get_getNClean]

/-- Nothing of a batch can be drained a second time. -/
theorem retrievable_drain_iff {sink : EventSink} (peek : Except String (List String))
    {batch : TotalEvents} :
    Retrievable id (loadTotalEvents id sink peek).2 batch ↔
      shouldProcessEvents batch.drained = false := by
  simp only [Retrievable, loadTotalEvents_drain, List.subset_nil]
  simp [shouldProcessEvents, TotalEvents.drained]

theorem shouldProcessEvents_of_drained {totalEvents : TotalEvents}
    (hdrained : shouldProcessEvents totalEvents.drained = true) :
    shouldProcessEvents totalEvents = true := by
  simp only [shouldProcessEvents, TotalEvents.drained, List.length_nil, Nat.lt_irrefl, false_or,
    decide_eq_true_eq] at *
  tauto

/-! ## The failed mark -/

/-- A successful patch of an existing profile leaves it marked failed. -/
theorem failedMarked_patch {profiles : VersionedStore (String × String) ApplicationProfile}
    {key : String × String} {existing : Versioned ApplicationProfile}
    (hexisting : profiles.get key = some existing) :
    ∃ object ∈ ((request false (profiles.patch key (ApplicationProfile.mark failedLabel))).getD
      profiles).get key, object.value.labels.get failedLabel = "true" := by
  have hpatch := VersionedStore.patch_of_get (ApplicationProfile.mark failedLabel) hexisting
  obtain ⟨version, hget⟩ := profiles.write_get (existing.value.mark failedLabel) hexisting
  refine ⟨⟨existing.value.mark failedLabel, version⟩, ?_, ?_⟩
  · rw [hpatch]
    exact hget
  · exact mark_get failedLabel existing.value

theorem limitPatched_get (answers : Answers) {existing : Versioned ApplicationProfile}
    (hexisting : world.profiles.get (id.profileKey config) = some existing) :
    ∃ object, (world.limitPatched config id answers).get (id.profileKey config) =
      some object := by
  unfold World.limitPatched
  split
  · cases hpatch : request answers.limitPatchFails (world.profiles.patch (id.profileKey config)
        (ApplicationProfile.mark failedLabel)) with
    | none => exact ⟨existing, hexisting⟩
    | some profiles =>
        obtain ⟨stored, hstored, rfl⟩ := VersionedStore.patch_eq_some.mp (of_request hpatch)
        obtain ⟨version, hget⟩ := world.profiles.write_get (stored.value.mark failedLabel) hstored
        exact ⟨_, hget⟩
  · exact ⟨existing, hexisting⟩

/-- A pass whose update fails marks the profile, which is still there. -/
theorem failedMarked_of_updateFailed {next : World} (hpatch : answers.failedPatchFails = false)
    (houtcome : Outcome config id answers world .updateFailed next) :
    FailedMarked config id next := by
  cases houtcome with
  | updateFailed state existing hlookup hbatch hget hfinal hupdate =>
      obtain ⟨object, hobject⟩ := limitPatched_get answers (of_request hget)
      simp only [FailedMarked, hpatch]
      exact failedMarked_patch hobject

/-! ## When a failed write is noticed -/

theorem not_createRefused_of_get {existing : Versioned ApplicationProfile}
    (hget : request answers.getFails (world.profiles.get (id.profileKey config)) =
      some existing) : ¬ CreateRefused config id answers world := by
  obtain ⟨hfails, hexisting⟩ := request_eq_some.mp hget
  rintro ⟨hmissing | hmissing, _⟩
  · rw [hfails] at hmissing
    exact Bool.false_ne_true hmissing
  · rw [hexisting] at hmissing
    cases hmissing

/-- A failed write of a pass is noticed unless a create is refused, events were
drained, and the stored profile, if there is one, was not marked failed before. -/
theorem failureNoticed_iff (hpatch : answers.failedPatchFails = false) :
    FailureNoticed config id answers world ↔
      ¬ (id ∈ world.containers ∧ CreateRefused config id answers world ∧
        shouldProcessEvents (world.batch id answers).drained = true ∧
        ¬ FailedMarked config id world) := by
  obtain ⟨exit, next, hpass, houtcome⟩ :=
    collectContainerEvents_outcome config id answers world
  have hnoticed : FailureNoticed config id answers world ↔
      (exit = .createFailed ∨ exit = .updateFailed →
        Retrievable id next.eventSink (world.batch id answers) ∨
          FailedMarked config id next) := by
    refine ⟨fun h => h exit next hpass, ?_⟩
    intro h exit' next' hpass'
    obtain ⟨hexit, rfl⟩ := Prod.mk.inj (hpass.symm.trans hpass')
    cases hexit
    exact h
  rw [hnoticed]
  cases houtcome with
  | notTracked hlookup =>
      refine iff_of_true (by simp) ?_
      rintro ⟨htracked, _⟩
      exact Finmap.lookup_eq_none.mp hlookup htracked
  | noEvents state hlookup hbatch =>
      refine iff_of_true (by simp) ?_
      rintro ⟨_, _, hdrained, _⟩
      rw [shouldProcessEvents_of_drained hdrained] at hbatch
      cases hbatch
  | created state profiles hlookup hbatch hget hcreate =>
      refine iff_of_true (by simp) ?_
      rintro ⟨_, ⟨_, hrefused⟩, _⟩
      obtain ⟨hfails, hcreated⟩ := request_eq_some.mp hcreate
      obtain ⟨habsent, _⟩ := VersionedStore.create_eq_some.mp hcreated
      rcases hrefused with hrefused | hrefused
      · rw [hfails] at hrefused
        exact Bool.false_ne_true hrefused
      · exact hrefused habsent
  | createFailed state hlookup hbatch hget hcreate =>
      -- Nothing is written here, so only an older mark can make the loss known.
      have htracked : id ∈ world.containers := Finmap.mem_of_lookup_eq_some hlookup
      have hrefused : CreateRefused config id answers world := by
        refine ⟨request_eq_none.mp hget, (request_eq_none.mp hcreate).imp_right ?_⟩
        intro hnone
        obtain ⟨object, hobject⟩ := VersionedStore.create_eq_none.mp hnone
        rw [hobject]
        exact Option.some_ne_none object
      have hretrievable : Retrievable id ((world.drain id answers).startContainerTimer id).eventSink
          (world.batch id answers) ↔ shouldProcessEvents (world.batch id answers).drained = false :=
        retrievable_drain_iff answers.peek
      have hmarked : FailedMarked config id ((world.drain id answers).startContainerTimer id) ↔
          FailedMarked config id world := Iff.rfl
      simp only [true_or, true_implies, hretrievable, hmarked, htracked, hrefused, true_and]
      cases shouldProcessEvents (world.batch id answers).drained <;> simp
  | final state existing hlookup hbatch hget hfinal =>
      exact iff_of_true (by simp) fun h => not_createRefused_of_get hget h.2.1
  | updated state existing profiles hlookup hbatch hget hfinal hupdate =>
      exact iff_of_true (by simp) fun h => not_createRefused_of_get hget h.2.1
  | updateFailed state existing hlookup hbatch hget hfinal hupdate =>
      refine iff_of_true ?_ fun h => not_createRefused_of_get hget h.2.1
      exact fun _ => Or.inr (failedMarked_of_updateFailed hpatch (outcome_of_collect hpass))

/-- The first pass stores a profile, and a second batch waits when its update fails. -/
theorem nginx_failed_update_noticed : ∃ system,
    (machine mainConfig).run freshSystem (recordingRun ++ .timerExpired nginx ::
      List.replicate 11 (.advance 1 {}) ++ shellRun) = some system ∧
    shouldProcessEvents (system.world.batch nginx {}).drained = true ∧
    FailureNoticed mainConfig nginx { updateFails := true } system.world :=
  ⟨_, rfl, by decide, (failureNoticed_iff rfl).mpr (by
    rintro ⟨_, ⟨hget, _⟩, _⟩
    revert hget
    decide)⟩

/-- The first pass fails to create the profile: the shell is forgotten, and
nothing says so. -/
theorem nginx_failed_create_unnoticed : ∃ system,
    (machine mainConfig).Reachable system ∧
      ¬ FailureNoticed mainConfig nginx { createFails := true } system.world := by
  refine ⟨_, ⟨freshSystem, recordingRun, initial_freshSystem, rfl⟩, ?_⟩
  intro hnoticed
  rcases hnoticed .createFailed _ rfl (Or.inl rfl) with ⟨hexec, _⟩ | ⟨object, hobject, _⟩
  · revert hexec
    decide
  · cases hobject

end Kapprofiler.Collector
