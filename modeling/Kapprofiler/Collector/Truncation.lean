import Kapprofiler.Collector.FailedWrites
import Kapprofiler.Collector.PassLabels
import Kapprofiler.Collector.SelfConflict
import Kapprofiler.Collector.SizeLimits

/-! # Opens that are left out

Opens that do not fit into the stored profile are dropped when a batch is merged. The
failed label is set by the size of the batch alone, before the merge, and the label map
may be replaced afterwards, so that not every loss is flagged.
-/

namespace Kapprofiler.Collector

open Tracing Foundation

variable {config : CollectorManagerConfig} {id : ContainerId} {answers : Answers} {world : World}

/-! ## What is covered -/

theorem coversOpen_append {first second : List OpenCalls} {event : OpenEvent} :
    coversOpen (first ++ second) event = (coversOpen first event || coversOpen second event) := by
  rw [Bool.eq_iff_iff, Bool.or_eq_true]
  simp only [coversOpen_iff, List.mem_append]
  constructor
  · rintro ⟨element, hfirst | hsecond, hcovers⟩
    · exact Or.inl ⟨element, hfirst, hcovers⟩
    · exact Or.inr ⟨element, hsecond, hcovers⟩
  · rintro (⟨element, hfirst, hcovers⟩ | ⟨element, hsecond, hcovers⟩)
    · exact ⟨element, Or.inl hfirst, hcovers⟩
    · exact ⟨element, Or.inr hsecond, hcovers⟩

/-- The entry that covers an open need not be the one that the open was recorded as. -/
theorem coversOpen_trans {opens : List OpenCalls} {between : OpenCalls} {event : OpenEvent}
    (hbetween : coversOpen opens between.toEvent = true)
    (hcovers : between.path = event.pathName ∧ event.flags ⊆ between.flags) :
    coversOpen opens event = true := by
  obtain ⟨element, helement, hpath, hflags⟩ := coversOpen_iff.mp hbetween
  exact coversOpen_iff.mpr ⟨element, helement, hpath.trans hcovers.1,
    List.Subset.trans hcovers.2 hflags⟩

/-- Leaving out what is covered by others does not change what is covered by all. -/
theorem coversOpen_append_filter {stored opens : List OpenCalls} {event : OpenEvent} :
    coversOpen (stored ++ opens.filter fun open' => !coversOpen stored open'.toEvent) event =
      (coversOpen stored event || coversOpen opens event) := by
  rw [coversOpen_append, Bool.eq_iff_iff, Bool.or_eq_true, Bool.or_eq_true]
  constructor
  · refine Or.imp_right ?_
    rw [coversOpen_iff, coversOpen_iff]
    rintro ⟨element, helement, hcovers⟩
    exact ⟨element, List.mem_of_mem_filter helement, hcovers⟩
  · rintro (hstored | hopens)
    · exact Or.inl hstored
    · obtain ⟨element, helement, hcovers⟩ := coversOpen_iff.mp hopens
      cases hknown : coversOpen stored element.toEvent with
      | true => exact Or.inl (coversOpen_trans hknown hcovers)
      | false =>
          refine Or.inr (coversOpen_iff.mpr ⟨element, ?_, hcovers⟩)
          exact List.mem_filter.mpr ⟨helement, by simp [hknown]⟩

/-- Every open that is not ignored is covered by the distinct ones. -/
theorem coversOpen_distinctOpens {mounts : List String} {events : List OpenEvent}
    {event : OpenEvent} (hevent : event ∈ events)
    (hincluded : ignoresOpen config mounts event = false) :
    coversOpen (distinctOpens config mounts events) event = true := by
  refine (foldl_appendWhen_accounts (fun opens (event : OpenEvent) =>
    ignoresOpen config mounts event = false → coversOpen opens event = true) ?_ ?_ ?_).2
    event hevent hincluded
  · intro kept entry item haccounts hincluded
    rw [coversOpen_append, haccounts hincluded, Bool.true_or]
  · intro kept item _
    rw [coversOpen_iff]
    exact ⟨OpenCalls.ofEvent item, List.mem_append_right _ List.mem_cons_self, rfl,
      List.Subset.refl _⟩
  · intro kept item hrejects hincluded
    simpa [hincluded] using hrejects

/-! ## What a pass leaves out -/

/-- Some open of the batch that is not ignored is covered neither by the stored opens nor
by what there is room for. -/
def Truncates (config : CollectorManagerConfig) (stored : List OpenCalls) (batch : Batch) :
    Prop :=
  ∃ event ∈ batch.totalEvents.openEvents, ignoresOpen config batch.mounts event = false ∧
    coversOpen stored event = false ∧
    (maxOpenEvents < stored.length ∨
      coversOpen ((distinctOpens config batch.mounts batch.totalEvents.openEvents).take
        (maxOpenEvents + 1)) event = false)

/-- The opens that a pass stores, all of them or none. -/
def storedAfter (config : CollectorManagerConfig) (stored : List OpenCalls) (batch : Batch) :
    List OpenCalls :=
  if maxOpenEvents < stored.length then stored else stored ++ addedOpens config stored batch

theorem opens_of_pass {next : World} {exit : PassExit}
    (hpass : collectContainerEvents config id answers world = (.returned exit, next))
    (hwritten : exit = .created ∨ exit = .updated) :
    (next.stored config id).opens = storedAfter config (world.stored config id).opens
      ⟨world.mounts id, world.batch id answers⟩ := by
  have hentry := entry_of_pass hpass hwritten
  cases hstored : world.entry config id with
  | none =>
      simp only [hstored] at hentry
      simp only [World.stored, hentry, hstored, Option.getD_some, Option.getD_none, storedAfter]
      have hroom : ¬ maxOpenEvents < ([] : List OpenCalls).length := Nat.not_lt_zero _
      rw [if_neg hroom, List.nil_append]
      exact @opens_built config ⟨world.mounts id, world.batch id answers⟩ id.container
  | some existing =>
      simp only [hstored] at hentry
      simp only [World.stored, hentry, hstored, Option.getD_some, storedAfter]
      by_cases hfull : maxOpenEvents < existing.opens.length
      · rw [if_pos hfull]
        exact opens_mergeContainerProfile_of_full hfull
      · rw [if_neg hfull]
        exact @opens_mergeContainerProfile config existing
          ⟨world.mounts id, world.batch id answers⟩ id.container (Nat.le_of_not_lt hfull)

/-- An open is left out exactly if it is truncated. -/
theorem coversOpen_storedAfter {stored : List OpenCalls} {batch : Batch} {event : OpenEvent} :
    coversOpen (storedAfter config stored batch) event = false ↔
      coversOpen stored event = false ∧ (maxOpenEvents < stored.length ∨
        coversOpen ((distinctOpens config batch.mounts batch.totalEvents.openEvents).take
          (maxOpenEvents + 1)) event = false) := by
  unfold storedAfter
  split
  next hfull => simp [hfull]
  next hlimit =>
    rw [addedOpens, coversOpen_append_filter, Bool.or_eq_false_iff]
    simp [hlimit]

/-! ## One pass -/

/-- If a pass that came to write leaves an open out of the stored profile that is not
ignored, the profile is marked failed when the pass has returned. -/
def TruncationFlagged (config : CollectorManagerConfig) (id : ContainerId) (answers : Answers)
    (world : World) : Prop :=
  ∀ exit next, collectContainerEvents config id answers world = (.returned exit, next) →
    exit = .created ∨ exit = .updated ∨ exit = .updateFailed →
    ∀ event ∈ (world.batch id answers).openEvents,
      ignoresOpen config (world.mounts id) event = false →
      coversOpen (next.stored config id).opens event = false → FailedMarked config id next

/-- Where a pass truncates its batch, the profile is marked failed already and keeps its
labels, or it is not and the batch alone reaches the limit. -/
def TruncationForeseen (config : CollectorManagerConfig) (id : ContainerId) (answers : Answers)
    (world : World) : Prop :=
  ∀ state existing, world.containers.lookup id = some state →
    shouldProcessEvents (world.batch id answers) = true →
    world.profiles.get (id.profileKey config) = some existing → ¬ existing.value.isFinal →
    Truncates config (world.stored config id).opens ⟨world.mounts id, world.batch id answers⟩ →
    if existing.value.labels.get failedLabel = "true" then
      state.attached = true ∨ existing.value.labels.get partialLabel ≠ "true"
    else maxOpenEvents ≤
      (distinctOpens config (world.mounts id) (world.batch id answers).openEvents).length

theorem maxOpenEvents_le_built_iff :
    maxOpenEvents ≤ (world.built config id answers).opens.length ↔
      maxOpenEvents ≤
        (distinctOpens config (world.mounts id) (world.batch id answers).openEvents).length := by
  have hbuilt : (world.built config id answers).opens =
      (distinctOpens config (world.mounts id) (world.batch id answers).openEvents).take
        (maxOpenEvents + 1) :=
    @opens_built_eq_take config ⟨world.mounts id, world.batch id answers⟩ id.container
  rw [hbuilt, List.length_take]
  omega

/-- What a created profile leaves out has made its batch reach the limit. -/
theorem failed_of_created {state : ContainerState}
    (htruncates : Truncates config [] ⟨world.mounts id, world.batch id answers⟩) :
    (newLabels config id state (world.built config id answers)).get failedLabel = "true" := by
  have hlimit : maxOpenEvents ≤ (world.built config id answers).opens.length := by
    obtain ⟨event, hevent, hincluded, _, hfull | huncovered⟩ := htruncates
    · exact absurd hfull (Nat.not_lt_zero _)
    · rw [maxOpenEvents_le_built_iff]
      by_contra hshort
      change coversOpen ((distinctOpens config (world.mounts id)
        (world.batch id answers).openEvents).take (maxOpenEvents + 1)) event = false at huncovered
      rw [List.take_of_length_le (by omega), coversOpen_distinctOpens hevent hincluded]
        at huncovered
      cases huncovered
  unfold newLabels Labels.get
  simp only [hlimit, if_true]
  split
  · rw [Finmap.lookup_insert_of_ne _ (by decide), Finmap.lookup_insert]
    rfl
  · rw [Finmap.lookup_insert]
    rfl

section Update

variable {existing : Versioned ApplicationProfile}

/-- Marking a marked profile is no write, so that the pass still presents the stored
version. -/
theorem limitPatched_of_failed (hget : world.profiles.get (id.profileKey config) = some existing)
    (hfailed : existing.value.labels.get failedLabel = "true") :
    world.limitPatched config id answers = world.profiles := by
  unfold World.limitPatched
  rw [VersionedStore.patch_of_get _ hget, mark_of_marked hfailed, VersionedStore.write_value]
  split
  · cases answers.limitPatchFails <;> rfl
  · rfl

/-- Marking a profile that is not marked makes the pass present a stale version. -/
theorem update_limitPatched_eq_none {value : ApplicationProfile}
    (hsucceed : answers.limitPatchFails = false)
    (hget : world.profiles.get (id.profileKey config) = some existing)
    (hfailed : existing.value.labels.get failedLabel ≠ "true")
    (hlimit : maxOpenEvents ≤ (world.built config id answers).opens.length) :
    (world.limitPatched config id answers).update (id.profileKey config) value
      existing.version = none := by
  have hput : world.limitPatched config id answers =
      world.profiles.put (id.profileKey config) (existing.value.mark failedLabel) := by
    unfold World.limitPatched
    rw [if_pos hlimit, VersionedStore.patch_of_get _ hget, hsucceed]
    exact if_neg (mark_ne_of_unmarked hfailed)
  rw [hput]
  exact ((VersionedStore.faithful_of_get hget).stale_put _).update_eq_none value

end Update

/-- What is left out after a pass that wrote its batch was truncated. -/
theorem exists_leftOut_iff {next : World} {exit : PassExit}
    (hpass : collectContainerEvents config id answers world = (.returned exit, next))
    (hwritten : exit = .created ∨ exit = .updated) :
    (∃ event ∈ (world.batch id answers).openEvents,
      ignoresOpen config (world.mounts id) event = false ∧
        coversOpen (next.stored config id).opens event = false) ↔
      Truncates config (world.stored config id).opens
        ⟨world.mounts id, world.batch id answers⟩ := by
  simp only [opens_of_pass hpass hwritten, coversOpen_storedAfter]
  rfl

/-- After an update the profile is marked failed if it was before and kept its labels. -/
theorem failedMarked_updated_iff {next : World}
    (hpass : collectContainerEvents config id answers world = (.returned .updated, next)) :
    ∃ state existing, world.containers.lookup id = some state ∧
      world.profiles.get (id.profileKey config) = some existing ∧
      (FailedMarked config id next ↔ existing.value.labels.get failedLabel = "true" ∧
        (state.attached = true ∨ existing.value.labels.get partialLabel ≠ "true")) := by
  obtain ⟨state, existing, version, hlookup, hget, _, hafter⟩ := updated_profile hpass
  refine ⟨state, existing, hlookup, hget, ?_⟩
  have hlabels : FailedMarked config id next ↔
      (clearPartial state existing.value).labels.get failedLabel = "true" := by
    unfold FailedMarked
    rw [hafter]
    simp [mergedProfile, mergeApplicationProfiles]
  rw [hlabels]
  by_cases hkept : state.attached = true ∨ existing.value.labels.get partialLabel ≠ "true"
  · rw [clearPartial_of_kept hkept, and_iff_left hkept]
  · obtain ⟨hattached, hmarked⟩ := not_or.mp hkept
    rw [clearPartial_labels (Bool.eq_false_iff.mpr hattached) (not_not.mp hmarked)]
    exact iff_of_false (by decide) fun h => hkept h.2

theorem truncationFlagged_iff_of_exit {exit : PassExit} {next : World}
    (hpass : collectContainerEvents config id answers world = (.returned exit, next)) :
    TruncationFlagged config id answers world ↔
      (exit = .created ∨ exit = .updated ∨ exit = .updateFailed →
        ∀ event ∈ (world.batch id answers).openEvents,
          ignoresOpen config (world.mounts id) event = false →
          coversOpen (next.stored config id).opens event = false →
          FailedMarked config id next) := by
  constructor
  · exact fun hflagged => hflagged exit next hpass
  · intro hflagged exit' next' hpass'
    obtain ⟨hexit, rfl⟩ := Prod.mk.inj (hpass.symm.trans hpass')
    cases hexit
    exact hflagged

/-- A pass that wrote its batch has to flag what it truncated. -/
theorem truncationFlagged_iff_of_written {exit : PassExit} {next : World}
    (hpass : collectContainerEvents config id answers world = (.returned exit, next))
    (hwritten : exit = .created ∨ exit = .updated) :
    TruncationFlagged config id answers world ↔
      (Truncates config (world.stored config id).opens
        ⟨world.mounts id, world.batch id answers⟩ → FailedMarked config id next) := by
  rw [truncationFlagged_iff_of_exit hpass, ← exists_leftOut_iff hpass hwritten]
  constructor
  · intro hflagged ⟨event, hevent, hincluded, huncovered⟩
    exact hflagged (hwritten.imp_right Or.inl) event hevent hincluded huncovered
  · intro hflagged _ event hevent hincluded huncovered
    exact hflagged ⟨event, hevent, hincluded, huncovered⟩

/-- The condition concerns the profile that a pass with events meets, unless it is final. -/
theorem truncationForeseen_iff {state : ContainerState} {existing : Versioned ApplicationProfile}
    (hlookup : world.containers.lookup id = some state)
    (hbatch : shouldProcessEvents (world.batch id answers) = true)
    (hget : world.profiles.get (id.profileKey config) = some existing)
    (hfinal : ¬ existing.value.isFinal) :
    TruncationForeseen config id answers world ↔
      (Truncates config (world.stored config id).opens
          ⟨world.mounts id, world.batch id answers⟩ →
        if existing.value.labels.get failedLabel = "true" then
          state.attached = true ∨ existing.value.labels.get partialLabel ≠ "true"
        else maxOpenEvents ≤
          (distinctOpens config (world.mounts id) (world.batch id answers).openEvents).length) := by
  constructor
  · intro hforeseen
    exact hforeseen state existing hlookup hbatch hget hfinal
  · intro hforeseen state' existing' hlookup' _ hget' _
    obtain rfl := Option.some.inj (hlookup.symm.trans hlookup')
    obtain rfl := Option.some.inj (hget.symm.trans hget')
    exact hforeseen

/-- Only the mark of the limit makes an update fail whose requests succeed. -/
theorem limit_of_update_eq_none {existing : Versioned ApplicationProfile}
    {value : ApplicationProfile}
    (hget : world.profiles.get (id.profileKey config) = some existing)
    (hrejected : (world.limitPatched config id answers).update (id.profileKey config) value
      existing.version = none) :
    existing.value.labels.get failedLabel ≠ "true" ∧
      maxOpenEvents ≤ (world.built config id answers).opens.length := by
  have haccepted : ¬ world.limitPatched config id answers = world.profiles := by
    intro hsame
    rw [hsame, VersionedStore.update_of_get _ hget] at hrejected
    cases hrejected
  constructor
  · intro hfailed
    exact haccepted (limitPatched_of_failed hget hfailed)
  · by_contra hshort
    exact haccepted (if_neg hshort)

/-- A pass whose requests succeed flags what it leaves out exactly in the cases where the
label is there for another reason. -/
theorem truncationFlagged_iff_foreseen (hsucceed : answers.Succeed) :
    TruncationFlagged config id answers world ↔ TruncationForeseen config id answers world := by
  obtain ⟨exit, next, hpass, houtcome⟩ :=
    collectContainerEvents_outcome config id answers world
  cases houtcome with
  | notTracked hlookup =>
      rw [truncationFlagged_iff_of_exit hpass]
      refine iff_of_true (by simp) ?_
      intro state existing hstate
      rw [hlookup] at hstate
      cases hstate
  | noEvents state hlookup hbatch =>
      rw [truncationFlagged_iff_of_exit hpass]
      refine iff_of_true (by simp) ?_
      intro state existing _ hprocess
      rw [hbatch] at hprocess
      cases hprocess
  | created state profiles hlookup hbatch hget hcreate =>
      rw [hsucceed.get] at hget
      have habsent : world.profiles.get (id.profileKey config) = none := hget
      have hempty : (world.stored config id).opens = [] := by
        simp [World.stored, World.entry, habsent]
      rw [truncationFlagged_iff_of_written hpass (.inl rfl), hempty]
      refine iff_of_true ?_ ?_
      · intro htruncates
        obtain ⟨state, version, _, _, hafter⟩ := created_profile hpass
        exact ⟨_, hafter, failed_of_created htruncates⟩
      · intro state existing _ _ hexisting
        rw [habsent] at hexisting
        cases hexisting
  | createFailed state hlookup hbatch hget hcreate =>
      rw [truncationFlagged_iff_of_exit hpass]
      refine iff_of_true (by simp) ?_
      intro state existing _ _ hexisting
      rw [hsucceed.get, hexisting] at hget
      cases hget
  | final state existing hlookup hbatch hget hfinal =>
      rw [truncationFlagged_iff_of_exit hpass]
      refine iff_of_true (by simp) ?_
      intro state' existing' _ _ hexisting hnotFinal
      obtain rfl := Option.some.inj (hexisting.symm.trans (of_request hget))
      exact absurd hfinal hnotFinal
  | updated state existing profiles hlookup hbatch hget hfinal hupdate =>
      obtain ⟨state', existing', hstate', hexisting', hmarked⟩ := failedMarked_updated_iff hpass
      obtain rfl := Option.some.inj (hstate'.symm.trans hlookup)
      obtain rfl := Option.some.inj (hexisting'.symm.trans (of_request hget))
      rw [truncationFlagged_iff_of_written hpass (.inr rfl),
        truncationForeseen_iff hlookup hbatch hexisting' hfinal, hmarked]
      apply imp_congr_right
      intro _
      split
      next hfailed => exact and_iff_right hfailed
      next hfailed =>
        refine iff_of_false (fun h => hfailed h.1) ?_
        intro hlimit
        -- The mark of the limit would have made this update fail.
        rw [← maxOpenEvents_le_built_iff] at hlimit
        have haccepted := of_request hupdate
        rw [update_limitPatched_eq_none hsucceed.limitPatch hexisting' hfailed hlimit]
          at haccepted
        cases haccepted
  | updateFailed state existing hlookup hbatch hget hfinal hupdate =>
      rw [truncationFlagged_iff_of_exit hpass,
        truncationForeseen_iff hlookup hbatch (of_request hget) hfinal]
      refine iff_of_true (fun _ _ _ _ _ => failedMarked_of_updateFailed hsucceed.failedPatch
        (outcome_of_collect hpass)) ?_
      intro _
      rw [hsucceed.update] at hupdate
      obtain ⟨hfailed, hlimit⟩ := limit_of_update_eq_none (of_request hget) hupdate
      rw [if_neg hfailed, ← maxOpenEvents_le_built_iff]
      exact hlimit

/-! ## Sequences of passes -/

/-- A pass of the container, or whatever happens between two of them. -/
inductive PassLabel
  | pass (answers : Answers)
  | others (world : World)

/-- Whole passes of a container, one after the other, in any surroundings. -/
def passMachine (config : CollectorManagerConfig) (id : ContainerId) :
    Machine World PassLabel where
  init _ := True
  step world
    | .pass answers => some (collectContainerEvents config id answers world).2
    | .others next => some next

def PassLabel.Succeeds : PassLabel → Prop
  | .pass answers => answers.Succeed
  | .others _ => True

/-- The condition is one on the passes. -/
def PassLabel.OnPass (condition : Answers → World → Prop) (world : World) : PassLabel → Prop
  | .pass answers => condition answers world
  | .others _ => True

/-- In a sequence of passes whose requests succeed, every pass flags what it leaves out
exactly if every pass that truncates its batch finds the label where it stays, or sets it. -/
theorem truncation_flagged_iff (config : CollectorManagerConfig) (id : ContainerId)
    (world : World) (labels : List PassLabel)
    (hsucceed : (passMachine config id).Along (fun _ label => label.Succeeds) world labels) :
    (passMachine config id).Along
        (PassLabel.OnPass fun answers world => TruncationFlagged config id answers world)
        world labels ↔
      (passMachine config id).Along
        (PassLabel.OnPass fun answers world => TruncationForeseen config id answers world)
        world labels := by
  refine (passMachine config id).along_congr hsucceed fun state label hlabel => ?_
  cases label with
  | pass answers => exact truncationFlagged_iff_foreseen hlabel
  | others next => exact Iff.rfl

/-! ## Many files, a few at a time -/

/-- A pass of a short batch updates a stored profile that is not final. -/
theorem updated_of_short {state : ContainerState} {existing : Versioned ApplicationProfile}
    (hsucceed : answers.Succeed) (hlookup : world.containers.lookup id = some state)
    (hbatch : shouldProcessEvents (world.batch id answers) = true)
    (hget : world.profiles.get (id.profileKey config) = some existing)
    (hfinal : ¬ existing.value.isFinal)
    (hshort : (world.built config id answers).opens.length < maxOpenEvents) :
    ∃ next, collectContainerEvents config id answers world = (.returned .updated, next) := by
  obtain ⟨exit, next, hpass, houtcome⟩ :=
    collectContainerEvents_outcome config id answers world
  have hrequest : request answers.getFails (world.profiles.get (id.profileKey config)) =
      some existing := by
    rw [hsucceed.get]
    exact hget
  cases houtcome with
  | notTracked hnone =>
      rw [hlookup] at hnone
      cases hnone
  | noEvents _ _ hempty =>
      rw [hbatch] at hempty
      cases hempty
  | created _ _ _ _ hnone _ =>
      rw [hrequest] at hnone
      cases hnone
  | createFailed _ _ _ hnone _ =>
      rw [hrequest] at hnone
      cases hnone
  | final _ _ _ _ hget' hfinal' =>
      obtain rfl := Option.some.inj (hrequest.symm.trans hget')
      exact absurd hfinal' hfinal
  | updated => exact ⟨_, hpass⟩
  | updateFailed _ _ _ _ hget' _ hupdate =>
      obtain rfl := Option.some.inj (hrequest.symm.trans hget')
      -- Below the limit the pass marks nothing, so the version that it read is still the latest.
      have hsame : world.limitPatched config id answers = world.profiles :=
        if_neg (Nat.not_le_of_lt hshort)
      rw [hsucceed.update, hsame, VersionedStore.update_of_get _ hget] at hupdate
      cases hupdate

/-- The container's open bucket holds the events. -/
def World.withOpened (world : World) (events : List OpenEvent) : World :=
  { world with eventSink := { world.eventSink with
      opens := ⟨[], ⟨some (Finmap.singleton (nginx.bucketOf "open") events)⟩⟩ } }

def filesFrom (start count : Nat) : List OpenEvent :=
  (List.range' start count).map openedFile

/-- So many files are stored for the container, in a profile without labels. -/
structure FilesStored (count : Nat) (world : World) : Prop where
  tracked : world.containers.lookup nginx = some ⟨true, false⟩
  mounts : world.mounts nginx = []
  profile : ∃ existing, world.profiles.get (nginx.profileKey mainConfig) = some existing ∧
    existing.value.labels = ∅
  opens : (world.stored mainConfig nginx).opens = (filesFrom 0 count).map OpenCalls.ofEvent

theorem filesFrom_append (first second : Nat) :
    filesFrom 0 first ++ filesFrom first second = filesFrom 0 (first + second) := by
  have hrange := @List.range'_append_1 0 first second
  rw [Nat.zero_add] at hrange
  unfold filesFrom
  rw [← List.map_append, hrange]

theorem filesFrom_distinct (start count : Nat) :
    ((filesFrom start count).map (·.pathName)).Nodup := by
  unfold filesFrom
  rw [List.map_map]
  exact List.Nodup.map openedFile_injective (List.nodup_range' 1)

/-- Some more files fill a batch of their own. -/
theorem take_distinctOpens_filesFrom (start count : Nat) (hcount : count ≤ maxOpenEvents) :
    (distinctOpens mainConfig [] (filesFrom start count)).take (maxOpenEvents + 1) =
      (filesFrom start count).map OpenCalls.ofEvent := by
  rw [← foldl_addOpen]
  exact foldl_addOpen_of_distinct [] rfl rfl (filesFrom_distinct start count)
    (by simpa [filesFrom] using hcount)

theorem not_covered_filesFrom {start count other : Nat} (hother : other ∉ List.range' start count) :
    coversOpen ((filesFrom start count).map OpenCalls.ofEvent) (openedFile other) = false := by
  rw [← Bool.not_eq_true, coversOpen_iff]
  rintro ⟨element, helement, hpath, _⟩
  obtain ⟨event, hevent, rfl⟩ := List.mem_map.mp helement
  obtain ⟨n, hn, rfl⟩ := List.mem_map.mp hevent
  exact hother (openedFile_injective hpath ▸ hn)

/-- Files that are new are added to those stored, as long as these are within the limit. -/
theorem addedOpens_filesFrom {stored count : Nat} (hcount : count ≤ maxOpenEvents) :
    addedOpens mainConfig ((filesFrom 0 stored).map OpenCalls.ofEvent)
        ⟨[], { openEvents := filesFrom stored count }⟩ =
      (filesFrom stored count).map OpenCalls.ofEvent := by
  unfold addedOpens
  rw [take_distinctOpens_filesFrom stored count hcount]
  apply List.filter_eq_self.mpr
  intro opens hopens
  obtain ⟨event, hevent, rfl⟩ := List.mem_map.mp hopens
  obtain ⟨n, hn, rfl⟩ := List.mem_map.mp hevent
  have hnew : n ∉ List.range' 0 stored := by
    rw [List.mem_range'_1] at hn ⊢
    omega
  exact congrArg not (not_covered_filesFrom hnew)

/-- An update leaves the container tracked and the mounts cached. -/
theorem updated_keeps {next : World}
    (hpass : collectContainerEvents config id answers world = (.returned .updated, next)) :
    next.containers = world.containers ∧ next.podMountCache = world.podMountCache := by
  cases outcome_of_collect hpass with
  | updated => exact ⟨rfl, rfl⟩

theorem FilesStored.withOpened {stored : Nat} (hstored : FilesStored stored world)
    (events : List OpenEvent) : FilesStored stored (world.withOpened events) :=
  ⟨hstored.tracked, hstored.mounts, hstored.profile, hstored.opens⟩

/-- A pass of some more files stores them, if those before are within the limit. -/
theorem FilesStored.pass {stored count : Nat} (hstored : FilesStored stored world)
    (hopened : (world.batch nginx {}).openEvents = filesFrom stored count)
    (hlimit : stored ≤ maxOpenEvents) (hcount : count < maxOpenEvents) (hsome : 0 < count) :
    FilesStored (stored + count) (collectContainerEvents mainConfig nginx {} world).2 := by
  have hlength : ∀ start count, (filesFrom start count).length = count := by simp [filesFrom]
  have hadded := @addedOpens_filesFrom stored count hcount.le
  obtain ⟨existing, hget, hlabels⟩ := hstored.profile
  have hbatch : shouldProcessEvents (world.batch nginx {}) = true := by
    simp [shouldProcessEvents, hopened, hlength, hsome]
  have hunmarked : ∀ label, existing.value.labels.get label ≠ "true" := by
    intro label
    rw [hlabels, Labels.get, Finmap.lookup_empty]
    decide
  have hbuilt : (world.built mainConfig nginx {}).opens =
      (filesFrom stored count).map OpenCalls.ofEvent := by
    rw [← take_distinctOpens_filesFrom stored count hcount.le, ← hopened, ← hstored.mounts]
    exact @opens_built_eq_take mainConfig ⟨world.mounts nginx, world.batch nginx {}⟩ "app"
  obtain ⟨next, hpass⟩ := @updated_of_short mainConfig nginx {} world _ existing
    ⟨rfl, rfl, rfl, rfl, rfl, rfl, rfl⟩ hstored.tracked hbatch hget (hunmarked finalLabel)
    (by rw [hbuilt, List.length_map, hlength]; exact hcount)
  obtain ⟨hcontainers, hcache⟩ := updated_keeps hpass
  obtain ⟨state, existing', version, _, hget', _, hafter⟩ := updated_profile hpass
  obtain rfl := Option.some.inj (hget.symm.trans hget')
  have hopens := opens_of_pass hpass (Or.inr rfl)
  rw [hpass]
  refine ⟨?_, ?_, ?_, ?_⟩
  · rw [hcontainers]
    exact hstored.tracked
  · rw [World.mounts, hcache]
    exact hstored.mounts
  · refine ⟨_, hafter, ?_⟩
    simp only [mergedProfile, mergeApplicationProfiles]
    rw [clearPartial_of_kept (Or.inr (hunmarked partialLabel)), hlabels]
  -- There is room, so every new file is added.
  · have hroom : ¬ maxOpenEvents < ((filesFrom 0 stored).map OpenCalls.ofEvent).length := by
      rw [List.length_map, hlength]
      exact hlimit.not_gt
    rw [hopens, hstored.opens, storedAfter, if_neg hroom, hstored.mounts]
    have hsame : addedOpens mainConfig ((filesFrom 0 stored).map OpenCalls.ofEvent)
        ⟨[], world.batch nginx {}⟩ = (filesFrom stored count).map OpenCalls.ofEvent := by
      rw [← hadded, addedOpens, addedOpens, ← hopened]
    rw [hsame, ← List.map_append, filesFrom_append]

/-- A pass of one more file leaves it out, and does not say so. -/
theorem FilesStored.not_flagged {stored : Nat} (hstored : FilesStored stored world)
    (hopened : (world.batch nginx {}).openEvents = filesFrom stored 1)
    (hfull : maxOpenEvents < stored) : ¬ TruncationFlagged mainConfig nginx {} world := by
  rw [truncationFlagged_iff_foreseen ⟨rfl, rfl, rfl, rfl, rfl, rfl, rfl⟩]
  intro hforeseen
  obtain ⟨existing, hget, hlabels⟩ := hstored.profile
  have hunmarked : ∀ label, existing.value.labels.get label ≠ "true" := by
    intro label
    rw [hlabels, Labels.get, Finmap.lookup_empty]
    decide
  have hbatch : shouldProcessEvents (world.batch nginx {}) = true := by
    simp [shouldProcessEvents, hopened, filesFrom]
  have hfile : openedFile stored ∈ (world.batch nginx {}).openEvents := by
    simp [hopened, filesFrom]
  have hlimit := hforeseen _ existing hstored.tracked hbatch hget (hunmarked finalLabel)
    ⟨openedFile stored, hfile, rfl, ?_, Or.inl ?_⟩
  · rw [if_neg (hunmarked failedLabel), hopened] at hlimit
    have hlength : (distinctOpens mainConfig (world.mounts nginx) (filesFrom stored 1)).length ≤
        0 + 1 := length_foldl_appendWhen_le _ _
    exact absurd (hlimit.trans hlength) (by decide)
  · rw [hstored.opens]
    exact not_covered_filesFrom (by simp)
  · rw [hstored.opens]
    simpa [filesFrom] using hfull

/-- Batches of opened files, each followed by its pass. -/
def openingRun : World → List (List OpenEvent) → List PassLabel
  | _, [] => []
  | world, events :: rest => .others (world.withOpened events) :: .pass {} ::
      openingRun (collectContainerEvents mainConfig nginx {} (world.withOpened events)).2 rest

theorem openingRun_succeeds (batches : List (List OpenEvent)) : ∀ world,
    (passMachine mainConfig nginx).Along (fun _ label => label.Succeeds) world
      (openingRun world batches) := by
  induction batches with
  | nil => exact fun _ => trivial
  | cons events rest ih =>
      intro world
      refine ⟨trivial, ?_⟩
      intro opened hopened
      obtain rfl := Option.some.inj hopened
      refine ⟨⟨rfl, rfl, rfl, rfl, rfl, rfl, rfl⟩, ?_⟩
      intro next hnext
      obtain rfl := Option.some.inj hnext
      exact ih _

theorem along_openingRun {condition : World → PassLabel → Prop} {events : List OpenEvent}
    {rest : List (List OpenEvent)}
    (halong : (passMachine mainConfig nginx).Along condition world
      (openingRun world (events :: rest))) :
    condition (world.withOpened events) (.pass {}) ∧
      (passMachine mainConfig nginx).Along condition
        (collectContainerEvents mainConfig nginx {} (world.withOpened events)).2
        (openingRun (collectContainerEvents mainConfig nginx {} (world.withOpened events)).2
          rest) := by
  obtain ⟨_, hpass⟩ := halong
  obtain ⟨hcondition, hrest⟩ := hpass _ rfl
  exact ⟨hcondition, hrest _ rfl⟩

theorem batch_withOpened (events : List OpenEvent) :
    ((world.withOpened events).batch nginx {}).openEvents = events := by
  rw [World.batch_openEvents]
  rfl

/-- Batches of 1, 9999 and 1 files fill the list one over the limit; the next file is left
out of a profile that is not marked failed. -/
theorem truncation_unflagged :
    ¬ ∀ (config : CollectorManagerConfig) (id : ContainerId) (world : World)
      (labels : List PassLabel),
      (passMachine config id).Along (fun _ label => label.Succeeds) world labels →
      (passMachine config id).Along
        (PassLabel.OnPass fun answers world => TruncationFlagged config id answers world)
        world labels := by
  intro hclaim
  have hfirst : FilesStored 1 (collectContainerEvents mainConfig nginx {}
      (trackedWorld.withOpened (filesFrom 0 1))).2 :=
    ⟨rfl, rfl, ⟨_, rfl, rfl⟩, rfl⟩
  have halong := hclaim mainConfig nginx trackedWorld
    (openingRun trackedWorld [filesFrom 0 1, filesFrom 1 9999, filesFrom 10000 1,
      filesFrom 10001 1]) (openingRun_succeeds _ _)
  obtain ⟨_, halong⟩ := along_openingRun halong
  generalize (collectContainerEvents mainConfig nginx {}
    (trackedWorld.withOpened (filesFrom 0 1))).2 = world at hfirst halong
  obtain ⟨_, halong⟩ := along_openingRun halong
  have hsecond := (hfirst.withOpened (filesFrom 1 9999)).pass (batch_withOpened _)
    (by decide) (by decide) (by decide)
  obtain ⟨_, halong⟩ := along_openingRun halong
  have hthird := (hsecond.withOpened (filesFrom 10000 1)).pass (batch_withOpened _)
    (by decide) (by decide) (by decide)
  obtain ⟨hflagged, _⟩ := along_openingRun halong
  exact (hthird.withOpened (filesFrom 10001 1)).not_flagged (batch_withOpened _) (by decide)
    hflagged

/-- The pass that creates the profile flags whatever it leaves out. -/
theorem first_pass_flagged :
    (passMachine mainConfig nginx).Along
      (PassLabel.OnPass fun answers world => TruncationFlagged mainConfig nginx answers world)
      trackedWorld (openingRun trackedWorld [filesFrom 0 20000]) := by
  refine (truncation_flagged_iff mainConfig nginx trackedWorld _
    (openingRun_succeeds [filesFrom 0 20000] trackedWorld)).mpr ⟨trivial, ?_⟩
  intro opened hopened
  obtain rfl := Option.some.inj hopened
  refine ⟨?_, fun _ _ => trivial⟩
  intro state existing _ _ hget
  cases hget

end Kapprofiler.Collector
