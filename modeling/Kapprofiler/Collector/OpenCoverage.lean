import Kapprofiler.Collector.Truncation

/-! # Opens that are stored

While no batch and no stored list is over the limit, the opens of a container are the
ones that are not ignored, up to those that another one with the same path and all their
flags stands for. The test compares with the batch when a batch is built, and with the
stored list when it is merged.
-/

namespace Kapprofiler.Collector

open Tracing Foundation

variable {config : CollectorManagerConfig} {id : ContainerId}

/-- Some prefix to ignore is one of the path. -/
def CollectorManagerConfig.ignoresPath (config : CollectorManagerConfig) (path : String) : Bool :=
  config.ignorePrefixes.any (hasPrefix path)

/-- The entry has the same path and all flags of the event. -/
def OpenCalls.Covers (entry : OpenCalls) (event : OpenEvent) : Prop :=
  entry.path = event.pathName ∧ event.flags ⊆ entry.flags

/-- The entries stand for the events whose paths are not ignored and for nothing else, and
each of them is needed when it is added. -/
structure StandFor (ignores : String → Bool) (opens : List OpenCalls)
    (events : List OpenEvent) : Prop where
  covered : ∀ event ∈ events, ignores event.pathName = false →
    ∃ entry ∈ opens, entry.Covers event
  included : ∀ entry ∈ opens, ignores entry.path = false
  opened : ∀ entry ∈ opens, ∃ event ∈ events, entry = OpenCalls.ofEvent event
  needed : opens.Pairwise fun earlier later => ¬ earlier.Covers later.toEvent

/-- The mounts of the batch and the config ignore these paths. -/
def Batch.Ignores (config : CollectorManagerConfig) (ignores : String → Bool) (batch : Batch) :
    Prop :=
  ∀ event, ignoresOpen config batch.mounts event = ignores event.pathName

/-- Where the opens below mounts are kept, only the prefixes are ignored. -/
theorem Batch.ignores_of_mountsKept (hmounts : config.ignoreMounts = false) (batch : Batch) :
    batch.Ignores config config.ignoresPath := by
  intro event
  unfold ignoresOpen CollectorManagerConfig.ignoresPath
  rw [hmounts, Bool.false_and, Bool.or_false]

theorem coversOpen_eq_false_iff {opens : List OpenCalls} {event : OpenEvent} :
    coversOpen opens event = false ↔ ∀ entry ∈ opens, ¬ entry.Covers event := by
  rw [← Bool.not_eq_true, coversOpen_iff]
  simp only [OpenCalls.Covers, not_exists, not_and]

/-- No distinct open is covered by one before it. -/
theorem pairwise_distinctOpens (mounts : List String) (events : List OpenEvent) :
    (distinctOpens config mounts events).Pairwise fun earlier later =>
      ¬ earlier.Covers later.toEvent := by
  apply pairwise_foldl_appendWhen
  · intro kept event hadmits entry hentry
    rw [Bool.and_eq_true, Bool.not_eq_true', Bool.not_eq_true'] at hadmits
    exact coversOpen_eq_false_iff.mp hadmits.2 entry hentry
  · exact List.Pairwise.nil

/-- A batch within the limit is built into all its distinct opens. -/
theorem take_distinctOpens {mounts : List String} {events : List OpenEvent}
    (hlimit : events.length ≤ maxOpenEvents) :
    (distinctOpens config mounts events).take (maxOpenEvents + 1) =
      distinctOpens config mounts events := by
  apply List.take_of_length_le
  have hlength : (distinctOpens config mounts events).length ≤ 0 + events.length :=
    length_foldl_appendWhen_le events []
  omega

/-- A pass within the limits adds what its batch needs. -/
theorem StandFor.pass {ignores : String → Bool} {opens : List OpenCalls}
    {events : List OpenEvent} (hstand : StandFor ignores opens events) {batch : Batch}
    (hignores : batch.Ignores config ignores)
    (hbatch : batch.totalEvents.openEvents.length ≤ maxOpenEvents)
    (hopens : opens.length ≤ maxOpenEvents) :
    StandFor ignores (storedAfter config opens batch)
      (events ++ batch.totalEvents.openEvents) := by
  -- Within the limit nothing is cut off, so all new opens that are not covered are added.
  have hadded : addedOpens config opens batch =
      (distinctOpens config batch.mounts batch.totalEvents.openEvents).filter fun entry =>
        !coversOpen opens entry.toEvent := by
    rw [addedOpens, take_distinctOpens hbatch]
  have hdistinct : ∀ entry ∈ addedOpens config opens batch,
      entry ∈ distinctOpens config batch.mounts batch.totalEvents.openEvents := by
    intro entry hentry
    rw [hadded] at hentry
    exact List.mem_of_mem_filter hentry
  rw [storedAfter, if_neg (Nat.not_lt_of_le hopens)]
  constructor
  · intro event hevent hincluded
    have hcovers : coversOpen (opens ++ addedOpens config opens batch) event = true := by
      rw [hadded, coversOpen_append_filter, Bool.or_eq_true]
      rcases List.mem_append.mp hevent with hbefore | hnew
      · exact Or.inl (coversOpen_iff.mpr (hstand.covered event hbefore hincluded))
      · right
        apply coversOpen_distinctOpens hnew
        rw [hignores, hincluded]
    exact coversOpen_iff.mp hcovers
  · intro entry hentry
    rcases List.mem_append.mp hentry with hbefore | hnew
    · exact hstand.included entry hbefore
    · have hignored := not_ignored_of_mem (hdistinct entry hnew)
      rwa [hignores] at hignored
  · intro entry hentry
    rcases List.mem_append.mp hentry with hbefore | hnew
    · obtain ⟨event, hevent, heq⟩ := hstand.opened entry hbefore
      exact ⟨event, List.mem_append_left _ hevent, heq⟩
    · rcases mem_foldl_appendWhen (hdistinct entry hnew) with hnone | ⟨event, hevent, heq⟩
      · cases hnone
      · exact ⟨event, List.mem_append_right _ hevent, heq⟩
  · refine List.pairwise_append.mpr ⟨hstand.needed, ?_, ?_⟩
    · rw [hadded]
      exact (pairwise_distinctOpens batch.mounts batch.totalEvents.openEvents).filter _
    · intro earlier hearlier later hlater
      rw [hadded, List.mem_filter, Bool.not_eq_true'] at hlater
      exact coversOpen_eq_false_iff.mp hlater.2 earlier hearlier

/-- A limit on what every pass stored is one on what is stored. -/
theorem Session.opens_le {world : World} {passes : List Collection}
    (hsession : Session config id world passes)
    (hstored : ∀ collection ∈ passes, collection.stored.opens.length ≤ maxOpenEvents) :
    (world.stored config id).opens.length ≤ maxOpenEvents := by
  rw [World.stored, hsession.entry_eq_getLast?]
  cases hlast : passes.getLast? with
  | none => exact Nat.zero_le _
  | some last => exact hstored last (List.mem_of_getLast? hlast)

theorem collected_concat_openEvents (passes : List Collection) (last : Collection) :
    (collected (passes ++ [last])).openEvents =
      (collected passes).openEvents ++ last.batch.totalEvents.openEvents := by
  simp [collected]

/-- While no batch and no stored list is over the limit. -/
theorem Session.standFor {ignores : String → Bool} {world : World} {passes : List Collection}
    (hsession : Session config id world passes)
    (hignores : ∀ pass ∈ passes, pass.batch.Ignores config ignores)
    (hdrained : ∀ pass ∈ passes, pass.batch.totalEvents.openEvents.length ≤ maxOpenEvents)
    (hstored : ∀ pass ∈ passes, pass.stored.opens.length ≤ maxOpenEvents) :
    StandFor ignores (world.stored config id).opens (collected passes).openEvents := by
  induction hsession with
  | start world hfresh =>
      rw [World.stored, hfresh]
      refine ⟨?_, ?_, ?_, List.Pairwise.nil⟩ <;>
        · intro entry hentry
          cases hentry
  | environment next _ hsame ih =>
      rw [World.stored, hsame]
      exact ih hignores hdrained hstored
  | pass answers hsession hpass hwritten ih =>
      rw [List.forall_mem_append, List.forall_mem_singleton] at hignores hdrained hstored
      have hnext := (ih hignores.1 hdrained.1 hstored.1).pass hignores.2 hdrained.2
        (hsession.opens_le hstored.1)
      rw [opens_of_pass hpass hwritten, collected_concat_openEvents]
      exact hnext

/-- In every session within the limits that keeps the opens below mounts, the stored opens
cover the events that have no prefix to ignore, have no such prefix themselves, are opens
of the events, and none of them is covered by one before it. -/
theorem stored_opens_standFor (hmounts : config.ignoreMounts = false) {world : World}
    {passes : List Collection} (hsession : Session config id world passes)
    (hdrained : ∀ pass ∈ passes, pass.batch.totalEvents.openEvents.length ≤ maxOpenEvents)
    (hstored : ∀ pass ∈ passes, pass.stored.opens.length ≤ maxOpenEvents) :
    StandFor config.ignoresPath (world.stored config id).opens (collected passes).openEvents :=
  hsession.standFor (fun pass _ => pass.batch.ignores_of_mountsKept hmounts) hdrained hstored

/-- A file opened with some flags. -/
def opened (path : String) (flags : List String) : OpenEvent :=
  { pathName := path, flags := flags }

/-- A batch of opens, with `/proc` to be ignored. -/
def hostsBatch : List OpenEvent :=
  [opened "/etc/hosts" ["O_RDONLY"], opened "/proc/stat" ["O_RDONLY"],
    opened "/etc/hosts" ["O_RDONLY", "O_CLOEXEC"], opened "/etc/hosts" ["O_CLOEXEC"]]

/-- Of these, one is stored by then and one is to be ignored. -/
def passwdBatch : List OpenEvent :=
  [opened "/etc/hosts" ["O_CLOEXEC"], opened "/proc/self/maps" ["O_RDONLY"],
    opened "/etc/passwd" ["O_RDONLY"]]

def procIgnored : CollectorManagerConfig := { mainConfig with ignorePrefixes := ["/proc"] }

/-- The first pass stores two of its four opens, the second one of three. -/
theorem hosts_opens_standFor : ∃ world passes, Session procIgnored nginx world passes ∧
    passes.length = 2 ∧ (world.stored procIgnored nginx).opens =
      [⟨"/etc/hosts", ["O_RDONLY"]⟩, ⟨"/etc/hosts", ["O_RDONLY", "O_CLOEXEC"]⟩,
        ⟨"/etc/passwd", ["O_RDONLY"]⟩] ∧
    StandFor procIgnored.ignoresPath (world.stored procIgnored nginx).opens
      (collected passes).openEvents := by
  have hfirst := (session_trackedWorld procIgnored).afterPass (trackedWorld.withOpened hostsBatch)
    {} rfl (Or.inl (by decide))
  generalize hworld : World.afterPass procIgnored {} (trackedWorld.withOpened hostsBatch) = world
    at hfirst
  have hsecond := hfirst.afterPass (world.withOpened passwdBatch) {} rfl
    (Or.inr (by rw [← hworld]; decide))
  refine ⟨_, _, hsecond, rfl, by rw [← hworld]; decide, ?_⟩
  refine stored_opens_standFor rfl hsecond ?_ ?_
  · rw [List.nil_append, List.forall_mem_append, List.forall_mem_singleton,
      List.forall_mem_singleton, ← hworld]
    decide
  · rw [List.nil_append, List.forall_mem_append, List.forall_mem_singleton,
      List.forall_mem_singleton, ← hworld]
    decide

end Kapprofiler.Collector
