import Kapprofiler.Collector.Sessions

/-! # The capabilities of a stored profile

Building a batch records every capability under its syscall. Merging extends the
entry of a known syscall from a copy taken before the loop, so each capability
that is added replaces the one added before it: of several new capabilities of
one syscall only the last is stored.
-/

namespace Kapprofiler.Collector

open Tracing Foundation

variable {config : CollectorManagerConfig} {id : ContainerId}

/-- The capabilities of the first entry of a syscall. -/
def capabilitiesOf : List CapabilitiesCalls → String → List String
  | [], _ => []
  | call :: rest, syscall =>
      if call.syscall = syscall then call.capabilities else capabilitiesOf rest syscall

def DistinctSyscalls (calls : List CapabilitiesCalls) : Prop :=
  (calls.map (·.syscall)).Nodup

theorem capabilitiesOf_eq_nil {calls : List CapabilitiesCalls} {syscall : String}
    (habsent : syscall ∉ calls.map (·.syscall)) : capabilitiesOf calls syscall = [] := by
  induction calls with
  | nil => rfl
  | cons call rest ih =>
      rw [List.map_cons, List.mem_cons, not_or] at habsent
      rw [capabilitiesOf, if_neg (Ne.symm habsent.1), ih habsent.2]

theorem capabilitiesOf_append {first second : List CapabilitiesCalls} {syscall : String} :
    capabilitiesOf (first ++ second) syscall =
      if syscall ∈ first.map (·.syscall) then capabilitiesOf first syscall
      else capabilitiesOf second syscall := by
  induction first with
  | nil => rfl
  | cons call rest ih =>
      by_cases hcall : call.syscall = syscall
      · simp [capabilitiesOf, hcall]
      · simp [capabilitiesOf, hcall, Ne.symm hcall, ih]

/-- With one entry for each syscall, the first is the only one. -/
theorem mem_capabilitiesOf_iff {calls : List CapabilitiesCalls} (hdistinct : DistinctSyscalls calls)
    {syscall capability : String} :
    capability ∈ capabilitiesOf calls syscall ↔
      ∃ call ∈ calls, call.syscall = syscall ∧ capability ∈ call.capabilities := by
  induction calls with
  | nil => simp [capabilitiesOf]
  | cons call rest ih =>
      obtain ⟨hfirst, hrest⟩ := List.nodup_cons.mp hdistinct
      by_cases hcall : call.syscall = syscall
      · subst hcall
        have hothers : ∀ other ∈ rest, other.syscall ≠ call.syscall := by
          intro other hother heq
          exact hfirst (List.mem_map.mpr ⟨other, hother, heq⟩)
        simp only [capabilitiesOf, if_true, List.mem_cons, exists_eq_or_imp, true_and]
        constructor
        · exact Or.inl
        · rintro (h | ⟨other, hother, heq, _⟩)
          · exact h
          · exact absurd heq (hothers other hother)
      · simp [capabilitiesOf, hcall, ih hrest]

/-! ## Building a batch -/

theorem addCapability_syscalls {calls : List CapabilitiesCalls} {event : CapabilitiesEvent} :
    (addCapability calls event).map (·.syscall) =
      if event.syscall ∈ calls.map (·.syscall) then calls.map (·.syscall)
      else calls.map (·.syscall) ++ [event.syscall] := by
  induction calls with
  | nil => simp [addCapability]
  | cons call rest ih =>
      by_cases hcall : call.syscall = event.syscall
      · simp only [addCapability, hcall, if_true]
        split <;> simp [hcall]
      · simp only [addCapability, hcall, if_false, List.map_cons, ih, List.mem_cons,
          Ne.symm hcall, false_or]
        split <;> rfl

theorem capabilitiesOf_addCapability {calls : List CapabilitiesCalls} {event : CapabilitiesEvent}
    {syscall capability : String} :
    capability ∈ capabilitiesOf (addCapability calls event) syscall ↔
      capability ∈ capabilitiesOf calls syscall ∨
        event.syscall = syscall ∧ event.capabilityName = capability := by
  induction calls with
  | nil =>
      by_cases hevent : event.syscall = syscall
      · simp [addCapability, capabilitiesOf, hevent, eq_comm]
      · simp [addCapability, capabilitiesOf, hevent]
  | cons call rest ih =>
      by_cases hcall : call.syscall = event.syscall
      · by_cases hsyscall : event.syscall = syscall
        · by_cases hknown : event.capabilityName ∈ call.capabilities
          · simp only [addCapability, hcall, hknown, if_true, capabilitiesOf, hsyscall, true_and]
            constructor
            · exact Or.inl
            · rintro (h | rfl)
              · exact h
              · exact hknown
          · simp [addCapability, hcall, hknown, capabilitiesOf, hsyscall, eq_comm]
        · simp only [addCapability, hcall, if_true, capabilitiesOf, hsyscall, if_false, false_and,
            or_false]
          split <;> simp [hcall, hsyscall]
      · simp only [addCapability, hcall, if_false, capabilitiesOf]
        by_cases hsyscall : call.syscall = syscall
        · have hother : event.syscall ≠ syscall := fun h => hcall (hsyscall.trans h.symm)
          simp [hsyscall, hother]
        · simp [hsyscall, ih]

theorem distinctSyscalls_nil : DistinctSyscalls [] :=
  List.nodup_nil

theorem DistinctSyscalls.addCapability {calls : List CapabilitiesCalls}
    (hdistinct : DistinctSyscalls calls) (event : CapabilitiesEvent) :
    DistinctSyscalls (addCapability calls event) := by
  unfold DistinctSyscalls
  rw [addCapability_syscalls]
  split
  · exact hdistinct
  next hnew =>
    rw [List.nodup_append]
    refine ⟨hdistinct, List.nodup_singleton _, ?_⟩
    intro syscall hsyscall other hother
    rw [List.mem_singleton.mp hother]
    rintro rfl
    exact hnew hsyscall

theorem foldl_addCapability (events : List CapabilitiesEvent) {calls : List CapabilitiesCalls}
    (hcalls : DistinctSyscalls calls) :
    DistinctSyscalls (events.foldl addCapability calls) ∧
    (∀ syscall, syscall ∈ (events.foldl addCapability calls).map (·.syscall) ↔
      syscall ∈ calls.map (·.syscall) ∨ ∃ event ∈ events, event.syscall = syscall) ∧
    ∀ syscall capability, capability ∈ capabilitiesOf (events.foldl addCapability calls) syscall ↔
      capability ∈ capabilitiesOf calls syscall ∨
        ∃ event ∈ events, event.syscall = syscall ∧ event.capabilityName = capability := by
  induction events generalizing calls with
  | nil => simp [hcalls]
  | cons event rest ih =>
      obtain ⟨hdistinct, hsyscalls, hcapabilities⟩ := ih (hcalls.addCapability event)
      refine ⟨hdistinct, ?_, ?_⟩
      · intro syscall
        have hadded : syscall ∈ (addCapability calls event).map (·.syscall) ↔
            syscall ∈ calls.map (·.syscall) ∨ event.syscall = syscall := by
          rw [addCapability_syscalls]
          split
          next hknown => exact ⟨Or.inl, fun h => h.elim id fun heq => heq ▸ hknown⟩
          next => simp [eq_comm]
        rw [List.foldl_cons, hsyscalls, hadded]
        simp [or_assoc]
      · intro syscall capability
        rw [List.foldl_cons, hcapabilities, capabilitiesOf_addCapability]
        simp [or_assoc]

/-- The batch reports the capability under the syscall. -/
def Batch.Reports (batch : Batch) (syscall capability : String) : Prop :=
  ∃ event ∈ batch.totalEvents.capabilitiesEvents,
    event.syscall = syscall ∧ event.capabilityName = capability

/-- A built batch has one entry for each syscall, with the capabilities reported. -/
theorem capabilities_built (config : CollectorManagerConfig) (batch : Batch)
    (container : String) :
    DistinctSyscalls (batch.built config container).capabilities ∧
    (∀ syscall, syscall ∈ (batch.built config container).capabilities.map (·.syscall) ↔
      ∃ capability, batch.Reports syscall capability) ∧
    ∀ syscall capability,
      capability ∈ capabilitiesOf (batch.built config container).capabilities syscall ↔
        batch.Reports syscall capability := by
  obtain ⟨hdistinct, hsyscalls, hcapabilities⟩ :=
    foldl_addCapability batch.totalEvents.capabilitiesEvents distinctSyscalls_nil
  refine ⟨hdistinct, ?_, ?_⟩
  · intro syscall
    refine (hsyscalls syscall).trans ?_
    simp [Batch.Reports]
  · intro syscall capability
    refine (hcapabilities syscall capability).trans ?_
    simp [capabilitiesOf, Batch.Reports]

/-! ## Merging a batch -/

/-- A new name overwrites what the loop has made so far, an old one leaves it alone. -/
theorem mergeCapabilityNames_eq (existing new : List String) :
    mergeCapabilityNames existing new =
      match (new.filter fun cap => cap ∉ existing).getLast? with
      | none => existing
      | some last => existing ++ [last] := by
  have hfold : ∀ (caps merged : List String),
      caps.foldl (fun merged cap => if cap ∈ existing then merged else existing ++ [cap]) merged =
        match (caps.filter fun cap => cap ∉ existing).getLast? with
        | none => merged
        | some last => existing ++ [last] := by
    intro caps
    induction caps with
    | nil => intro merged; rfl
    | cons cap rest ih =>
        intro merged
        rw [List.foldl_cons, ih]
        by_cases hcap : cap ∈ existing
        · simp [hcap]
        · rw [List.filter_cons_of_pos (by simpa using hcap), List.getLast?_cons]
          simp only [hcap, if_false]
          cases (rest.filter fun cap => cap ∉ existing).getLast? <;> rfl
  exact hfold new existing

/-- Of the capabilities that the existing entry lacks, only the last is added. -/
theorem mem_mergeCapabilityNames {existing new : List String} {capability : String} :
    capability ∈ mergeCapabilityNames existing new ↔
      capability ∈ existing ∨
        (new.filter fun cap => cap ∉ existing).getLast? = some capability := by
  rw [mergeCapabilityNames_eq]
  cases hlast : (new.filter fun cap => cap ∉ existing).getLast? with
  | none => simp
  | some last => simp [eq_comm]

/-- The existing names stay in front, and the name that is added is not one of them. -/
theorem mergeCapabilityNames_cases (existing new : List String) :
    mergeCapabilityNames existing new = existing ∨
      ∃ last, last ∉ existing ∧ mergeCapabilityNames existing new = existing ++ [last] := by
  rw [mergeCapabilityNames_eq]
  cases hlast : (new.filter fun cap => cap ∉ existing).getLast? with
  | none => exact Or.inl rfl
  | some last =>
      obtain ⟨_, hnew⟩ := List.mem_filter.mp (List.mem_of_getLast? hlast)
      exact Or.inr ⟨last, of_decide_eq_true hnew, rfl⟩

/-- Merging the names loses nothing exactly if at most one of them is new. -/
theorem mergeCapabilityNames_complete_iff {existing new : List String} :
    (∀ capability, capability ∈ mergeCapabilityNames existing new ↔
      capability ∈ existing ∨ capability ∈ new) ↔
    ∀ first ∈ new, ∀ second ∈ new, first ∉ existing → second ∉ existing → first = second := by
  simp only [mem_mergeCapabilityNames]
  constructor
  · intro hcomplete first hfirst second hsecond hfirstNew hsecondNew
    have hlastFirst := ((hcomplete first).mpr (Or.inr hfirst)).resolve_left hfirstNew
    have hlastSecond := ((hcomplete second).mpr (Or.inr hsecond)).resolve_left hsecondNew
    exact Option.some.inj (hlastFirst.symm.trans hlastSecond)
  · intro hone capability
    constructor
    · rintro (hold | hlast)
      · exact Or.inl hold
      · exact Or.inr (List.mem_filter.mp (List.mem_of_getLast? hlast)).1
    · rintro (hold | hnew)
      · exact Or.inl hold
      · by_cases hold : capability ∈ existing
        · exact Or.inl hold
        · right
          have hmem : capability ∈ new.filter fun cap => cap ∉ existing :=
            List.mem_filter.mpr ⟨hnew, by simpa using hold⟩
          rw [List.getLast?_eq_some_getLast (List.ne_nil_of_mem hmem)]
          have hlast := List.mem_filter.mp (List.getLast_mem (List.ne_nil_of_mem hmem))
          exact congrArg some (hone _ hlast.1 capability hnew (by simpa using hlast.2) hold)

theorem mergeCapability_syscalls {capability : CapabilitiesCalls}
    {calls : List CapabilitiesCalls} :
    (mergeCapability capability calls).map (·.syscall) = calls.map (·.syscall) := by
  induction calls with
  | nil => rfl
  | cons call rest ih =>
      simp only [mergeCapability]
      split <;> simp [ih]

theorem capabilitiesOf_mergeCapability {capability : CapabilitiesCalls}
    {calls : List CapabilitiesCalls} {syscall : String}
    (hknown : capability.syscall ∈ calls.map (·.syscall)) :
    capabilitiesOf (mergeCapability capability calls) syscall =
      if capability.syscall = syscall then
        mergeCapabilityNames (capabilitiesOf calls syscall) capability.capabilities
      else capabilitiesOf calls syscall := by
  induction calls with
  | nil => simp at hknown
  | cons call rest ih =>
      by_cases hcall : call.syscall = capability.syscall
      · by_cases hsyscall : capability.syscall = syscall
        · simp [mergeCapability, capabilitiesOf, hcall, hsyscall]
        · simp [mergeCapability, capabilitiesOf, hcall, hsyscall]
      · have hrest : capability.syscall ∈ rest.map (·.syscall) := by
          rw [List.map_cons, List.mem_cons] at hknown
          exact hknown.resolve_left (Ne.symm hcall)
        by_cases hsyscall : call.syscall = syscall
        · subst hsyscall
          simp [mergeCapability, capabilitiesOf, hcall, Ne.symm hcall]
        · simp [mergeCapability, capabilitiesOf, hcall, hsyscall, ih hrest]

/-- The syscalls known before the merge keep their places and are merged by name; the
entries of the other syscalls are appended as they are. -/
theorem foldl_placeCapability (known appended : List CapabilitiesCalls)
    {new : List CapabilitiesCalls} (hdistinct : DistinctSyscalls new) :
    (new.foldl placeCapability (known, appended)).1.map (·.syscall) = known.map (·.syscall) ∧
    (new.foldl placeCapability (known, appended)).2 =
      appended ++ new.filter (fun call => call.syscall ∉ known.map (·.syscall)) ∧
    ∀ syscall ∈ known.map (·.syscall),
      capabilitiesOf (new.foldl placeCapability (known, appended)).1 syscall =
        mergeCapabilityNames (capabilitiesOf known syscall) (capabilitiesOf new syscall) := by
  induction new generalizing known appended with
  | nil => simp [capabilitiesOf, mergeCapabilityNames]
  | cons call rest ih =>
      obtain ⟨hcall, hrest⟩ := List.nodup_cons.mp hdistinct
      have hany : (known.any fun existing => existing.syscall = call.syscall) = true ↔
          call.syscall ∈ known.map (·.syscall) := by simp
      rw [List.foldl_cons]
      unfold placeCapability
      by_cases hknown : call.syscall ∈ known.map (·.syscall)
      · -- Merged in place; as the syscalls are distinct, the rest does not touch it again.
        rw [if_pos (hany.mpr hknown)]
        obtain ⟨hsyscalls, happended, hcapabilities⟩ :=
          ih (mergeCapability call known) appended hrest
        rw [mergeCapability_syscalls] at hsyscalls happended hcapabilities
        refine ⟨hsyscalls, ?_, ?_⟩
        · rw [List.filter_cons_of_neg (by simpa using hknown)]
          exact happended
        · intro syscall hsyscall
          refine (hcapabilities syscall hsyscall).trans ?_
          rw [capabilitiesOf_mergeCapability hknown, capabilitiesOf]
          split
          next heq =>
            have hnone : capabilitiesOf rest syscall = [] := capabilitiesOf_eq_nil (heq ▸ hcall)
            rw [hnone]
            rfl
          next => rfl
      · -- Appended: the known syscalls see the rest of the batch only.
        rw [if_neg (hany.not.mpr hknown)]
        obtain ⟨hsyscalls, happended, hcapabilities⟩ :=
          ih known (appended ++ [call]) hrest
        refine ⟨hsyscalls, ?_, ?_⟩
        · rw [List.filter_cons_of_pos (by simpa using hknown)]
          refine happended.trans ?_
          simp
        · intro syscall hsyscall
          refine (hcapabilities syscall hsyscall).trans ?_
          rw [capabilitiesOf, if_neg]
          rintro rfl
          exact hknown hsyscall

theorem capabilitiesOf_filter {calls : List CapabilitiesCalls} {known : List String}
    {syscall : String} (hsyscall : syscall ∉ known) :
    capabilitiesOf (calls.filter fun call => call.syscall ∉ known) syscall =
      capabilitiesOf calls syscall := by
  induction calls with
  | nil => rfl
  | cons call rest ih =>
      by_cases hcall : call.syscall ∈ known
      · have hother : call.syscall ≠ syscall := fun h => hsyscall (h ▸ hcall)
        rw [List.filter_cons_of_neg (by simpa using hcall), capabilitiesOf, if_neg hother, ih]
      · rw [List.filter_cons_of_pos (by simpa using hcall), capabilitiesOf, capabilitiesOf, ih]

/-- Merging keeps one entry for each syscall, and is complete but for the names that
are merged into the entry of a known syscall. -/
theorem capabilities_merged {existing new : List CapabilitiesCalls}
    (hexisting : DistinctSyscalls existing) (hnew : DistinctSyscalls new) :
    DistinctSyscalls (mergeCapabilities existing new) ∧
    (∀ syscall, syscall ∈ (mergeCapabilities existing new).map (·.syscall) ↔
      syscall ∈ existing.map (·.syscall) ∨ syscall ∈ new.map (·.syscall)) ∧
    ∀ syscall, capabilitiesOf (mergeCapabilities existing new) syscall =
      if syscall ∈ existing.map (·.syscall) then
        mergeCapabilityNames (capabilitiesOf existing syscall) (capabilitiesOf new syscall)
      else capabilitiesOf new syscall := by
  obtain ⟨hsyscalls, happended, hcapabilities⟩ :=
    foldl_placeCapability existing [] hnew
  unfold mergeCapabilities
  rw [happended, List.nil_append]
  refine ⟨?_, ?_, ?_⟩
  · unfold DistinctSyscalls
    rw [List.map_append, hsyscalls, List.nodup_append]
    refine ⟨hexisting, (List.filter_sublist.map _).nodup hnew, ?_⟩
    -- The appended entries are those of syscalls that were not known.
    intro syscall hknown other hother
    obtain ⟨call, hcall, rfl⟩ := List.mem_map.mp hother
    rintro rfl
    exact of_decide_eq_true (List.mem_filter.mp hcall).2 hknown
  · intro syscall
    rw [List.map_append, hsyscalls, List.mem_append]
    by_cases hknown : syscall ∈ existing.map (·.syscall)
    · simp only [hknown, true_or]
    · simp only [hknown, false_or, List.mem_map, List.mem_filter]
      constructor
      · rintro ⟨call, ⟨hcall, _⟩, heq⟩
        exact ⟨call, hcall, heq⟩
      · rintro ⟨call, hcall, rfl⟩
        exact ⟨call, ⟨hcall, by simpa using hknown⟩, rfl⟩
  · intro syscall
    rw [capabilitiesOf_append, hsyscalls]
    split
    next hknown => exact hcapabilities syscall hknown
    next hnew => exact capabilitiesOf_filter hnew

/-! ## Whole sessions -/

/-- The profile has the capability under the syscall. -/
def HasCapability (profile : ContainerProfile) (syscall capability : String) : Prop :=
  ∃ call ∈ profile.capabilities, call.syscall = syscall ∧ capability ∈ call.capabilities

/-- The profile has exactly the capabilities that some batch reports. -/
def CapabilitiesKept (batches : List Batch) (profile : ContainerProfile) : Prop :=
  ∀ syscall capability, HasCapability profile syscall capability ↔
    ∃ batch ∈ batches, batch.Reports syscall capability

/-- Under a syscall reported before, the batch reports at most one capability that
was not reported under it before. -/
def AtMostOneNew (earlier : List Batch) (batch : Batch) : Prop :=
  ∀ syscall, (∃ before ∈ earlier, ∃ capability, before.Reports syscall capability) →
    ∀ first second, batch.Reports syscall first → batch.Reports syscall second →
      (∀ before ∈ earlier, ¬ before.Reports syscall first) →
      (∀ before ∈ earlier, ¬ before.Reports syscall second) → first = second

/-- A stored profile has one entry for each reported syscall. -/
theorem Session.syscalls {world : World} {passes : List Collection}
    (hsession : Session config id world passes) :
    DistinctSyscalls (world.stored config id).capabilities ∧
    ∀ syscall, syscall ∈ (world.stored config id).capabilities.map (·.syscall) ↔
      ∃ pass ∈ passes, ∃ capability, pass.batch.Reports syscall capability := by
  have hinvariant := hsession.invariant (fun batches profile =>
    DistinctSyscalls profile.capabilities ∧
      ∀ syscall, syscall ∈ profile.capabilities.map (·.syscall) ↔
        ∃ batch ∈ batches, ∃ capability, batch.Reports syscall capability) ?_ ?_ ?_
  · refine ⟨hinvariant.1, ?_⟩
    intro syscall
    refine (hinvariant.2 syscall).trans ?_
    simp
  · exact ⟨List.nodup_nil, by simp⟩
  · intro batch
    obtain ⟨hdistinct, hsyscalls, _⟩ := capabilities_built config batch id.container
    exact ⟨hdistinct, by simpa using hsyscalls⟩
  · rintro batches profile batch ⟨hdistinct, hsyscalls⟩
    obtain ⟨hbuilt, hbuiltSyscalls, _⟩ :=
      capabilities_built config batch id.container
    obtain ⟨hmerged, hmergedSyscalls, _⟩ := capabilities_merged hdistinct hbuilt
    refine ⟨hmerged, ?_⟩
    intro syscall
    refine (hmergedSyscalls syscall).trans ?_
    rw [hsyscalls, hbuiltSyscalls]
    simp [or_and_right, exists_or]

/-- As long as nothing was lost before, a pass keeps all capabilities exactly if its
batch brings at most one that is new under a known syscall. -/
theorem Session.capabilities_pass {world next : World} {passes : List Collection}
    {answers : Answers} {exit : PassExit} (hsession : Session config id world passes)
    (hpass : collectContainerEvents config id answers world = (.returned exit, next))
    (hwritten : exit = .created ∨ exit = .updated)
    (hkept : CapabilitiesKept (passes.map (·.batch)) (world.stored config id)) :
    CapabilitiesKept (passes.map (·.batch) ++ [⟨world.mounts id, world.batch id answers⟩])
        (next.stored config id) ↔
      AtMostOneNew (passes.map (·.batch)) ⟨world.mounts id, world.batch id answers⟩ := by
  obtain ⟨hdistinct, hsyscalls⟩ := hsession.syscalls
  obtain ⟨hbuilt, hbuiltSyscalls, hreports⟩ := capabilities_built config
    ⟨world.mounts id, world.batch id answers⟩ id.container
  generalize hbatch : (⟨world.mounts id, world.batch id answers⟩ : Batch) = batch at *
  have hbuild : world.built config id answers = batch.built config id.container := by
    rw [← hbatch]
    rfl
  rcases hsession.stored_pass hpass hwritten with ⟨rfl, hstored⟩ | hstored
  · -- The first pass stores the batch itself, and nothing was reported before.
    refine iff_of_true ?_ ?_
    · intro syscall capability
      rw [HasCapability, hstored, hbuild, ← mem_capabilitiesOf_iff hbuilt, hreports]
      simp
    · rintro syscall ⟨before, hbefore, _⟩
      cases hbefore
  · obtain ⟨hmergedDistinct, _, hmerged⟩ := capabilities_merged hdistinct hbuilt
    have hknown : ∀ syscall, syscall ∈ (world.stored config id).capabilities.map (·.syscall) ↔
        ∃ before ∈ passes.map (·.batch), ∃ capability, before.Reports syscall capability := by
      intro syscall
      refine (hsyscalls syscall).trans ?_
      simp
    have hbefore : ∀ syscall capability,
        capability ∈ capabilitiesOf (world.stored config id).capabilities syscall ↔
          ∃ before ∈ passes.map (·.batch), before.Reports syscall capability :=
      fun syscall capability =>
        (mem_capabilitiesOf_iff hdistinct).trans (hkept syscall capability)
    have hafter : ∀ syscall capability,
        HasCapability (next.stored config id) syscall capability ↔
          capability ∈ capabilitiesOf (mergeCapabilities (world.stored config id).capabilities
            (batch.built config id.container).capabilities) syscall := by
      intro syscall capability
      rw [mem_capabilitiesOf_iff hmergedDistinct, HasCapability, hstored, hbuild]
      rfl
    -- Only the names merged under a known syscall can get lost.
    have hall : CapabilitiesKept (passes.map (·.batch) ++ [batch]) (next.stored config id) ↔
        ∀ syscall ∈ (world.stored config id).capabilities.map (·.syscall), ∀ capability,
          capability ∈ mergeCapabilityNames
              (capabilitiesOf (world.stored config id).capabilities syscall)
              (capabilitiesOf (batch.built config id.container).capabilities syscall) ↔
            capability ∈ capabilitiesOf (world.stored config id).capabilities syscall ∨
              capability ∈
                capabilitiesOf (batch.built config id.container).capabilities syscall := by
      have hunion : ∀ syscall capability,
          (∃ before ∈ passes.map (·.batch) ++ [batch], before.Reports syscall capability) ↔
            capability ∈ capabilitiesOf (world.stored config id).capabilities syscall ∨
              capability ∈
                capabilitiesOf (batch.built config id.container).capabilities syscall := by
        intro syscall capability
        rw [hbefore, hreports]
        simp [or_and_right, exists_or]
      unfold CapabilitiesKept
      constructor
      · intro hkept' syscall hsyscall capability
        rw [← hunion, ← hkept', hafter, hmerged, if_pos hsyscall]
      · intro hmergedAll syscall capability
        rw [hafter, hunion, hmerged]
        split
        next hsyscall => exact hmergedAll syscall hsyscall capability
        next hsyscall => rw [capabilitiesOf_eq_nil hsyscall]; simp
    rw [hall]
    refine forall_congr' fun syscall => ?_
    rw [hknown, mergeCapabilityNames_complete_iff]
    simp only [hbefore, hreports]
    refine imp_congr_right fun _ => ?_
    constructor
    · intro hone first second hfirst hsecond hfirstNew hsecondNew
      exact hone first hfirst second hsecond
        (fun ⟨before, hmem, hreport⟩ => hfirstNew before hmem hreport)
        (fun ⟨before, hmem, hreport⟩ => hsecondNew before hmem hreport)
    · intro hone first hfirst second hsecond hfirstNew hsecondNew
      exact hone first second hfirst hsecond
        (fun before hmem hreport => hfirstNew ⟨before, hmem, hreport⟩)
        (fun before hmem hreport => hsecondNew ⟨before, hmem, hreport⟩)

/-- Every pass of a session leaves exactly the capabilities reported so far if and
only if no batch brings two new capabilities under a syscall reported before. -/
theorem capabilities_kept_iff {world : World} {passes : List Collection}
    (hsession : Session config id world passes) :
    EachAfter (fun earlier pass =>
        CapabilitiesKept ((earlier ++ [pass]).map (·.batch)) pass.stored) passes ↔
      EachAfter (fun earlier pass => AtMostOneNew (earlier.map (·.batch)) pass.batch) passes := by
  -- A pass can be judged alone as long as nothing was lost before it, so the
  -- induction also carries that the profile stored last is complete.
  have hstrong : (EachAfter (fun earlier pass =>
        CapabilitiesKept ((earlier ++ [pass]).map (·.batch)) pass.stored) passes ↔
      EachAfter (fun earlier pass => AtMostOneNew (earlier.map (·.batch)) pass.batch) passes) ∧
      (EachAfter (fun earlier pass =>
        CapabilitiesKept ((earlier ++ [pass]).map (·.batch)) pass.stored) passes →
        CapabilitiesKept (passes.map (·.batch)) (world.stored config id)) := by
    induction hsession with
    | start world hfresh =>
        refine ⟨iff_of_true ?_ ?_, ?_⟩
        · intro earlier pass later hsplit
          simp at hsplit
        · intro earlier pass later hsplit
          simp at hsplit
        · intro _ syscall capability
          simp [World.stored, hfresh, HasCapability]
    | environment next _ hsame ih =>
        rw [World.stored, hsame]
        exact ih
    | @pass world next passes answers exit hsession hpass hwritten ih =>
        simp only [eachAfter_concat, List.map_append, List.map_cons, List.map_nil] at ih ⊢
        refine ⟨?_, fun h => h.2⟩
        constructor
        · rintro ⟨hearlier, hlast⟩
          exact ⟨ih.1.mp hearlier,
            (hsession.capabilities_pass hpass hwritten (ih.2 hearlier)).mp hlast⟩
        · rintro ⟨hearlier, hlast⟩
          have hbefore := ih.1.mpr hearlier
          exact ⟨hbefore,
            (hsession.capabilities_pass hpass hwritten (ih.2 hbefore)).mpr hlast⟩
  exact hstrong.1

/-! ## Two sessions of one container -/

/-- The container's capabilities bucket holds one event for each capability. -/
def World.withCapabilities (world : World) (capabilities : List String) : World :=
  { world with eventSink := { world.eventSink with
      capabilities := ⟨[], ⟨some (Finmap.singleton (nginx.bucketOf "capabilities")
        (capabilities.map fun capability =>
          { syscall := "bind", capabilityName := capability }))⟩⟩ } }

theorem nginx_capabilities_kept : ∃ world passes, Session mainConfig nginx world passes ∧
    passes.length = 2 ∧ EachAfter (fun earlier pass =>
      CapabilitiesKept ((earlier ++ [pass]).map (·.batch)) pass.stored) passes := by
  have hfirst := (session_trackedWorld mainConfig).afterPass
    (trackedWorld.withCapabilities ["NET_RAW"]) {} rfl (Or.inl (by decide))
  generalize hworld : World.afterPass mainConfig {} (trackedWorld.withCapabilities ["NET_RAW"]) =
    world at hfirst
  have hsecond := hfirst.afterPass (world.withCapabilities ["NET_ADMIN"]) {} rfl
    (Or.inr (by rw [← hworld]; decide))
  refine ⟨_, _, hsecond, rfl, (capabilities_kept_iff hsecond).mpr ?_⟩
  rw [eachAfter_concat, eachAfter_concat]
  refine ⟨⟨?_, ?_⟩, ?_⟩
  · intro earlier pass later hsplit
    simp at hsplit
  · rintro syscall ⟨before, hbefore, _⟩
    cases hbefore
  · rintro syscall _ first second ⟨event, hevent, _, rfl⟩ ⟨other, hother, _, rfl⟩ _ _
    rw [List.mem_singleton.mp hevent, List.mem_singleton.mp hother]

/-- Of two new capabilities of a known syscall the first is not stored. -/
theorem nginx_capability_lost : ∃ world passes, Session mainConfig nginx world passes ∧
    ¬ EachAfter (fun earlier pass =>
      CapabilitiesKept ((earlier ++ [pass]).map (·.batch)) pass.stored) passes := by
  have hfirst := (session_trackedWorld mainConfig).afterPass
    (trackedWorld.withCapabilities ["NET_RAW"]) {} rfl (Or.inl (by decide))
  generalize hworld : World.afterPass mainConfig {} (trackedWorld.withCapabilities ["NET_RAW"]) =
    world at hfirst
  have hsecond := hfirst.afterPass (world.withCapabilities ["NET_ADMIN", "SYS_ADMIN"]) {} rfl
    (Or.inr (by rw [← hworld]; decide))
  refine ⟨_, _, hsecond, ?_⟩
  intro hkept
  have hlost := (hkept [_] _ [] rfl "bind" "NET_ADMIN").mpr
    ⟨_, List.mem_cons_of_mem _ List.mem_cons_self, _, List.mem_cons_self, rfl, rfl⟩
  rw [← hworld] at hlost
  revert hlost
  unfold HasCapability
  decide

end Kapprofiler.Collector
