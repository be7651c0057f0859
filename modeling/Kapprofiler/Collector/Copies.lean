import Kapprofiler.Collector.Steps

/-! # Copies of stored profiles

A pass keeps the profile it read until it writes the merged one back. The copy is
of a profile that was not final, and it stays faithful whatever the other calls
and the finalizer do in between. An accepted update therefore replaces exactly
the object it was computed from.
-/

namespace Kapprofiler.Collector

open Foundation

variable {config : CollectorManagerConfig}

/-- What can happen to the stored profiles in one step, short of a deletion. -/
inductive StoreWrite (store next : ProfileStore) : Prop
  | create {key : String × String} {profile : ApplicationProfile}
      (hcreate : store.create key profile = some next)
  | mark {key : String × String} {label : String}
      (hlabel : label = failedLabel ∨ label = finalLabel)
      (hpatch : store.patch key (ApplicationProfile.mark label) = some next)
  | update {key : String × String} {profile : ApplicationProfile}
      {copy : Versioned ApplicationProfile} (hcopy : store.Faithful key copy)
      (hfinal : ¬ copy.value.isFinal) (hupdate : store.update key profile copy.version = some next)

theorem StoreWrite.faithful {store next : ProfileStore} {key : String × String}
    {copy : Versioned ApplicationProfile} (hwrite : StoreWrite store next)
    (hcopy : store.Faithful key copy) : next.Faithful key copy := by
  cases hwrite with
  | create hcreate => exact hcopy.create hcreate
  | mark _ hpatch => exact hcopy.patch hpatch
  | update _ _ hupdate => exact hcopy.update hupdate

/-- Every copy held by a pass is faithful and of a profile that is not final. -/
def CopiesFaithful (config : CollectorManagerConfig) (system : System) : Prop :=
  ∀ id state copy, Call.collectContainerEvents id state ∈ system.calls →
    state.copy = some copy →
    system.world.profiles.Faithful (id.profileKey config) copy ∧ ¬ copy.value.isFinal

theorem finalizeProfile_profiles (answers : Answers) (world : World) (nameSpace podName : String) :
    (finalizeProfile config answers world nameSpace podName).profiles = world.profiles ∨
      StoreWrite world.profiles
        (finalizeProfile config answers world nameSpace podName).profiles := by
  unfold finalizeProfile
  split
  next hpatch => exact Or.inr (.mark (Or.inr rfl) (of_request hpatch))
  next => exact Or.inl rfl

/-- The object that the next step of the call deletes. -/
def Call.deletes (config : CollectorManagerConfig) (answers : Answers) :
    Call → Option (String × String)
  | .deleteProfile nameSpace podName false =>
      if answers.deleteFails then none else some (config.podProfileKey nameSpace podName)
  | _ => none

theorem deleteProfile_profiles (answers : Answers) (world : World) (nameSpace podName : String) :
    (deleteProfile config answers world nameSpace podName).profiles = world.profiles ∨
      ∃ key, (Call.deleteProfile nameSpace podName false).deletes config answers = some key ∧
        (deleteProfile config answers world nameSpace podName).profiles =
          world.profiles.delete key := by
  unfold deleteProfile Call.deletes
  cases answers.deleteFails with
  | true => exact Or.inl rfl
  | false => exact Or.inr ⟨_, rfl, rfl⟩

/-- A step of a call leaves the stored profiles alone, makes one of the writes, or
deletes the profile of a deleted pod. -/
theorem Call.step_profiles {system : System} {call next : Call} {answers : Answers}
    {after : World} (hcopies : CopiesFaithful config system) (hcall : call ∈ system.calls)
    (hstep : call.step config answers system.world = some (next, after)) :
    after.profiles = system.world.profiles ∨
      StoreWrite system.world.profiles after.profiles ∨
      ∃ key, call.deletes config answers = some key ∧
        after.profiles = system.world.profiles.delete key := by
  rcases Call.step_cases hstep with
    ⟨id, attach, state, started, rfl, hstarted, rfl, rfl⟩ | ⟨id, state, rfl, _, rfl, rfl⟩ |
    ⟨nameSpace, podName, rfl, rfl, rfl⟩ | ⟨nameSpace, podName, rfl, rfl, rfl⟩
  · rcases startStep_cases hstarted with ⟨_, _, _, _, _, heq⟩ | ⟨_, _, _, heq⟩
    · exact Or.inl heq
    · exact Or.inl heq
  · rcases collectStep_profiles config id answers system.world state with
      heq | ⟨_, _, _, hcreate⟩ | ⟨_, hpatch⟩ | ⟨found, containerProfile, existing, rfl, hupdate⟩
    · exact Or.inl heq
    · exact Or.inr (Or.inl (.create hcreate))
    · exact Or.inr (Or.inl (.mark (Or.inl rfl) hpatch))
    · obtain ⟨hfaithful, hfinal⟩ := hcopies id _ existing hcall rfl
      exact Or.inr (Or.inl (.update hfaithful hfinal hupdate))
  · exact (finalizeProfile_profiles answers system.world nameSpace podName).imp_right Or.inl
  · exact (deleteProfile_profiles answers system.world nameSpace podName).imp_right Or.inr

theorem step_profiles {system next : System} {label : Label}
    (hcopies : CopiesFaithful config system) (hstep : step config system label = some next) :
    next.world.profiles = system.world.profiles ∨
      StoreWrite system.world.profiles next.world.profiles ∨
      ∃ call answers current key, label = .advance call answers ∧
        system.calls[call]? = some current ∧ current.deletes config answers = some key ∧
        next.world.profiles = system.world.profiles.delete key := by
  rcases step_cases hstep with
    ⟨call, answers, current, after, rfl, hcurrent, hcall, _⟩ | ⟨launched, hchange, _⟩
  · rcases Call.step_profiles hcopies (List.mem_of_getElem? hcurrent) hcall with
      heq | hwrite | ⟨key, hdeletes, heq⟩
    · exact Or.inl heq
    · exact Or.inr (Or.inl hwrite)
    · exact Or.inr (Or.inr ⟨call, answers, current, key, rfl, hcurrent, hdeletes, heq⟩)
  · generalize next.world = world at hchange ⊢
    cases hchange with
    | stopped id => exact Or.inl (containerStopped_untracks system.world id).2.2.1
    | _ => exact Or.inl rfl

theorem step_faithful {system next : System} {label : Label} {key : String × String}
    {copy : Versioned ApplicationProfile} (hcopies : CopiesFaithful config system)
    (hstep : step config system label = some next)
    (hcopy : system.world.profiles.Faithful key copy) :
    next.world.profiles.Faithful key copy := by
  rcases step_profiles hcopies hstep with heq | hwrite | ⟨_, _, _, _, _, _, _, heq⟩
  · rwa [heq]
  · exact hwrite.faithful hcopy
  · rw [heq]
    exact hcopy.delete _

/-- A pass that holds a copy after a step held it before, or has just read it. -/
theorem step_copy {system next : System} {label : Label} {id : ContainerId} {state : PassState}
    {copy : Versioned ApplicationProfile} (hstep : step config system label = some next)
    (hcall : Call.collectContainerEvents id state ∈ next.calls)
    (hcopy : state.copy = some copy) :
    (∃ before, Call.collectContainerEvents id before ∈ system.calls ∧
        before.copy = some copy) ∨
      system.world.profiles.get (id.profileKey config) = some copy ∧ ¬ copy.value.isFinal := by
  rcases step_cases hstep with
    ⟨call, answers, current, after, _, hcurrent, hafter, hcalls⟩ | ⟨launched, hchange, hcalls⟩
  · rw [hcalls] at hcall
    rcases List.mem_or_eq_of_mem_set hcall with hmem | heq
    · exact Or.inl ⟨state, hmem, hcopy⟩
    · subst heq
      rcases Call.step_cases hafter with
        ⟨_, _, _, _, _, _, heq, _⟩ | ⟨other, before, rfl, _, heq, _⟩ | ⟨_, _, _, heq, _⟩ |
        ⟨_, _, _, heq, _⟩ <;> cases heq
      rcases collectStep_copy hcopy with hbefore | hread
      · exact Or.inl ⟨before, List.mem_of_getElem? hcurrent, hbefore⟩
      · exact Or.inr hread
  · rw [hcalls] at hcall
    have hmem : Call.collectContainerEvents id state ∈ system.calls := by
      refine (List.mem_append.mp hcall).resolve_right fun hlaunched => ?_
      have hstate := hchange.launches_lookup hlaunched
      rw [hstate] at hcopy
      cases hcopy
    exact Or.inl ⟨state, hmem, hcopy⟩

theorem step_copiesFaithful {system next : System} {label : Label}
    (hcopies : CopiesFaithful config system) (hstep : step config system label = some next) :
    CopiesFaithful config next := by
  intro id state copy hcall hcopy
  rcases step_copy hstep hcall hcopy with ⟨before, hbefore, hsame⟩ | ⟨hread, hfinal⟩
  · obtain ⟨hfaithful, hfinal⟩ := hcopies id before copy hbefore hsame
    exact ⟨step_faithful hcopies hstep hfaithful, hfinal⟩
  · exact ⟨step_faithful hcopies hstep (VersionedStore.faithful_of_get hread), hfinal⟩

theorem reachable_copiesFaithful {system : System}
    (hreach : (machine config).Reachable system) : CopiesFaithful config system := by
  refine Machine.Reachable.invariant ?_ (fun _ _ _ => step_copiesFaithful) hreach
  intro start hinit id state copy hcall
  rw [hinit.2.2.2.2] at hcall
  exact absurd hcall List.not_mem_nil

/-! ## Final profiles -/

/-- The condition on a step: it does not delete the object. -/
def KeepsObject (config : CollectorManagerConfig) (key : String × String) (system : System) :
    Label → Prop
  | .advance call answers => ∀ current ∈ system.calls[call]?,
      current.deletes config answers ≠ some key
  | _ => True

instance (key : String × String) (system : System) :
    DecidablePred (KeepsObject config key system)
  | .advance call answers => inferInstanceAs (Decidable (∀ current ∈ system.calls[call]?,
      current.deletes config answers ≠ some key))
  | .containerStarted _ _ | .containerStopped _ | .timerExpired _ | .sink _ | .podAdded _
  | .podUpdated _ | .podDeleted _ | .finalizationTimerExpired _
  | .finalizeApplicationProfile _ => isTrue trivial

/-- The object is stored, final, and has this spec. -/
def FinalWith (spec : ApplicationProfileSpec) (key : String × String) (store : ProfileStore) :
    Prop :=
  ∃ object, store.get key = some object ∧ object.value.spec = spec ∧ object.value.isFinal

/-- Setting the failed or the final label keeps a profile final. -/
theorem ApplicationProfile.isFinal_mark {profile : ApplicationProfile} {label : String}
    (hlabel : label = failedLabel ∨ label = finalLabel) (hfinal : profile.isFinal) :
    (profile.mark label).isFinal := by
  unfold isFinal mark Labels.get at *
  rcases hlabel with rfl | rfl
  · rw [Finmap.lookup_insert_of_ne _ (by decide)]
    exact hfinal
  · rw [Finmap.lookup_insert]
    rfl

/-- The marks touch only labels, a create needs an absent object, and an update
computed before the profile was final presents a stale version. -/
theorem StoreWrite.finalWith {store next : ProfileStore} {key : String × String}
    {spec : ApplicationProfileSpec} (hwrite : StoreWrite store next)
    (hfinal : FinalWith spec key store) : FinalWith spec key next := by
  obtain ⟨object, hobject, hspec, hlabel⟩ := hfinal
  cases hwrite with
  | @create other profile hcreate =>
      obtain ⟨habsent, rfl⟩ := VersionedStore.create_eq_some.mp hcreate
      have hne : key ≠ other := by
        rintro rfl
        rw [hobject] at habsent
        cases habsent
      exact ⟨object, by rwa [VersionedStore.put_get_of_ne _ _ hne], hspec, hlabel⟩
  | @mark other label hmark hpatch =>
      obtain ⟨stored, hstored, rfl⟩ := VersionedStore.patch_eq_some.mp hpatch
      by_cases hkey : key = other
      · subst other
        have heq : stored = object := Option.some.inj (hstored.symm.trans hobject)
        subst heq
        obtain ⟨version, hget⟩ := store.write_get (stored.value.mark label) hstored
        exact ⟨_, hget, hspec, ApplicationProfile.isFinal_mark hmark hlabel⟩
      · exact ⟨object, by rwa [VersionedStore.write_get_of_ne _ _ _ hkey], hspec, hlabel⟩
  | @update other profile copy hcopy hnot hupdate =>
      obtain ⟨hstored, rfl⟩ := hcopy.get_of_update hupdate
      have hne : key ≠ other := by
        rintro rfl
        have heq : copy = object := Option.some.inj (hstored.symm.trans hobject)
        exact hnot (heq ▸ hlabel)
      exact ⟨object, by rwa [VersionedStore.write_get_of_ne _ _ _ hne], hspec, hlabel⟩

theorem step_finalWith {system next : System} {label : Label} {key : String × String}
    {spec : ApplicationProfileSpec} (hcopies : CopiesFaithful config system)
    (hkeeps : KeepsObject config key system label)
    (hstep : step config system label = some next)
    (hfinal : FinalWith spec key system.world.profiles) :
    FinalWith spec key next.world.profiles := by
  rcases step_profiles hcopies hstep with
    heq | hwrite | ⟨call, answers, current, deleted, rfl, hcurrent, hdeletes, heq⟩
  · rwa [heq]
  · exact hwrite.finalWith hfinal
  · obtain ⟨object, hobject, hspec, hlabel⟩ := hfinal
    have hne : key ≠ deleted := by
      rintro rfl
      exact hkeeps current hcurrent hdeletes
    exact ⟨object, by rwa [heq, VersionedStore.delete_get_of_ne _ hne], hspec, hlabel⟩

/-- Once a pod profile is final, and until it is deleted, no interleaving of
passes, pod events and finalizations changes its spec or its final label. -/
theorem final_profile_immutable {system last : System} {labels : List Label}
    {key : String × String} {object : Versioned ApplicationProfile}
    (hreach : (machine config).Reachable system)
    (hobject : system.world.profiles.get key = some object) (hfinal : object.value.isFinal)
    (hkeeps : (machine config).Along (KeepsObject config key) system labels)
    (hrun : (machine config).run system labels = some last) :
    ∃ object', last.world.profiles.get key = some object' ∧
      object'.value.spec = object.value.spec ∧ object'.value.isFinal := by
  have hpreserve : ∀ system label next,
      CopiesFaithful config system ∧ FinalWith object.value.spec key system.world.profiles →
      KeepsObject config key system label → step config system label = some next →
      CopiesFaithful config next ∧ FinalWith object.value.spec key next.world.profiles :=
    fun _ _ _ hinv hmeets hstep =>
      ⟨step_copiesFaithful hinv.1 hstep, step_finalWith hinv.1 hmeets hstep hinv.2⟩
  exact (Machine.run_invariant_along (machine config) hpreserve
    ⟨reachable_copiesFaithful hreach, object, hobject, rfl, hfinal⟩ hkeeps hrun).2

/-- The first pass creates the profile; the second has read it and holds a merged
profile when the pod is finalized. -/
def finalizedRun : List Label :=
  .containerStarted nginx true :: List.replicate 6 (.advance 0 {}) ++
    .timerExpired nginx :: List.replicate 11 (.advance 1 { peek := .ok ["read"] }) ++
    .timerExpired nginx :: List.replicate 9 (.advance 2 { peek := .ok ["write"] }) ++
    [.finalizeApplicationProfile nginx, .advance 3 {}]

/-- The second pass then writes the profile, is rejected, and marks it failed. -/
theorem nginx_final_profile_immutable :
    ∃ system last object object',
      (machine mainConfig).run freshSystem finalizedRun = some system ∧
      system.world.profiles.get (nginx.profileKey mainConfig) = some object ∧
      (machine mainConfig).run system (List.replicate 6 (.advance 2 {})) = some last ∧
      last.world.profiles.get (nginx.profileKey mainConfig) = some object' ∧
      object'.value.labels.get failedLabel = "true" ∧
      object'.value.spec = object.value.spec ∧ object'.value.isFinal := by
  obtain ⟨system, object, last, hbefore, hobject, hfinal, hkeeps, hrun, hfailed⟩ :
      ∃ system object last, (machine mainConfig).run freshSystem finalizedRun = some system ∧
        system.world.profiles.get (nginx.profileKey mainConfig) = some object ∧
        object.value.isFinal ∧
        (machine mainConfig).Along (KeepsObject mainConfig (nginx.profileKey mainConfig))
          system (List.replicate 6 (.advance 2 {})) ∧
        (machine mainConfig).run system (List.replicate 6 (.advance 2 {})) = some last ∧
        ∀ object' ∈ last.world.profiles.get (nginx.profileKey mainConfig),
          object'.value.labels.get failedLabel = "true" :=
    ⟨_, _, _, rfl, rfl, by decide, by decide, rfl, by decide⟩
  obtain ⟨object', hobject', hspec, hfinal'⟩ := final_profile_immutable
    ⟨freshSystem, finalizedRun, initial_freshSystem, hbefore⟩ hobject hfinal hkeeps hrun
  exact ⟨system, last, object, object', hbefore, hobject, hrun, hobject',
    hfailed object' hobject', hspec, hfinal'⟩

end Kapprofiler.Collector
