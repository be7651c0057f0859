import Kapprofiler.Collector.Recording

/-! # The mounts of tracked pods

A start caches the mounts of its pod after it has tracked its container, and a stop
forgets them with the last container of the pod. A pass that gives its container up
repeats the stop's other steps but not this one, so that the mounts stay behind if the
container was the pod's last.
-/

namespace Kapprofiler.Collector

open Foundation

variable {config : CollectorManagerConfig} {system next : System} {id : ContainerId}

/-- The pods of the set are cached as long as they have tracked containers. -/
def MountsFollow (pods : Set (String × String)) (world : World) : Prop :=
  ∀ name nameSpace, (name, nameSpace) ∈ pods →
    (generateTableKey name nameSpace ∈ world.podMountCache ↔ world.Tracks name nameSpace)

/-! ## The conditions on a step -/

/-- The pod that a start is about to fetch the mounts of. -/
def Call.fetching : Call → Option String
  | .containerStarted id _ .fetchMounts => some (mountKey id)
  | _ => none

/-- Some start is about to fetch the mounts of the pod. -/
def System.Fetching (system : System) (key : String) : Prop :=
  ∃ call ∈ system.calls, call.fetching = some key

instance (system : System) (key : String) : Decidable (system.Fetching key) :=
  inferInstanceAs (Decidable (∃ call ∈ system.calls, _))

/-- Another container of the pod is tracked. -/
def World.HasSibling (world : World) (id : ContainerId) : Prop :=
  ∃ other ∈ world.containers.keys, other ≠ id ∧ mountKey other = mountKey id

instance (world : World) (id : ContainerId) : Decidable (world.HasSibling id) :=
  inferInstanceAs (Decidable (∃ other ∈ world.containers.keys, _))

/-- A pass does not untrack the last container of a pod. -/
def Call.LeavesSibling (world : World) : Call → Prop
  | .collectContainerEvents id (.untrack _) => id ∈ world.containers → world.HasSibling id
  | _ => True

instance (world : World) : DecidablePred (Call.LeavesSibling world) := fun call => by
  unfold Call.LeavesSibling
  split <;> infer_instance

/-- The last container of a pod is untracked by a stop, and while no start of the pod is
about to fetch the mounts. -/
def ForgetsMounts (system : System) : Label → Prop
  | .containerStopped id => id ∈ system.world.containers → system.world.HasSibling id ∨
      ¬ system.Fetching (mountKey id)
  | .advance call _ => ∀ current ∈ system.calls[call]?, current.LeavesSibling system.world
  | _ => True

instance (system : System) : DecidablePred (ForgetsMounts system)
  | .containerStopped id =>
      inferInstanceAs (Decidable (id ∈ system.world.containers → _ ∨ ¬ _))
  | .advance call _ =>
      inferInstanceAs (Decidable (∀ current ∈ system.calls[call]?, current.LeavesSibling _))
  | .containerStarted _ _ | .timerExpired _ | .sink _ | .podAdded _ | .podUpdated _
  | .podDeleted _ | .finalizationTimerExpired _ | .finalizeApplicationProfile _ =>
      .isTrue trivial

/-! ## Starts that are about to fetch -/

section Fetching

variable {call : Nat} {current after : Call} {key : String}

theorem fetching_of_set (hcalls : next.calls = system.calls.set call after)
    (hfetching : next.Fetching key) : system.Fetching key ∨ after.fetching = some key := by
  obtain ⟨other, hother, hkey⟩ := hfetching
  rw [hcalls] at hother
  rcases List.mem_or_eq_of_mem_set hother with hother | rfl
  · exact .inl ⟨other, hother, hkey⟩
  · exact .inr hkey

theorem fetching_set (hcurrent : system.calls[call]? = some current)
    (hcalls : next.calls = system.calls.set call after) (hfetching : system.Fetching key) :
    next.Fetching key ∨ current.fetching = some key := by
  obtain ⟨other, hother, hkey⟩ := hfetching
  obtain ⟨index, hindex⟩ := List.mem_iff_getElem?.mp hother
  by_cases hmoved : index = call
  · subst hmoved
    obtain rfl := Option.some.inj (hcurrent.symm.trans hindex)
    exact .inr hkey
  · refine .inl ⟨other, List.mem_of_getElem? (i := index) ?_, hkey⟩
    rw [hcalls, List.getElem?_set_ne (Ne.symm hmoved)]
    exact hindex

/-- A step of a call that neither begins nor ends to fetch. -/
theorem fetching_set_iff (hcurrent : system.calls[call]? = some current)
    (hcalls : next.calls = system.calls.set call after) (hbefore : current.fetching = none)
    (hafter : after.fetching = none) : next.Fetching key ↔ system.Fetching key := by
  constructor
  · intro hfetching
    refine (fetching_of_set hcalls hfetching).resolve_right ?_
    rw [hafter]
    exact nofun
  · intro hfetching
    refine (fetching_set hcurrent hcalls hfetching).resolve_right ?_
    rw [hbefore]
    exact nofun

theorem fetching_append_iff {launched : List Call} (hcalls : next.calls = system.calls ++ launched)
    (hlaunched : ∀ call ∈ launched, call.fetching = none) :
    next.Fetching key ↔ system.Fetching key := by
  unfold System.Fetching
  rw [hcalls]
  constructor
  · rintro ⟨other, hother, hkey⟩
    rcases List.mem_append.mp hother with hother | hother
    · exact ⟨other, hother, hkey⟩
    · rw [hlaunched other hother] at hkey
      cases hkey
  · rintro ⟨other, hother, hkey⟩
    exact ⟨other, List.mem_append_left _ hother, hkey⟩

theorem LabelChange.not_fetching {world after : World} {label : Label} {launched : List Call}
    (hchange : LabelChange config world label after launched) :
    ∀ call ∈ launched, call.fetching = none := by
  intro call hcall
  cases hchange with
  | started => rw [List.mem_singleton.mp hcall]; rfl
  | stopped => rw [List.mem_singleton.mp hcall]; rfl
  | expired => rw [List.mem_singleton.mp hcall]; rfl
  | sink => cases hcall
  | finalizer _ hlaunched =>
      have hnone := hlaunched call hcall
      cases call <;> first | rfl | cases hnone

end Fetching

/-! ## The invariant -/

/-- How the cache relates to the containers while calls are in progress. -/
structure Mounted (system : System) : Prop where
  cached : ∀ id ∈ system.world.containers,
    mountKey id ∈ system.world.podMountCache ∨ system.Fetching (mountKey id)
  tracked : ∀ key ∈ system.world.podMountCache,
    ∃ id ∈ system.world.containers, mountKey id = key
  fetching : ∀ key, system.Fetching key → ∃ id ∈ system.world.containers, mountKey id = key

theorem mounted_initial (hinit : Initial system) : Mounted system := by
  obtain ⟨hcontainers, hcache, _, _, hcalls⟩ := hinit
  constructor
  · intro id hid
    rw [hcontainers] at hid
    exact absurd hid Finmap.notMem_empty
  · intro key hkey
    rw [hcache] at hkey
    exact absurd hkey Finmap.notMem_empty
  · rintro key ⟨call, hcall, _⟩
    rw [hcalls] at hcall
    cases hcall

theorem Mounted.of_same (hmounted : Mounted system)
    (hcontainers : next.world.containers = system.world.containers)
    (hcache : next.world.podMountCache = system.world.podMountCache)
    (hfetching : ∀ key, next.Fetching key ↔ system.Fetching key) : Mounted next := by
  constructor
  · intro id hid
    rw [hcontainers] at hid
    rw [hcache, hfetching]
    exact hmounted.cached id hid
  · intro key hkey
    rw [hcache] at hkey
    rw [hcontainers]
    exact hmounted.tracked key hkey
  · intro key hkey
    rw [hcontainers]
    exact hmounted.fetching key ((hfetching key).mp hkey)

/-- A start tracks its container and goes on to fetch the mounts. -/
theorem Mounted.track {call : Nat} {current after : Call} {state : ContainerState}
    (hmounted : Mounted system) (hcurrent : system.calls[call]? = some current)
    (hcalls : next.calls = system.calls.set call after) (hbefore : current.fetching = none)
    (hafter : after.fetching = some (mountKey id))
    (hcontainers : next.world.containers = system.world.containers.insert id state)
    (hcache : next.world.podMountCache = system.world.podMountCache) : Mounted next := by
  have hkept : ∀ key, system.Fetching key → next.Fetching key := by
    intro key hkey
    refine (fetching_set hcurrent hcalls hkey).resolve_right ?_
    rw [hbefore]
    exact nofun
  have hwider : ∀ key, (∃ other ∈ system.world.containers, mountKey other = key) →
      ∃ other ∈ next.world.containers, mountKey other = key := by
    rintro key ⟨other, hother, hkey⟩
    refine ⟨other, ?_, hkey⟩
    rw [hcontainers, Finmap.mem_insert]
    exact .inr hother
  -- The container is tracked before its mounts are fetched.
  have hself : id ∈ next.world.containers := by
    rw [hcontainers, Finmap.mem_insert]
    exact .inl rfl
  constructor
  · intro other hother
    rw [hcontainers, Finmap.mem_insert] at hother
    rcases hother with rfl | hother
    · exact .inr ⟨after, hcalls ▸ List.mem_set (List.getElem?_eq_some_iff.mp hcurrent).1 _,
        hafter⟩
    · rw [hcache]
      exact (hmounted.cached other hother).imp_right (hkept _)
  · intro key hkey
    rw [hcache] at hkey
    exact hwider key (hmounted.tracked key hkey)
  · intro key hkey
    rcases fetching_of_set hcalls hkey with hkey | hkey
    · exact hwider key (hmounted.fetching key hkey)
    · rw [hafter, Option.some.injEq] at hkey
      exact ⟨id, hself, hkey⟩

/-- The mounts of a pod with a tracked container are cached. -/
theorem Mounted.fetch {call : Nat} {current after : Call} (hmounted : Mounted system)
    (hcurrent : system.calls[call]? = some current)
    (hcalls : next.calls = system.calls.set call after)
    (hbefore : current.fetching = some (mountKey id)) (hafter : after.fetching = none)
    (hcontainers : next.world.containers = system.world.containers)
    (hcache : ∀ key, key ∈ next.world.podMountCache ↔
      key = mountKey id ∨ key ∈ system.world.podMountCache) : Mounted next := by
  have hfewer : ∀ key, next.Fetching key → system.Fetching key := by
    intro key hkey
    refine (fetching_of_set hcalls hkey).resolve_right ?_
    rw [hafter]
    exact nofun
  constructor
  · intro other hother
    rw [hcontainers] at hother
    rw [hcache]
    rcases hmounted.cached other hother with hcached | hfetching
    · exact .inl (.inr hcached)
    · rcases fetching_set hcurrent hcalls hfetching with hfetching | hdone
      · exact .inr hfetching
      · rw [hbefore, Option.some.injEq] at hdone
        exact .inl (.inl hdone.symm)
  · intro key hkey
    rw [hcontainers]
    rcases (hcache key).mp hkey with rfl | hkey
    · exact hmounted.fetching _ ⟨current, List.mem_of_getElem? hcurrent, hbefore⟩
    · exact hmounted.tracked key hkey
  · intro key hkey
    rw [hcontainers]
    exact hmounted.fetching key (hfewer key hkey)

/-- A container is untracked, and the mounts of its pod are forgotten if it was the last. -/
theorem Mounted.untrack (hmounted : Mounted system)
    (hcontainers : next.world.containers = system.world.containers.erase id)
    (hfetching : ∀ key, next.Fetching key ↔ system.Fetching key)
    (hcache : system.world.HasSibling id ∧
        next.world.podMountCache = system.world.podMountCache ∨
      ¬ system.world.HasSibling id ∧ ¬ system.Fetching (mountKey id) ∧
        next.world.podMountCache = system.world.podMountCache.erase (mountKey id)) :
    Mounted next := by
  have hother : ∀ key, key ≠ mountKey id ∨ system.world.HasSibling id →
      (∃ other ∈ system.world.containers, mountKey other = key) →
      ∃ other ∈ next.world.containers, mountKey other = key := by
    rintro key hkey ⟨other, hother, rfl⟩
    rw [hcontainers]
    by_cases heq : other = id
    · subst heq
      obtain ⟨sibling, hsibling, hne, hsame⟩ := hkey.resolve_left (not_not.mpr rfl)
      exact ⟨sibling, Finmap.mem_erase.mpr ⟨hne, Finmap.mem_keys.mp hsibling⟩, hsame⟩
    · exact ⟨other, Finmap.mem_erase.mpr ⟨heq, hother⟩, rfl⟩
  -- Either a sibling of the pod keeps the entry, or the last container takes it along.
  rcases hcache with ⟨hsibling, hcache⟩ | ⟨hlast, hnot, hcache⟩
  · constructor
    · intro other hother
      rw [hcontainers] at hother
      rw [hcache, hfetching]
      exact hmounted.cached other (Finmap.mem_erase.mp hother).2
    · intro key hkey
      rw [hcache] at hkey
      exact hother key (.inr hsibling) (hmounted.tracked key hkey)
    · intro key hkey
      exact hother key (.inr hsibling) (hmounted.fetching key ((hfetching key).mp hkey))
  · constructor
    · intro other hother
      rw [hcontainers] at hother
      obtain ⟨hne, hother⟩ := Finmap.mem_erase.mp hother
      have hkey : mountKey other ≠ mountKey id := fun hkey =>
        hlast ⟨other, Finmap.mem_keys.mpr hother, hne, hkey⟩
      rw [hcache, hfetching, Finmap.mem_erase]
      exact (hmounted.cached other hother).imp_left fun hcached => ⟨hkey, hcached⟩
    · intro key hkey
      rw [hcache, Finmap.mem_erase] at hkey
      exact hother key (.inl hkey.1) (hmounted.tracked key hkey.2)
    · intro key hkey
      have hbefore := (hfetching key).mp hkey
      refine hother key (.inl ?_) (hmounted.fetching key hbefore)
      rintro rfl
      exact hnot hbefore

/-! ## Steps -/

/-- A pass does not touch the cache. -/
theorem collectStep_podMountCache (answers : Answers) (world : World) (state : PassState) :
    (collectStep config id answers world state).2.podMountCache = world.podMountCache := by
  have hchange := collectStep_change config id answers world state
  generalize (collectStep config id answers world state).2 = after at hchange ⊢
  cases hchange <;> rfl

/-- The mounts of a pod are fetched unless they are cached already. -/
theorem fetchMounts_spec {attach : Bool} {answers : Answers} {world : World}
    {started : StartState × World}
    (hstep : startStep config id attach answers world .fetchMounts = some started) :
    started.1 = .startTrace ∧ started.2.containers = world.containers ∧
      ∀ key, key ∈ started.2.podMountCache ↔ key = mountKey id ∨ key ∈ world.podMountCache := by
  simp only [startStep] at hstep
  split at hstep <;> obtain rfl := Option.some.inj hstep
  next hcached =>
    refine ⟨rfl, rfl, fun key => ⟨.inr, ?_⟩⟩
    rintro (rfl | hkey)
    · exact hcached
    · exact hkey
  next => exact ⟨rfl, rfl, fun key => Finmap.mem_insert⟩

/-- A stop of a tracked container forgets the mounts of a pod without other ones. -/
theorem containerStopped_podMountCache {world : World} (htracked : id ∈ world.containers) :
    (containerStopped world id).podMountCache =
      if ∃ other ∈ (world.containers.erase id).keys,
        other.podName = id.podName ∧ other.nameSpace = id.nameSpace then world.podMountCache
      else world.podMountCache.erase (mountKey id) := by
  rw [containerStopped, if_pos htracked, dropPodMounts]
  split
  next hsibling => exact (if_pos hsibling).symm
  next hlast => exact (if_neg hlast).symm

variable {pods : Set (String × String)}

/-- Among pods with distinct keys, a container of the same pod is one with the same key. -/
theorem hasSibling_iff (hkeys : Set.InjOn (fun pod : String × String =>
      generateTableKey pod.1 pod.2) pods) (hknown : Known pods system)
    (htracked : id ∈ system.world.containers) :
    system.world.HasSibling id ↔ ∃ other ∈ (system.world.containers.erase id).keys,
      other.podName = id.podName ∧ other.nameSpace = id.nameSpace := by
  unfold World.HasSibling
  simp only [Finmap.mem_keys, Finmap.mem_erase]
  constructor
  · rintro ⟨other, hother, hne, hkey⟩
    have hpod := hkeys (hknown.tracked other hother) (hknown.tracked id htracked) hkey
    exact ⟨other, ⟨hne, hother⟩, congrArg Prod.fst hpod, congrArg Prod.snd hpod⟩
  · rintro ⟨other, ⟨hne, hother⟩, hname, hnameSpace⟩
    refine ⟨other, hother, hne, ?_⟩
    rw [mountKey, mountKey, hname, hnameSpace]

/-- A step of a start. -/
theorem Mounted.start {call : Nat} {attach : Bool} {answers : Answers} {state : StartState}
    {started : StartState × World} (hmounted : Mounted system)
    (hcurrent : system.calls[call]? = some (.containerStarted id attach state))
    (hcalls : next.calls = system.calls.set call (.containerStarted id attach started.1))
    (hworld : next.world = started.2)
    (hstep : startStep config id attach answers system.world state = some started) :
    Mounted next := by
  cases state with
  | fetchMounts =>
      obtain ⟨hstate, hcontainers, hcache⟩ := fetchMounts_spec hstep
      refine hmounted.fetch hcurrent hcalls rfl ?_ (hworld ▸ hcontainers) (hworld ▸ hcache)
      rw [hstate]
      rfl
  | track =>
      cases startStep_change hstep with
      | track =>
          exact hmounted.track hcurrent hcalls rfl rfl (by rw [hworld]; rfl)
            (by rw [hworld]; rfl)
  | _ =>
      have hchange := startStep_change hstep
      have hfetching : ∀ key, next.Fetching key ↔ system.Fetching key := by
        intro key
        apply fetching_set_iff hcurrent hcalls rfl
        cases hchange <;> rfl
      apply hmounted.of_same _ _ hfetching
      · rw [hworld]
        cases hchange <;> rfl
      · rw [hworld]
        cases hchange <;> rfl

/-- A step of a pass. -/
theorem Mounted.pass {call : Nat} {answers : Answers} {state : PassState}
    (hmounted : Mounted system)
    (hcurrent : system.calls[call]? = some (.collectContainerEvents id state))
    (hcalls : next.calls = system.calls.set call (.collectContainerEvents id
      (collectStep config id answers system.world state).1))
    (hworld : next.world = (collectStep config id answers system.world state).2)
    (hleaves : Call.LeavesSibling system.world (.collectContainerEvents id state)) :
    Mounted next := by
  have hfetching : ∀ key, next.Fetching key ↔ system.Fetching key :=
    fun _ => fetching_set_iff hcurrent hcalls rfl rfl
  have hcache : next.world.podMountCache = system.world.podMountCache := by
    rw [hworld]
    exact collectStep_podMountCache answers system.world state
  rcases (collectStep_tracks config id answers system.world state).1 with
    hsame | ⟨⟨exit, rfl⟩, herased⟩
  · exact hmounted.of_same (hworld ▸ hsame) hcache hfetching
  · by_cases htracked : id ∈ system.world.containers
    · exact hmounted.untrack (hworld ▸ herased) hfetching (.inl ⟨hleaves htracked, hcache⟩)
    · apply hmounted.of_same _ hcache hfetching
      rw [hworld, herased, erase_of_untracked htracked]

theorem mounted_step {label : Label} (hkeys : Set.InjOn (fun pod : String × String =>
      generateTableKey pod.1 pod.2) pods) (hknown : Known pods system)
    (hmounted : Mounted system) (hforgets : ForgetsMounts system label)
    (hstep : step config system label = some next) : Mounted next := by
  rcases step_cases hstep with
    ⟨call, answers, current, after, rfl, hcurrent, hcall, hcalls⟩ | ⟨launched, hchange, hcalls⟩
  · have hleaves := hforgets current hcurrent
    rcases Call.step_cases hcall with
      ⟨id, attach, state, started, rfl, hstart, rfl, hworld⟩ |
      ⟨id, state, rfl, _, rfl, hworld⟩ | ⟨nameSpace, podName, rfl, rfl, hworld⟩ |
      ⟨nameSpace, podName, rfl, rfl, hworld⟩
    · exact hmounted.start hcurrent hcalls hworld hstart
    · exact hmounted.pass hcurrent hcalls hworld hleaves
    · obtain ⟨profiles, heq⟩ :=
        finalizeProfile_eq config answers system.world nameSpace podName
      rw [heq] at hworld
      exact hmounted.of_same (by rw [hworld]) (by rw [hworld]) fun _ =>
        fetching_set_iff hcurrent hcalls rfl rfl
    · obtain ⟨profiles, heq⟩ := deleteProfile_eq config answers system.world nameSpace podName
      rw [heq] at hworld
      exact hmounted.of_same (by rw [hworld]) (by rw [hworld]) fun _ =>
        fetching_set_iff hcurrent hcalls rfl rfl
  · have hfetching : ∀ key, next.Fetching key ↔ system.Fetching key :=
      fun _ => fetching_append_iff hcalls hchange.not_fetching
    generalize hworld : next.world = world at hchange
    cases hchange with
    | stopped id =>
        by_cases htracked : id ∈ system.world.containers
        · have herased : next.world.containers = system.world.containers.erase id := by
            rw [hworld]
            exact (containerStopped_untracks system.world id).1
          refine hmounted.untrack herased hfetching ?_
          rw [hworld, containerStopped_podMountCache htracked]
          by_cases hsibling : system.world.HasSibling id
          · exact .inl ⟨hsibling, if_pos ((hasSibling_iff hkeys hknown htracked).mp hsibling)⟩
          · exact .inr ⟨hsibling, (hforgets htracked).resolve_left hsibling,
              if_neg ((hasSibling_iff hkeys hknown htracked).not.mp hsibling)⟩
        -- Nothing is left of a container that is not tracked.
        · have hsame : containerStopped system.world id = system.world := if_neg htracked
          rw [hsame] at hworld
          exact hmounted.of_same (by rw [hworld]) (by rw [hworld]) hfetching
    | started => exact hmounted.of_same (by rw [hworld]) (by rw [hworld]) hfetching
    | expired => exact hmounted.of_same (by rw [hworld]) (by rw [hworld]) hfetching
    | sink => exact hmounted.of_same (by rw [hworld]) (by rw [hworld]) hfetching
    | finalizer => exact hmounted.of_same (by rw [hworld]) (by rw [hworld]) hfetching

/-! ## Whole runs -/

/-- The cache follows the tracked containers whenever no call is in progress, in every run
in which a pod's last container is untracked by a stop that no start of the pod overlaps. -/
theorem mountsFollow_of_forgets {start last : System} {labels : List Label}
    (hkeys : Set.InjOn (fun pod : String × String => generateTableKey pod.1 pod.2) pods)
    (hinit : Initial start)
    (hstarts : ∀ id attach, Label.containerStarted id attach ∈ labels →
      (id.podName, id.nameSpace) ∈ pods)
    (hforgets : (machine config).Along ForgetsMounts start labels)
    (hrun : (machine config).run start labels = some last) (hquiet : last.Quiescent) :
    MountsFollow pods last.world := by
  have hbefore : Known pods start ∧ Mounted start := ⟨known_initial hinit, mounted_initial hinit⟩
  have hmeets := (machine config).along_and.mpr
    ⟨(machine config).along_of_forall_mem fun _ label hmem => hmem, hforgets⟩
  have hboth : Known pods last ∧ Mounted last := by
    refine @Machine.run_invariant_along _ _ (machine config) _
      (fun system => Known pods system ∧ Mounted system) ?_ _ _ _ hbefore hmeets hrun
    rintro system label next ⟨hknown, hmounted⟩ ⟨hlabel, hforgets⟩ hstep
    refine ⟨known_step hknown ?_ hstep, mounted_step hkeys hknown hmounted hforgets hstep⟩
    rintro id attach rfl
    exact hstarts id attach hlabel
  obtain ⟨hknown, hmounted⟩ := hboth
  intro name nameSpace hpod
  constructor
  · intro hcached
    obtain ⟨id, htracked, hkey⟩ := hmounted.tracked _ hcached
    have heq := hkeys (hknown.tracked id htracked) hpod hkey
    exact ⟨id, htracked, congrArg Prod.fst heq, congrArg Prod.snd heq⟩
  · rintro ⟨id, htracked, rfl, rfl⟩
    refine (hmounted.cached id htracked).resolve_right ?_
    rintro ⟨call, hcall, hfetching⟩
    have hreturned := hquiet call hcall
    unfold Call.fetching at hfetching
    split at hfetching
    · cases hreturned
    · cases hfetching

/-- The stop of the first container finds the second one in the map. -/
theorem startedAndStopped_mounts :
    ∃ last, (machine mainConfig).run freshSystem startedAndStopped = some last ∧
      MountsFollow {("nginx", "default")} last.world := by
  have hends : ((machine mainConfig).run freshSystem startedAndStopped).map
      (fun last => decide last.Quiescent) = some true := by decide
  obtain ⟨last, hrun, hquiet⟩ := Option.map_eq_some_iff.mp hends
  rw [decide_eq_true_eq] at hquiet
  refine ⟨last, hrun, ?_⟩
  refine mountsFollow_of_forgets (Set.injOn_singleton _ _) initial_freshSystem ?_ (by decide)
    hrun hquiet
  intro id attach hmem
  simp [startedAndStopped] at hmem
  rcases hmem with hmem | hmem <;> rw [hmem.1] <;> rfl

/-- The container runs a shell and its profile is created, then marked final; the pass over
the next shell gives the container up. -/
def finalProfileRun : List Label :=
  recordingRun ++ .timerExpired nginx :: .replicate 11 (.advance 1 {}) ++
    .finalizeApplicationProfile nginx :: .advance 2 {} ::
    shellRun ++ .timerExpired nginx :: .replicate 13 (.advance 3 {})

theorem finalProfileRun_keeps_mounts :
    ¬ ∀ (config : CollectorManagerConfig) (pods : Set (String × String)) (start last : System)
      (labels : List Label),
      Set.InjOn (fun pod : String × String => generateTableKey pod.1 pod.2) pods →
      Initial start →
      (∀ id attach, Label.containerStarted id attach ∈ labels →
        (id.podName, id.nameSpace) ∈ pods) →
      (machine config).run start labels = some last → last.Quiescent →
      MountsFollow pods last.world := by
  intro hclaim
  have hends : ((machine mainConfig).run freshSystem finalProfileRun).map
      (fun last => decide ("nginx-default" ∈ last.world.podMountCache ∧
        last.world.containers = ∅ ∧ last.Quiescent)) = some true := by decide
  obtain ⟨last, hrun, hlast⟩ := Option.map_eq_some_iff.mp hends
  obtain ⟨hcached, hnone, hquiet⟩ := of_decide_eq_true hlast
  have hfollow := hclaim mainConfig {("nginx", "default")} freshSystem last finalProfileRun
    (Set.injOn_singleton _ _) initial_freshSystem ?_ hrun hquiet
  · obtain ⟨id, htracked, _⟩ := (hfollow "nginx" "default" rfl).mp hcached
    rw [hnone] at htracked
    exact Finmap.notMem_empty htracked
  · intro id attach hmem
    simp [finalProfileRun, recordingRun, shellRun] at hmem
    rw [hmem.1]
    rfl

end Kapprofiler.Collector
