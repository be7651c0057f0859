import Kapprofiler.Collector.Growth

/-! # Profiles as sets of entries

What a profile says about a container is the set of the facts in its lists. Building a
profile states only facts that events of the batch show, and merging states only facts that
one of the two profiles stated.
-/

namespace Kapprofiler.Collector

open Tracing Foundation

variable {config : CollectorManagerConfig} {mounts : List String}

/-- One fact about a container. -/
inductive Entry
  | exec (call : ExecCalls)
  | opened (call : OpenCalls)
  | capability (syscall capability : String)
  | dns (call : DnsCalls)
  | incoming (call : NetworkCalls)
  | outgoing (call : NetworkCalls)
  | syscall (name : String)

/-- Some entry for the syscall lists the capability. -/
def ListsCapability (calls : List CapabilitiesCalls) (syscall capability : String) : Prop :=
  ∃ call ∈ calls, call.syscall = syscall ∧ capability ∈ call.capabilities

def ContainerProfile.Has (profile : ContainerProfile) : Entry → Prop
  | .exec call => call ∈ profile.execs
  | .opened call => call ∈ profile.opens
  | .capability syscall capability => ListsCapability profile.capabilities syscall capability
  | .dns call => call ∈ profile.dns
  | .incoming call => call ∈ profile.networkActivity.incoming
  | .outgoing call => call ∈ profile.networkActivity.outgoing
  | .syscall name => name ∈ profile.sysCalls

/-- The facts that a list of container profiles states about a container. -/
def HasEntry (containers : List ContainerProfile) (container : String) (entry : Entry) : Prop :=
  ∃ profile ∈ containers, profile.name = container ∧ profile.Has entry

def ApplicationProfile.Has (profile : ApplicationProfile) (container : String) (entry : Entry) :
    Prop :=
  HasEntry profile.spec.containers container entry

/-! ## What grows keeps its entries -/

theorem ContainerProfile.Grows.has {existing grown : ContainerProfile}
    (hgrows : existing.Grows grown) {entry : Entry} (hentry : existing.Has entry) :
    grown.Has entry := by
  cases entry with
  | exec call => exact hgrows.execs.subset hentry
  | opened call => exact hgrows.opens.subset hentry
  | capability syscall capability =>
      obtain ⟨call, hcall, hsyscall, hlisted⟩ := hentry
      obtain ⟨position, hposition⟩ := List.mem_iff_getElem?.mp hcall
      obtain ⟨later, hlater, hcalls⟩ := hgrows.capabilities position call hposition
      exact ⟨later, List.mem_of_getElem? hlater, hcalls.syscall.trans hsyscall,
        hcalls.capabilities.subset hlisted⟩
  | dns call => exact hgrows.dns.subset hentry
  | incoming call => exact hgrows.incoming.subset hentry
  | outgoing call => exact hgrows.outgoing.subset hentry
  | syscall name => exact hgrows.sysCalls.subset hentry

theorem ApplicationProfile.Grows.has {earlier later : ApplicationProfile}
    (hgrows : earlier.Grows later) {container : String} {entry : Entry}
    (hentry : earlier.Has container entry) : later.Has container entry := by
  obtain ⟨profile, hprofile, hname, hhas⟩ := hentry
  obtain ⟨position, hposition⟩ := List.mem_iff_getElem?.mp hprofile
  obtain ⟨grown, hgrown, hprofileGrows⟩ := hgrows position profile hposition
  exact ⟨grown, List.mem_of_getElem? hgrown, hprofileGrows.name.trans hname,
    hprofileGrows.has hhas⟩

/-! ## Merging -/

theorem mem_of_mem_mergeCapabilityNames {existing new : List String} {capability : String}
    (hlisted : capability ∈ mergeCapabilityNames existing new) :
    capability ∈ existing ∨ capability ∈ new := by
  rcases mem_mergeCapabilityNames.mp hlisted with hold | hlast
  · exact Or.inl hold
  · exact Or.inr (List.mem_of_mem_filter (List.mem_of_getLast? hlast))

theorem listsCapability_mergeCapability {merged : CapabilitiesCalls}
    {calls : List CapabilitiesCalls} {syscall capability : String}
    (hlists : ListsCapability (mergeCapability merged calls) syscall capability) :
    ListsCapability calls syscall capability ∨
      merged.syscall = syscall ∧ capability ∈ merged.capabilities := by
  induction calls with
  | nil => exact Or.inl hlists
  | cons existing rest ih =>
      obtain ⟨call, hcall, hsyscall, hlisted⟩ := hlists
      unfold mergeCapability at hcall
      split at hcall
      next hsame =>
        rcases List.mem_cons.mp hcall with rfl | hrest
        · rcases mem_of_mem_mergeCapabilityNames hlisted with hold | hnew
          · exact Or.inl ⟨existing, List.mem_cons_self, hsyscall, hold⟩
          · exact Or.inr ⟨hsame.symm.trans hsyscall, hnew⟩
        · exact Or.inl ⟨call, List.mem_cons_of_mem _ hrest, hsyscall, hlisted⟩
      next =>
        rcases List.mem_cons.mp hcall with rfl | hrest
        · exact Or.inl ⟨call, List.mem_cons_self, hsyscall, hlisted⟩
        · refine (ih ⟨call, hrest, hsyscall, hlisted⟩).imp_left ?_
          rintro ⟨other, hother, hkept⟩
          exact ⟨other, List.mem_cons_of_mem _ hother, hkept⟩

/-- Placing the new entries lists only what was listed before or by one of them. -/
theorem listsCapability_placed (new : List CapabilitiesCalls) {syscall capability : String} :
    ∀ merged : List CapabilitiesCalls × List CapabilitiesCalls,
      ListsCapability ((new.foldl placeCapability merged).1 ++
        (new.foldl placeCapability merged).2) syscall capability →
      ListsCapability (merged.1 ++ merged.2) syscall capability ∨
        ListsCapability new syscall capability := by
  induction new with
  | nil => exact fun merged hlists => Or.inl hlists
  | cons call rest ih =>
      intro merged hlists
      rcases ih _ hlists with ⟨other, hother, hsyscall, hlisted⟩ | ⟨other, hother, hkept⟩
      · unfold placeCapability at hother
        split at hother
        next =>
          rcases List.mem_append.mp hother with hmerged | happended
          · rcases listsCapability_mergeCapability ⟨other, hmerged, hsyscall, hlisted⟩ with
              ⟨known, hknown, hkept⟩ | hnew
            · exact Or.inl ⟨known, List.mem_append_left _ hknown, hkept⟩
            · exact Or.inr ⟨call, List.mem_cons_self, hnew⟩
          · exact Or.inl ⟨other, List.mem_append_right _ happended, hsyscall, hlisted⟩
        next =>
          rw [← List.append_assoc] at hother
          rcases List.mem_append.mp hother with hold | hcall
          · exact Or.inl ⟨other, hold, hsyscall, hlisted⟩
          · rw [List.mem_singleton.mp hcall] at hsyscall hlisted
            exact Or.inr ⟨call, List.mem_cons_self, hsyscall, hlisted⟩
      · exact Or.inr ⟨other, List.mem_cons_of_mem _ hother, hkept⟩

theorem mem_of_mem_append_filter {Item : Type} {admits : Item → Bool} {existing new : List Item}
    {item : Item} (hitem : item ∈ existing ++ new.filter admits) :
    item ∈ existing ∨ item ∈ new :=
  (List.mem_append.mp hitem).imp_right List.mem_of_mem_filter

theorem has_mergeContainerProfile {existing new : ContainerProfile} {entry : Entry}
    (hentry : (mergeContainerProfile config mounts existing new).Has entry) :
    existing.Has entry ∨ new.Has entry := by
  cases entry with
  | exec call => exact mem_of_mem_append_filter hentry
  | opened call => exact mem_of_mem_append_filter hentry
  | dns call => exact mem_of_mem_append_filter hentry
  | syscall name => exact mem_of_mem_append_filter hentry
  | incoming call => exact mem_of_mem_mergeConnections hentry
  | outgoing call => exact mem_of_mem_mergeConnections hentry
  | capability syscall capability =>
      have hplaced := listsCapability_placed new.capabilities (existing.capabilities, []) hentry
      rwa [List.append_nil] at hplaced

theorem hasEntry_mergeContainers {containers : List ContainerProfile} {new : ContainerProfile}
    {container : String} {entry : Entry}
    (hentry : HasEntry (mergeContainers config mounts new containers) container entry) :
    HasEntry containers container entry ∨ new.name = container ∧ new.Has entry := by
  induction containers with
  | nil =>
      obtain ⟨profile, hprofile, hname, hhas⟩ := hentry
      rw [List.mem_singleton.mp hprofile] at hname hhas
      exact Or.inr ⟨hname, hhas⟩
  | cons existing rest ih =>
      obtain ⟨profile, hprofile, hname, hhas⟩ := hentry
      unfold mergeContainers at hprofile
      split at hprofile
      next hsame =>
        rcases List.mem_cons.mp hprofile with rfl | hrest
        · rcases has_mergeContainerProfile hhas with hold | hnew
          · exact Or.inl ⟨existing, List.mem_cons_self, hname, hold⟩
          · exact Or.inr ⟨hsame.symm.trans hname, hnew⟩
        · exact Or.inl ⟨profile, List.mem_cons_of_mem _ hrest, hname, hhas⟩
      next =>
        rcases List.mem_cons.mp hprofile with rfl | hrest
        · exact Or.inl ⟨profile, List.mem_cons_self, hname, hhas⟩
        · refine (ih ⟨profile, hrest, hname, hhas⟩).imp_left ?_
          rintro ⟨other, hother, hkept⟩
          exact ⟨other, List.mem_cons_of_mem _ hother, hkept⟩

/-- The profile that a pass writes states what the profile it read stated, and what the
merged container profile states about its container. -/
theorem has_mergedProfile {state : ContainerState} {existing : ApplicationProfile}
    {new : ContainerProfile} {container : String} {entry : Entry}
    (hentry : (mergedProfile config mounts state existing new).Has container entry) :
    existing.Has container entry ∨ new.name = container ∧ new.Has entry := by
  unfold ApplicationProfile.Has at hentry ⊢
  rw [mergedProfile_containers] at hentry
  exact hasEntry_mergeContainers hentry

/-! ## Building -/

/-- Something that the manager is told about a container: an event, or a syscall that the
seccomp tracer returns to a pass of the container for its mount namespace. -/
inductive Evidence
  | execve (event : ExecveEvent)
  | opened (event : OpenEvent)
  | capabilities (event : CapabilitiesEvent)
  | dns (event : DnsEvent)
  | network (event : NetworkEvent)
  | syscall (id : ContainerId) (name : String)

/-- The fact that an evidence shows. Opens of an ignored path show nothing. -/
def Evidence.Shows (config : CollectorManagerConfig) : Evidence → Entry → Prop
  | .execve event, .exec call => call = ExecCalls.ofEvent event
  | .opened event, .opened call => call = OpenCalls.ofEvent event ∧
      config.ignorePrefixes.any (hasPrefix event.pathName) = false
  | .capabilities event, .capability name capability =>
      event.syscall = name ∧ event.capabilityName = capability
  | .dns event, .dns call => call = DnsCalls.ofEvent event
  | .network event, .incoming call => event.packetType = "HOST" ∧
      call = NetworkCalls.ofEvent event
  | .network event, .outgoing call => event.packetType = "OUTGOING" ∧
      call = NetworkCalls.ofEvent event
  | .syscall _ found, .syscall name => found = name
  | _, _ => False

/-- The pieces of evidence that a batch of a container consists of. -/
def TotalEvents.Contains (batch : TotalEvents) (id : ContainerId) : Evidence → Prop
  | .execve event => event ∈ batch.execEvents
  | .opened event => event ∈ batch.openEvents
  | .capabilities event => event ∈ batch.capabilitiesEvents
  | .dns event => event ∈ batch.dnsEvents
  | .network event => event ∈ batch.networkEvents
  | .syscall peekedFor name => peekedFor = id ∧ name ∈ batch.syscallEvents

theorem listsCapability_addCapability {calls : List CapabilitiesCalls} {event : CapabilitiesEvent}
    {syscall capability : String}
    (hlists : ListsCapability (addCapability calls event) syscall capability) :
    ListsCapability calls syscall capability ∨
      event.syscall = syscall ∧ event.capabilityName = capability := by
  induction calls with
  | nil =>
      obtain ⟨call, hcall, hsyscall, hlisted⟩ := hlists
      rw [addCapability, List.mem_singleton] at hcall
      subst hcall
      exact Or.inr ⟨hsyscall, (List.mem_singleton.mp hlisted).symm⟩
  | cons existing rest ih =>
      obtain ⟨call, hcall, hsyscall, hlisted⟩ := hlists
      unfold addCapability at hcall
      split at hcall
      next hsame =>
        rcases List.mem_cons.mp hcall with rfl | hrest
        · split at hsyscall
          next hknown =>
            rw [if_pos hknown] at hlisted
            exact Or.inl ⟨existing, List.mem_cons_self, hsyscall, hlisted⟩
          next hunknown =>
            rw [if_neg hunknown] at hlisted
            rcases List.mem_append.mp hlisted with hold | hnew
            · exact Or.inl ⟨existing, List.mem_cons_self, hsyscall, hold⟩
            · exact Or.inr ⟨hsame.symm.trans hsyscall, (List.mem_singleton.mp hnew).symm⟩
        · exact Or.inl ⟨call, List.mem_cons_of_mem _ hrest, hsyscall, hlisted⟩
      next =>
        rcases List.mem_cons.mp hcall with rfl | hrest
        · exact Or.inl ⟨call, List.mem_cons_self, hsyscall, hlisted⟩
        · refine (ih ⟨call, hrest, hsyscall, hlisted⟩).imp_left ?_
          rintro ⟨other, hother, hkept⟩
          exact ⟨other, List.mem_cons_of_mem _ hother, hkept⟩

theorem listsCapability_foldl_addCapability {events : List CapabilitiesEvent}
    {calls : List CapabilitiesCalls} {syscall capability : String}
    (hlists : ListsCapability (events.foldl addCapability calls) syscall capability) :
    ListsCapability calls syscall capability ∨
      ∃ event ∈ events, event.syscall = syscall ∧ event.capabilityName = capability := by
  induction events generalizing calls with
  | nil => exact Or.inl hlists
  | cons event rest ih =>
      rcases ih hlists with hbefore | ⟨other, hother, hshows⟩
      · refine (listsCapability_addCapability hbefore).imp_right ?_
        exact fun hevent => ⟨event, List.mem_cons_self, hevent⟩
      · exact Or.inr ⟨other, List.mem_cons_of_mem _ hother, hshows⟩

theorem exists_connection {packetType : String} {events : List NetworkEvent}
    {call : NetworkCalls} (hcall : call ∈ events.foldl (addConnection packetType) []) :
    ∃ event ∈ events, event.packetType = packetType ∧ call = NetworkCalls.ofEvent event := by
  rcases exists_admitted_of_mem hcall with hnone | ⟨event, hevent, ⟨before, hadmits⟩, heq⟩
  · cases hnone
  · rw [Bool.and_eq_true] at hadmits
    exact ⟨event, hevent, of_decide_eq_true hadmits.1, heq⟩

/-- The test on an open comes after the ignored prefixes. -/
theorem not_ignored_of_shouldInclude {opens : List OpenCalls} {event : OpenEvent}
    (hinclude : shouldIncludeOpenEvent config mounts opens event = true) :
    config.ignorePrefixes.any (hasPrefix event.pathName) = false := by
  unfold shouldIncludeOpenEvent at hinclude
  split at hinclude
  · cases hinclude
  · split at hinclude
    · cases hinclude
    next hprefixes => exact Bool.eq_false_iff.mpr hprefixes

/-- The profile of a batch states only what some evidence of the batch shows. -/
theorem has_buildContainerProfile {container : String} {batch : TotalEvents} {entry : Entry}
    (id : ContainerId)
    (hentry : (buildContainerProfile config mounts container batch).Has entry) :
    ∃ evidence, batch.Contains id evidence ∧ evidence.Shows config entry := by
  cases entry with
  | exec call =>
      rcases mem_foldl_appendWhen hentry with hnone | ⟨event, hevent, heq⟩
      · cases hnone
      · exact ⟨.execve event, hevent, heq⟩
  | opened call =>
      rcases exists_admitted_of_mem hentry with hnone | ⟨event, hevent, ⟨_, hadmits⟩, heq⟩
      · cases hnone
      · exact ⟨.opened event, hevent, heq, not_ignored_of_shouldInclude hadmits⟩
  | capability syscall capability =>
      rcases listsCapability_foldl_addCapability hentry with ⟨_, hnone, _⟩ | ⟨event, hevent, heq⟩
      · cases hnone
      · exact ⟨.capabilities event, hevent, heq⟩
  | dns call =>
      rcases mem_foldl_appendWhen hentry with hnone | ⟨event, hevent, heq⟩
      · cases hnone
      · exact ⟨.dns event, hevent, heq⟩
  | incoming call =>
      obtain ⟨event, hevent, htype, heq⟩ := exists_connection hentry
      exact ⟨.network event, hevent, htype, heq⟩
  | outgoing call =>
      obtain ⟨event, hevent, htype, heq⟩ := exists_connection hentry
      exact ⟨.network event, hevent, htype, heq⟩
  | syscall name => exact ⟨.syscall id name, ⟨rfl, hentry⟩, rfl⟩

end Kapprofiler.Collector
