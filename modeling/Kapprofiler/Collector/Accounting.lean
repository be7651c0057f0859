import Kapprofiler.Collector.Dns
import Kapprofiler.Collector.OpenCoverage
import Kapprofiler.Collector.Provenance

/-! # Where the evidence is

An event that the sink accepts and a syscall that is peeked are somewhere at any time: in the
sink, with a pass, or in the profile that a pass has stored. They are lost only where a pass
that carries them gives up, where there are too many opens, where building or merging leaves
them out, and with the profile itself.
-/

namespace Kapprofiler

open Tracing Foundation

/-! ## In a stream -/

/-- The event is in the channel or in its bucket. -/
def EventStream.Waiting {Event : Type} (bucketOf : Event → String) (stream : EventStream Event)
    (event : Event) : Prop :=
  event ∈ stream.channel ∨ event ∈ stream.db.get (bucketOf event)

theorem EventStream.send_channel {Event : Type} {stream next : EventStream Event} {event : Event}
    (hsend : stream.send event = some next) : next.channel = stream.channel ++ [event] := by
  unfold EventStream.send at hsend
  split at hsend
  next => rw [← Option.some.inj hsend]
  next => cases hsend

namespace EventStream.Waiting

variable {Event : Type} {bucketOf : Event → String} {stream next : EventStream Event}
  {event : Event}

theorem send {sent : Event} (hwaiting : stream.Waiting bucketOf event)
    (hsend : stream.send sent = some next) : next.Waiting bucketOf event := by
  unfold EventStream.Waiting
  rw [send_db hsend, send_channel hsend]
  exact hwaiting.imp_left fun hqueued => List.mem_append_left _ hqueued

/-- The worker takes an event out of the channel only to put it into its bucket. -/
theorem worker (hwaiting : stream.Waiting bucketOf event)
    (hworker : stream.worker bucketOf = some next) : next.Waiting bucketOf event := by
  have hlonger := EventStream.prefix_worker hworker
  obtain ⟨oldest, rest, db, hchannel, hput, rfl⟩ := AllSeen.worker_cases hworker
  rcases hwaiting with hqueued | hstored
  · rw [hchannel] at hqueued
    rcases List.mem_cons.mp hqueued with rfl | hrest
    · right
      change event ∈ db.get (bucketOf event)
      rw [InMemoryMapDB.get_put hput]
      exact List.mem_append_right _ List.mem_cons_self
    · exact Or.inl hrest
  · exact Or.inr ((hlonger _).subset hstored)

theorem getEvents (hwaiting : stream.Waiting bucketOf event) (key : String) :
    (stream.getEvents key).2.Waiting bucketOf event ∨
      bucketOf event = key ∧ event ∈ (stream.getEvents key).1 := by
  rcases hwaiting with hqueued | hstored
  · exact Or.inl (Or.inl hqueued)
  · by_cases hkey : bucketOf event = key
    · right
      refine ⟨hkey, ?_⟩
      rw [hkey, ← InMemoryMapDB.getNClean_fst] at hstored
      exact hstored
    · left
      right
      change event ∈ (stream.db.getNClean key).2.get (bucketOf event)
      rwa [InMemoryMapDB.get_getNClean_of_ne _ hkey]

end EventStream.Waiting

namespace Collector

variable {config : CollectorManagerConfig} {mounts : List String}

/-! ## In a profile -/

/-- An entry covers the open, or it is left out for a reason that the list or the configuration
shows. -/
def AccountedOpen (config : CollectorManagerConfig) (opens : List OpenCalls) (event : OpenEvent) :
    Prop :=
  config.ignoresPath event.pathName = true ∨ maxOpenEvents < opens.length ∨
    ∃ call ∈ opens, call.Covers event

/-- The profile lists the evidence, or has left it out because of a limit or of an ignored
prefix. -/
def Evidence.Accounted (config : CollectorManagerConfig) (profile : ContainerProfile) :
    Evidence → Prop
  | .execve event => ExecCalls.ofEvent event ∈ profile.execs
  | .opened event => AccountedOpen config profile.opens event
  | .capabilities event =>
      ListsCapability profile.capabilities event.syscall event.capabilityName
  | .dns event => ∃ call ∈ profile.dns, call.dnsName = event.dnsName ∧
      event.addresses ⊆ call.addresses
  | .network event =>
      (event.packetType = "HOST" → maxNetworkEvents ≤ profile.networkActivity.incoming.length ∨
        NetworkCalls.ofEvent event ∈ profile.networkActivity.incoming) ∧
      (event.packetType = "OUTGOING" →
        maxNetworkEvents ≤ profile.networkActivity.outgoing.length ∨
          NetworkCalls.ofEvent event ∈ profile.networkActivity.outgoing)
  | .syscall _ name => name ∈ profile.sysCalls

/-- The evidence is of an open, of which the profile has too many already. -/
def Evidence.Overflows (profile : ContainerProfile) : Evidence → Prop
  | .opened _ => maxOpenEvents < profile.opens.length
  | _ => False

/-- Mounts are ignored, and one of these is a prefix of the path. -/
def MountIgnored (config : CollectorManagerConfig) (mounts : List String) (event : OpenEvent) :
    Prop :=
  config.ignoreMounts = true ∧ mounts.any (hasPrefix event.pathName) = true

/-- Why building the profile of a batch leaves evidence out: an open is below an ignored mount,
or the first event of the name in the batch lacks an address. -/
def Evidence.LeftOutOfBatch (config : CollectorManagerConfig) (mounts : List String)
    (batch : TotalEvents) : Evidence → Prop
  | .opened event => MountIgnored config mounts event
  | .dns event => ∃ first ∈ firstDnsEvent batch.dnsEvents event.dnsName,
      ¬ event.addresses ⊆ first.addresses
  | _ => False

/-- Why a merge leaves evidence out: an open is below an ignored mount, the stored entry of the
name lacks an address, or the stored entry of the syscall lacks the capability and another new
one follows it. -/
def Evidence.LeftOutOfMerge (config : CollectorManagerConfig) (mounts : List String)
    (existing new : ContainerProfile) : Evidence → Prop
  | .opened event => MountIgnored config mounts event
  | .capabilities event =>
      event.syscall ∈ existing.capabilities.map (·.syscall) ∧
        event.capabilityName ∉ capabilitiesOf existing.capabilities event.syscall ∧
        ∃ last ∈ ((capabilitiesOf new.capabilities event.syscall).filter fun capability =>
          capability ∉ capabilitiesOf existing.capabilities event.syscall).getLast?,
          last ≠ event.capabilityName
  | .dns event => ∃ call ∈ dnsEntry existing.dns event.dnsName,
      ¬ event.addresses ⊆ call.addresses
  | _ => False

/-! ### Building -/

theorem AccountedOpen.grows {opens later : List OpenCalls} {event : OpenEvent}
    (haccounted : AccountedOpen config opens event) (hgrows : opens <+: later) :
    AccountedOpen config later event := by
  rcases haccounted with hignored | hfull | ⟨call, hcall, hcovers⟩
  · exact Or.inl hignored
  · exact Or.inr (Or.inl (Nat.lt_of_lt_of_le hfull hgrows.length_le))
  · exact Or.inr (Or.inr ⟨call, hgrows.subset hcall, hcovers⟩)

/-- There is a reason whenever an open is not included. -/
theorem accountedOpen_of_excluded {opens : List OpenCalls} {event : OpenEvent}
    (hexcluded : shouldIncludeOpenEvent config mounts opens event = false) :
    MountIgnored config mounts event ∨ AccountedOpen config opens event := by
  rw [shouldIncludeOpenEvent_eq, Bool.and_eq_false_iff, decide_eq_false_iff_not,
    Bool.and_eq_false_iff, Bool.not_eq_false', Bool.not_eq_false'] at hexcluded
  rcases hexcluded with hfull | hignored | hcovered
  · exact Or.inr (Or.inr (Or.inl (by omega)))
  · rcases Bool.or_eq_true_iff.mp hignored with hpath | hmounted
    · exact Or.inr (Or.inl hpath)
    · exact Or.inl (Bool.and_eq_true_iff.mp hmounted)
  · exact Or.inr (Or.inr (Or.inr (coversOpen_iff.mp hcovered)))

theorem accountedOpen_foldl {events : List OpenEvent} {event : OpenEvent}
    (hevent : event ∈ events) : MountIgnored config mounts event ∨
      AccountedOpen config (events.foldl (addOpen config mounts) []) event := by
  refine (foldl_appendWhen_accounts (fun opens event =>
    MountIgnored config mounts event ∨ AccountedOpen config opens event) ?_ ?_ ?_).2 event hevent
  · exact fun opens call event haccounted =>
      haccounted.imp_right fun hopen => hopen.grows (List.prefix_append opens [call])
  · exact fun opens event => Or.inr (Or.inr (Or.inr ⟨_, List.mem_append_right _
      List.mem_cons_self, rfl, List.Subset.refl _⟩))
  · exact fun opens event hexcluded => accountedOpen_of_excluded hexcluded

/-- Only the first event of a name is recorded. -/
theorem accounted_dns {events : List DnsEvent} {event : DnsEvent} (hevent : event ∈ events) :
    (∃ call ∈ events.foldl addDns [], call.dnsName = event.dnsName ∧
      event.addresses ⊆ call.addresses) ∨
    ∃ first ∈ firstDnsEvent events event.dnsName, ¬ event.addresses ⊆ first.addresses := by
  obtain ⟨first, hfirst⟩ : ∃ first, firstDnsEvent events event.dnsName = some first :=
    Option.isSome_iff_exists.mp (List.find?_isSome.mpr ⟨event, hevent, decide_eq_true rfl⟩)
  by_cases haddresses : event.addresses ⊆ first.addresses
  · left
    have hentry : dnsEntry (events.foldl addDns []) event.dnsName =
        some (DnsCalls.ofEvent first) := by
      rw [dnsEntry_foldl, hfirst]
      rfl
    obtain ⟨hcall, hname⟩ := (dnsEntry_eq_some_iff (distinctNames_foldl events)).mp hentry
    exact ⟨_, hcall, hname, haddresses⟩
  · exact Or.inr ⟨first, hfirst, haddresses⟩

theorem mem_foldl_addConnection_of_event {events : List NetworkEvent} {event : NetworkEvent}
    {packetType : String} (hevent : event ∈ events) (hpacket : event.packetType = packetType) :
    NetworkCalls.ofEvent event ∈ events.foldl (addConnection packetType) [] := by
  apply mem_foldl_addConnection.mpr
  exact List.mem_map_of_mem (List.mem_filter.mpr ⟨hevent, decide_eq_true hpacket⟩)

theorem listsCapability_of_mem {calls : List CapabilitiesCalls} {syscall capability : String}
    (hlisted : capability ∈ capabilitiesOf calls syscall) :
    ListsCapability calls syscall capability := by
  induction calls with
  | nil => cases hlisted
  | cons call rest ih =>
      unfold capabilitiesOf at hlisted
      split at hlisted
      next hsyscall => exact ⟨call, List.mem_cons_self, hsyscall, hlisted⟩
      next =>
        obtain ⟨other, hother, hlists⟩ := ih hlisted
        exact ⟨other, List.mem_cons_of_mem _ hother, hlists⟩

theorem mem_capabilitiesOf_build {events : List CapabilitiesEvent} {event : CapabilitiesEvent}
    (hevent : event ∈ events) :
    event.capabilityName ∈ capabilitiesOf (events.foldl addCapability []) event.syscall :=
  ((foldl_addCapability events distinctSyscalls_nil).2.2 _ _).mpr (.inr ⟨event, hevent, rfl, rfl⟩)

/-- What is built of a batch accounts for all of it but what is left out. -/
theorem accounted_buildContainerProfile {container : String} {batch : TotalEvents}
    {id : ContainerId} {evidence : Evidence} (hcontains : batch.Contains id evidence) :
    evidence.LeftOutOfBatch config mounts batch ∨
      evidence.Accounted config (buildContainerProfile config mounts container batch) := by
  cases evidence with
  | execve event => exact .inr (mem_foldl_addExec.mpr (List.mem_map_of_mem hcontains))
  | opened event => exact accountedOpen_foldl hcontains
  | capabilities event => exact .inr (listsCapability_of_mem (mem_capabilitiesOf_build hcontains))
  | dns event => exact (accounted_dns hcontains).symm
  | network event =>
      right
      constructor
      · exact fun hpacket => Or.inr (mem_foldl_addConnection_of_event hcontains hpacket)
      · exact fun hpacket => Or.inr (mem_foldl_addConnection_of_event hcontains hpacket)
  | syscall peekedFor name => exact .inr hcontains.2

/-! ### Merging -/

theorem ContainerProfile.Grows.accounted {existing grown : ContainerProfile} {evidence : Evidence}
    (hgrows : existing.Grows grown) (haccounted : evidence.Accounted config existing) :
    evidence.Accounted config grown := by
  cases evidence with
  | execve event => exact hgrows.execs.subset haccounted
  | opened event => exact haccounted.grows hgrows.opens
  | capabilities event =>
      obtain ⟨call, hcall, hsyscall, hlisted⟩ := haccounted
      obtain ⟨position, hposition⟩ := List.mem_iff_getElem?.mp hcall
      obtain ⟨later, hlater, hcalls⟩ := hgrows.capabilities position call hposition
      exact ⟨later, List.mem_of_getElem? hlater, hcalls.syscall.trans hsyscall,
        hcalls.capabilities.subset hlisted⟩
  | dns event =>
      obtain ⟨call, hcall, hname⟩ := haccounted
      exact ⟨call, hgrows.dns.subset hcall, hname⟩
  | network event =>
      obtain ⟨hincoming, houtgoing⟩ := haccounted
      constructor
      · intro hpacket
        exact (hincoming hpacket).imp (fun hfull => Nat.le_trans hfull hgrows.incoming.length_le)
          fun hlisted => hgrows.incoming.subset hlisted
      · intro hpacket
        exact (houtgoing hpacket).imp (fun hfull => Nat.le_trans hfull hgrows.outgoing.length_le)
          fun hlisted => hgrows.outgoing.subset hlisted
  | syscall peekedFor name => exact hgrows.sysCalls.subset haccounted

theorem accountedOpen_merge {existing new : List OpenCalls} {event : OpenEvent}
    (haccounted : AccountedOpen config new event) (hroom : ¬ maxOpenEvents < new.length) :
    MountIgnored config mounts event ∨
      AccountedOpen config (existing ++ new.filter fun call =>
        shouldIncludeOpenEvent config mounts existing call.toEvent) event := by
  rcases haccounted with hignored | hfull | ⟨call, hcall, hpath, hflags⟩
  · exact Or.inr (Or.inl hignored)
  · exact absurd hfull hroom
  · by_cases hincluded : shouldIncludeOpenEvent config mounts existing call.toEvent = true
    · exact Or.inr (Or.inr (Or.inr ⟨call, List.mem_append_right _
        (List.mem_filter.mpr ⟨hcall, hincluded⟩), hpath, hflags⟩))
    · -- An entry that covers the new call covers what that call covers.
      have hreason := accountedOpen_of_excluded (Bool.eq_false_iff.mpr hincluded)
      rw [MountIgnored, AccountedOpen, show call.toEvent.pathName = event.pathName from hpath]
        at hreason
      refine hreason.imp_right fun hexisting => ?_
      have hevent : AccountedOpen config existing event := by
        rcases hexisting with hignored | hfull | ⟨other, hother, hsame, hmore⟩
        · exact Or.inl hignored
        · exact Or.inr (Or.inl hfull)
        · exact Or.inr (Or.inr ⟨other, hother, hsame.trans hpath,
            List.Subset.trans hflags hmore⟩)
      exact hevent.grows (List.prefix_append _ _)

/-- The capability is merged into the entry of its syscall or appended with its call, unless
another new one of the syscall follows it. -/
theorem accounted_mergeCapabilities {existing new : List CapabilitiesCalls}
    (hdistinct : DistinctSyscalls new) {syscall capability : String}
    (hnew : capability ∈ capabilitiesOf new syscall) :
    (syscall ∈ existing.map (·.syscall) ∧ capability ∉ capabilitiesOf existing syscall ∧
      ∃ last ∈ ((capabilitiesOf new syscall).filter fun capability =>
        capability ∉ capabilitiesOf existing syscall).getLast?, last ≠ capability) ∨
    ListsCapability (mergeCapabilities existing new) syscall capability := by
  obtain ⟨hsyscalls, happended, hmerged⟩ := foldl_placeCapability existing [] hdistinct
  unfold mergeCapabilities
  by_cases hknown : syscall ∈ existing.map (·.syscall)
  · by_cases hold : capability ∈ mergeCapabilityNames (capabilitiesOf existing syscall)
        (capabilitiesOf new syscall)
    · right
      rw [← hmerged syscall hknown] at hold
      obtain ⟨call, hcall, hlists⟩ := listsCapability_of_mem hold
      exact ⟨call, List.mem_append_left _ hcall, hlists⟩
    · left
      rw [mem_mergeCapabilityNames, not_or] at hold
      refine ⟨hknown, hold.1, ?_⟩
      -- The capability is among the new ones, so there is a last of them, and it is another.
      have hmem : capability ∈ (capabilitiesOf new syscall).filter fun capability =>
          capability ∉ capabilitiesOf existing syscall :=
        List.mem_filter.mpr ⟨hnew, decide_eq_true hold.1⟩
      obtain ⟨last, hlast⟩ := List.getLast?_isSome.mpr (List.ne_nil_of_mem hmem) |>
        Option.isSome_iff_exists.mp
      refine ⟨last, hlast, ?_⟩
      rintro rfl
      exact hold.2 hlast
  · right
    rw [← capabilitiesOf_filter hknown] at hnew
    obtain ⟨call, hcall, hlists⟩ := listsCapability_of_mem hnew
    refine ⟨call, List.mem_append_right _ ?_, hlists⟩
    rw [happended, List.nil_append]
    exact hcall

theorem accounted_mergeConnections {existing new : List NetworkCalls} {call : NetworkCalls}
    (hcall : call ∈ new) : maxNetworkEvents ≤ (mergeConnections existing new).length ∨
      call ∈ mergeConnections existing new := by
  refine (foldl_appendWhen_accounts (fun calls (call : NetworkCalls) =>
    maxNetworkEvents ≤ calls.length ∨ call ∈ calls) ?_ ?_ ?_).2 call hcall
  · intro calls other call haccounted
    refine haccounted.imp (fun hfull => ?_) (fun hlisted => List.mem_append_left _ hlisted)
    rw [List.length_append]
    omega
  · exact fun _ _ => Or.inr (List.mem_append_right _ List.mem_cons_self)
  · intro calls call hrejects
    rw [Bool.and_eq_false_iff, decide_eq_false_iff_not, Bool.not_eq_false'] at hrejects
    exact hrejects.imp (fun hfull => Nat.le_of_not_lt hfull) networkEventExists_toEvent.mp

/-- A name that is known already is not listed again, with whatever addresses. -/
theorem accounted_mergeDns {existing new : List DnsCalls} {event : DnsEvent}
    (hnew : ∃ call ∈ new, call.dnsName = event.dnsName ∧ event.addresses ⊆ call.addresses) :
    (∃ call ∈ dnsEntry existing event.dnsName, ¬ event.addresses ⊆ call.addresses) ∨
      ∃ call ∈ existing ++ new.filter fun call => !dnsEventExists call.toEvent existing,
        call.dnsName = event.dnsName ∧ event.addresses ⊆ call.addresses := by
  cases hentry : dnsEntry existing event.dnsName with
  | some known =>
      by_cases haddresses : event.addresses ⊆ known.addresses
      · right
        have hname : known.dnsName = event.dnsName := by
          simpa [dnsEntry] using List.find?_some hentry
        exact ⟨known, List.mem_append_left _ (List.mem_of_find?_eq_some hentry), hname, haddresses⟩
      · exact Or.inl ⟨known, rfl, haddresses⟩
  | none =>
      right
      obtain ⟨call, hcall, hname, haddresses⟩ := hnew
      refine ⟨call, List.mem_append_right _ (List.mem_filter.mpr ⟨hcall, ?_⟩), hname, haddresses⟩
      rw [Bool.not_eq_true', ← Bool.not_eq_true, dnsEventExists_iff]
      rintro ⟨other, hother, hsame⟩
      exact dnsEntry_eq_none_iff.mp hentry other hother (hsame.trans hname)

/-- What is merged into a profile of the container is accounted for after the merge, if it is
in what was built of the batch with room for it, and is not left out. -/
theorem accounted_mergeContainerProfile {existing : ContainerProfile} {container : String}
    {before : List String} {batch : TotalEvents} {id : ContainerId} {evidence : Evidence}
    (hcontains : batch.Contains id evidence)
    (hbuilt : evidence.Accounted config (buildContainerProfile config before container batch))
    (hroom : ¬ evidence.Overflows (buildContainerProfile config before container batch)) :
    evidence.LeftOutOfMerge config mounts existing
        (buildContainerProfile config before container batch) ∨
      evidence.Accounted config (mergeContainerProfile config mounts existing
        (buildContainerProfile config before container batch)) := by
  cases evidence with
  | execve event => exact .inr (mem_mergedExecs.mpr (Or.inr hbuilt))
  | opened event => exact accountedOpen_merge hbuilt hroom
  | capabilities event =>
      have hdistinct := (foldl_addCapability batch.capabilitiesEvents distinctSyscalls_nil).1
      exact accounted_mergeCapabilities hdistinct (mem_capabilitiesOf_build hcontains)
  | dns event => exact accounted_mergeDns hbuilt
  | network event =>
      right
      constructor
      · intro hpacket
        exact accounted_mergeConnections (mem_foldl_addConnection_of_event hcontains hpacket)
      · intro hpacket
        exact accounted_mergeConnections (mem_foldl_addConnection_of_event hcontains hpacket)
  | syscall peekedFor name =>
      right
      by_cases hknown : name ∈ existing.sysCalls
      · exact List.mem_append_left _ hknown
      · exact List.mem_append_right _ (List.mem_filter.mpr ⟨hbuilt, decide_eq_true hknown⟩)

/-- The containers have a profile of this name that accounts for the evidence. -/
def Evidence.AccountedIn (config : CollectorManagerConfig) (containers : List ContainerProfile)
    (container : String) (evidence : Evidence) : Prop :=
  ∃ profile ∈ containers, profile.name = container ∧ evidence.Accounted config profile

theorem ApplicationProfile.Grows.accountedIn {earlier later : ApplicationProfile}
    {container : String} {evidence : Evidence} (hgrows : earlier.Grows later)
    (haccounted : evidence.AccountedIn config earlier.spec.containers container) :
    evidence.AccountedIn config later.spec.containers container := by
  obtain ⟨profile, hprofile, hname, hhas⟩ := haccounted
  obtain ⟨position, hposition⟩ := List.mem_iff_getElem?.mp hprofile
  obtain ⟨grown, hgrown, hprofileGrows⟩ := hgrows position profile hposition
  exact ⟨grown, List.mem_of_getElem? hgrown, hprofileGrows.name.trans hname,
    hprofileGrows.accounted hhas⟩

/-- A merge accounts for what was built, or some container of the name has left it out. -/
theorem accountedIn_mergeContainers {containers : List ContainerProfile} {container : String}
    {before : List String} {batch : TotalEvents} {id : ContainerId} {evidence : Evidence}
    (hcontains : batch.Contains id evidence)
    (hbuilt : evidence.Accounted config (buildContainerProfile config before container batch))
    (hroom : ¬ evidence.Overflows (buildContainerProfile config before container batch)) :
    (∃ existing ∈ containers, existing.name = container ∧
      evidence.LeftOutOfMerge config mounts existing
        (buildContainerProfile config before container batch)) ∨
    evidence.AccountedIn config (mergeContainers config mounts
      (buildContainerProfile config before container batch) containers) container := by
  induction containers with
  | nil => exact .inr ⟨_, List.mem_singleton_self _, rfl, hbuilt⟩
  | cons existing rest ih =>
      unfold mergeContainers
      split
      next hname =>
        rcases accounted_mergeContainerProfile hcontains hbuilt hroom with hleftOut | hmerged
        · exact .inl ⟨existing, List.mem_cons_self, hname, hleftOut⟩
        · exact .inr ⟨_, List.mem_cons_self, hname, hmerged⟩
      next =>
        rcases ih with ⟨other, hother, hleftOut⟩ | ⟨profile, hprofile, hname, hhas⟩
        · exact .inl ⟨other, List.mem_cons_of_mem _ hother, hleftOut⟩
        · exact .inr ⟨profile, List.mem_cons_of_mem _ hprofile, hname, hhas⟩

/-! ## In the sink -/

/-- The event is in the stream of its type. -/
def Evidence.Waiting (sink : EventSink) : Evidence → Prop
  | .execve event => sink.execve.Waiting (fun event => event.names.bucket "execve") event
  | .opened event => sink.opens.Waiting (fun event => event.names.bucket "open") event
  | .capabilities event =>
      sink.capabilities.Waiting (fun event => event.names.bucket "capabilities") event
  | .dns event => sink.dns.Waiting (fun event => event.names.bucket "dns") event
  | .network event => sink.network.Waiting (fun event => event.names.bucket "network") event
  | .syscall _ _ => False

section Sink

variable {sink next : EventSink} {evidence : Evidence}

theorem Evidence.Waiting.step {op : EventSink.Op} (hwaiting : evidence.Waiting sink)
    (hstep : sink.step op = some next) : evidence.Waiting next := by
  obtain ⟨hexecve, hopens, hcapabilities, hdns, hnetwork⟩ :=
    @EventSink.step_streams (fun bucketOf stream next =>
        ∀ event, stream.Waiting bucketOf event → next.Waiting bucketOf event)
      (fun _ _ _ hevent => hevent)
      (fun _ _ _ _ hsend _ hevent => EventStream.Waiting.send hevent hsend)
      (fun hworker _ hevent => EventStream.Waiting.worker hevent hworker) sink next op hstep
  cases evidence with
  | execve event => exact hexecve event hwaiting
  | opened event => exact hopens event hwaiting
  | capabilities event => exact hcapabilities event hwaiting
  | dns event => exact hdns event hwaiting
  | network event => exact hnetwork event hwaiting
  | syscall => exact hwaiting

theorem Evidence.Waiting.addFilter (hwaiting : evidence.Waiting sink) (filter : EventSinkFilter) :
    evidence.Waiting (sink.addFilter filter) := by
  obtain ⟨eventFilters, heq⟩ := sink.addFilter_eq filter
  rw [heq]
  cases evidence <;> exact hwaiting

theorem Evidence.Waiting.removeFilter (hwaiting : evidence.Waiting sink)
    (filter : EventSinkFilter) : evidence.Waiting (sink.removeFilter filter) := by
  cases evidence <;> exact hwaiting

end Sink

/-! ## With a pass -/

/-- Where a pass loads the evidence from. -/
def Evidence.source : Evidence → EventSource
  | .execve _ => .execve
  | .opened _ => .opens
  | .capabilities _ => .capabilities
  | .dns _ => .dns
  | .network _ => .network
  | .syscall _ _ => .syscalls

/-- The profile was built from a batch with the evidence, accounts for it and has room for it. -/
def BuiltFrom (config : CollectorManagerConfig) (id : ContainerId) (evidence : Evidence)
    (profile : ContainerProfile) : Prop :=
  ∃ mounts batch, batch.Contains id evidence ∧
    profile = buildContainerProfile config mounts id.container batch ∧
    evidence.Accounted config profile ∧ ¬ evidence.Overflows profile

/-- The pass has loaded the evidence and has not written it. -/
def PassState.Carries (config : CollectorManagerConfig) (id : ContainerId) (evidence : Evidence) :
    PassState → Prop
  | .load _ remaining batch => batch.Contains id evidence ∧ evidence.source ∉ remaining
  | .get _ profile => BuiltFrom config id evidence profile
  | .create _ profile => BuiltFrom config id evidence profile
  | .limitPatch _ profile _ => BuiltFrom config id evidence profile
  | .update _ profile _ => BuiltFrom config id evidence profile
  | _ => False

/-- The pass has found the profile final, or could not write it. -/
def PassState.GaveUp : PassState → Prop
  | .removeFilter _ => True
  | .restartTimer .createFailed => True
  | _ => False

/-- The step of the pass loses the evidence: the pass gives up, has too many opens, or leaves the
evidence out of what it builds or of what it merges. -/
inductive PassLoses (config : CollectorManagerConfig) (id : ContainerId) (answers : Answers)
    (world : World) (evidence : Evidence) : PassState → Prop
  | gaveUp {state : PassState} (hcarries : state.Carries config id evidence)
      (hgaveUp : (collectStep config id answers world state).1.GaveUp) :
      PassLoses config id answers world evidence state
  | overflows {found : ContainerState} {batch : TotalEvents}
      (hcontains : batch.Contains id evidence)
      (hoverflows : evidence.Overflows
        (buildContainerProfile config (world.mounts id) id.container batch)) :
      PassLoses config id answers world evidence (.load found [] batch)
  | leftOutOfBatch {found : ContainerState} {batch : TotalEvents}
      (hcontains : batch.Contains id evidence)
      (hleftOut : evidence.LeftOutOfBatch config (world.mounts id) batch)
      (hmissing : ¬ evidence.Accounted config
        (buildContainerProfile config (world.mounts id) id.container batch)) :
      PassLoses config id answers world evidence (.load found [] batch)
  | leftOutOfMerge {found : ContainerState} {profile known : ContainerProfile}
      {existing : Versioned ApplicationProfile}
      (hcarries : (PassState.update found profile existing).Carries config id evidence)
      (hknown : known ∈ existing.value.spec.containers) (hname : known.name = id.container)
      (hleftOut : evidence.LeftOutOfMerge config (world.mounts id) known profile)
      (hmissing : ¬ evidence.AccountedIn config
        (mergedProfile config (world.mounts id) found existing.value profile).spec.containers
        id.container) :
      PassLoses config id answers world evidence (.update found profile existing)

/-- A pass loads from each source once. -/
def PassState.LoadsOnce : PassState → Prop
  | .load _ remaining _ => remaining.Nodup
  | _ => True

/-- The stored profile of the container accounts for the evidence. -/
def StoredIn (config : CollectorManagerConfig) (profiles : ProfileStore) (id : ContainerId)
    (evidence : Evidence) : Prop :=
  ∃ object, profiles.get (id.profileKey config) = some object ∧
    evidence.AccountedIn config object.value.spec.containers id.container

section Pass

variable {id : ContainerId} {answers : Answers} {world : World} {state : PassState}
  {evidence : Evidence}

/-- What a pass takes out of the sink it has in its batch. -/
theorem waiting_or_loaded {sink : EventSink} {peek : Except String (List String)}
    {batch : TotalEvents} {source : EventSource} (hwaiting : evidence.Waiting sink) :
    evidence.Waiting (loadEvents id peek batch sink source).2 ∨
      source = evidence.source ∧ evidence.Concerns id ∧
        (loadEvents id peek batch sink source).1.Contains id evidence := by
  -- The sink files events by joined names, so a drained event agrees in the segments only.
  have hnames : ∀ {names : ContainerNames} {kind : String},
      names.bucket kind = id.bucketOf kind → names.segments = id.names.segments :=
    fun hbucket => ContainerNames.bucket_eq_iff.mp hbucket
  cases source with
  | execve =>
      cases evidence with
      | execve event =>
          have hstream : sink.execve.Waiting (fun event => event.names.bucket "execve") event :=
            hwaiting
          refine (hstream.getEvents (id.bucketOf "execve")).imp_right ?_
          exact fun ⟨hbucket, hdrained⟩ => ⟨rfl, hnames hbucket, hdrained⟩
      | _ => exact Or.inl hwaiting
  | opens =>
      cases evidence with
      | opened event =>
          have hstream : sink.opens.Waiting (fun event => event.names.bucket "open") event :=
            hwaiting
          refine (hstream.getEvents (id.bucketOf "open")).imp_right ?_
          exact fun ⟨hbucket, hdrained⟩ => ⟨rfl, hnames hbucket, hdrained⟩
      | _ => exact Or.inl hwaiting
  -- A peek takes nothing out of the sink.
  | syscalls => exact Or.inl hwaiting
  | capabilities =>
      cases evidence with
      | capabilities event =>
          have hstream : sink.capabilities.Waiting
              (fun event => event.names.bucket "capabilities") event :=
            hwaiting
          refine (hstream.getEvents (id.bucketOf "capabilities")).imp_right ?_
          exact fun ⟨hbucket, hdrained⟩ => ⟨rfl, hnames hbucket, hdrained⟩
      | _ => exact Or.inl hwaiting
  | dns =>
      cases evidence with
      | dns event =>
          have hstream : sink.dns.Waiting (fun event => event.names.bucket "dns") event :=
            hwaiting
          refine (hstream.getEvents (id.bucketOf "dns")).imp_right ?_
          exact fun ⟨hbucket, hdrained⟩ => ⟨rfl, hnames hbucket, hdrained⟩
      | _ => exact Or.inl hwaiting
  | network =>
      cases evidence with
      | network event =>
          have hstream : sink.network.Waiting (fun event => event.names.bucket "network") event :=
            hwaiting
          refine (hstream.getEvents (id.bucketOf "network")).imp_right ?_
          exact fun ⟨hbucket, hdrained⟩ => ⟨rfl, hnames hbucket, hdrained⟩
      | _ => exact Or.inl hwaiting

/-- Loading from another source leaves the evidence in the batch. -/
theorem contains_loadEvents {sink : EventSink} {peek : Except String (List String)}
    {batch : TotalEvents} {source : EventSource} {other : ContainerId}
    (hcontains : batch.Contains other evidence) (hother : evidence.source ≠ source) :
    (loadEvents id peek batch sink source).1.Contains other evidence := by
  cases source <;> cases evidence <;> first | exact hcontains | exact absurd rfl hother

/-- A batch with evidence is not thrown away. -/
theorem shouldProcessEvents_of_contains {batch : TotalEvents}
    (hcontains : batch.Contains id evidence) : shouldProcessEvents batch = true := by
  unfold shouldProcessEvents
  rw [decide_eq_true_eq]
  cases evidence with
  | execve => exact Or.inl (List.length_pos_of_mem hcontains)
  | opened => exact Or.inr (Or.inl (List.length_pos_of_mem hcontains))
  | syscall => exact Or.inr (Or.inr (Or.inl (List.length_pos_of_mem hcontains.2)))
  | capabilities =>
      exact Or.inr (Or.inr (Or.inr (Or.inl (List.length_pos_of_mem hcontains))))
  | dns =>
      exact Or.inr (Or.inr (Or.inr (Or.inr (Or.inl (List.length_pos_of_mem hcontains)))))
  | network =>
      exact Or.inr (Or.inr (Or.inr (Or.inr (Or.inr (List.length_pos_of_mem hcontains)))))

theorem collectStep_loadsOnce (honce : state.LoadsOnce) :
    (collectStep config id answers world state).1.LoadsOnce := by
  cases state with
  | lookup =>
      simp only [collectStep]
      split
      · exact (by decide : EventSource.all.Nodup)
      · trivial
  | load found remaining batch =>
      cases remaining with
      | nil =>
          simp only [collectStep]
          split <;> trivial
      | cons source rest => exact (List.nodup_cons.mp honce).2
  | get =>
      simp only [collectStep]
      split
      · trivial
      · split
        · trivial
        · split <;> trivial
  | create | limitPatch | update | untrack | failedPatch =>
      simp only [collectStep]
      split <;> trivial
  | removeFilter | stopTrace | markNotRecording | restartTimer | returned => trivial

/-- A pass goes on with what it carries until it has stored it or loses it. -/
theorem collectStep_carries (hcarries : state.Carries config id evidence) :
    (collectStep config id answers world state).1.Carries config id evidence ∨
      StoredIn config (collectStep config id answers world state).2.profiles id evidence ∨
      PassLoses config id answers world evidence state := by
  cases state with
  | load found remaining batch =>
      obtain ⟨hcontains, hloaded⟩ := hcarries
      cases remaining with
      -- The batch is complete: it is cut down to a profile.
      | nil =>
          by_cases hroom : evidence.Overflows
              (buildContainerProfile config (world.mounts id) id.container batch)
          · exact Or.inr (Or.inr (.overflows hcontains hroom))
          by_cases hbuilt : evidence.Accounted config
              (buildContainerProfile config (world.mounts id) id.container batch)
          · left
            simp only [collectStep, shouldProcessEvents_of_contains hcontains, if_true]
            exact ⟨_, batch, hcontains, rfl, hbuilt, hroom⟩
          · have hleftOut := (accounted_buildContainerProfile hcontains).resolve_right hbuilt
            exact Or.inr (Or.inr (.leftOutOfBatch hcontains hleftOut hbuilt))
      | cons source rest =>
          rw [List.mem_cons, not_or] at hloaded
          exact Or.inl ⟨contains_loadEvents hcontains hloaded.1, hloaded.2⟩
  -- A final profile is left alone, and what was collected for it is dropped.
  | get found profile =>
      by_cases hgaveUp : (collectStep config id answers world (.get found profile)).1.GaveUp
      · exact Or.inr (Or.inr (.gaveUp hcarries hgaveUp))
      left
      revert hgaveUp
      simp only [collectStep]
      split
      · exact fun _ => hcarries
      · split
        · exact fun hgaveUp => absurd trivial hgaveUp
        · split <;> exact fun _ => hcarries
  | create found profile =>
      by_cases hgaveUp : (collectStep config id answers world (.create found profile)).1.GaveUp
      · exact Or.inr (Or.inr (.gaveUp hcarries hgaveUp))
      right
      left
      obtain ⟨mounts, batch, hcontains, rfl, hbuilt, hroom⟩ := hcarries
      revert hgaveUp
      simp only [collectStep]
      split
      next hcreate =>
        obtain ⟨_, rfl⟩ := VersionedStore.create_eq_some.mp (of_request hcreate)
        exact fun _ => ⟨_, VersionedStore.put_get .., _, List.mem_singleton_self _, rfl, hbuilt⟩
      next => exact fun hgaveUp => absurd trivial hgaveUp
  | limitPatch found profile existing =>
      simp only [collectStep]
      split <;> exact Or.inl hcarries
  -- The update replaces the version that was read, with what was merged into it.
  | update found profile existing =>
      by_cases hgaveUp :
          (collectStep config id answers world (.update found profile existing)).1.GaveUp
      · exact Or.inr (Or.inr (.gaveUp hcarries hgaveUp))
      right
      by_cases haccounted : evidence.AccountedIn config (mergedProfile config (world.mounts id)
          found existing.value profile).spec.containers id.container
      · left
        revert hgaveUp
        simp only [collectStep]
        split
        next hupdate =>
          obtain ⟨object, hobject, _, rfl⟩ := VersionedStore.update_eq_some.mp (of_request hupdate)
          obtain ⟨version, hwritten⟩ := VersionedStore.write_get _ (mergedProfile config
            (world.mounts id) found existing.value profile) hobject
          exact fun _ => ⟨_, hwritten, haccounted⟩
        next => exact fun hgaveUp => absurd trivial hgaveUp
      · right
        obtain ⟨mounts, batch, hcontains, rfl, hbuilt, hroom⟩ := hcarries
        have hmerged := haccounted
        rw [mergedProfile_containers] at hmerged
        obtain ⟨known, hknown, hname, hleftOut⟩ :=
          (accountedIn_mergeContainers hcontains hbuilt hroom).resolve_right hmerged
        exact .leftOutOfMerge ⟨mounts, batch, hcontains, rfl, hbuilt, hroom⟩ hknown hname hleftOut
          haccounted
  | _ => exact hcarries.elim

end Pass

/-! ## One step of the manager -/

/-- Every pass loads from each source once. -/
def LoadsOnce (system : System) : Prop :=
  ∀ id state, Call.collectContainerEvents id state ∈ system.calls → state.LoadsOnce

/-- The evidence is in the sink, or with a pass of a container that it concerns, or stored for
one. -/
inductive Kept (config : CollectorManagerConfig) (system : System) (evidence : Evidence) : Prop
  | waiting (hwaiting : evidence.Waiting system.world.eventSink)
  | carried {id : ContainerId} {state : PassState} (hconcerns : evidence.Concerns id)
      (hcall : Call.collectContainerEvents id state ∈ system.calls)
      (hcarries : state.Carries config id evidence)
  | stored {id : ContainerId} (hconcerns : evidence.Concerns id)
      (hstored : StoredIn config system.world.profiles id evidence)

/-- The step loses the evidence: it is a step of a pass that does, or the profile in which the
evidence is stored is deleted. -/
inductive Loses (config : CollectorManagerConfig) (evidence : Evidence) (system : System) :
    Label → Prop
  | pass {call : Nat} {answers : Answers} {id : ContainerId} {state : PassState}
      (hcall : system.calls[call]? = some (.collectContainerEvents id state))
      (hloses : PassLoses config id answers system.world evidence state) :
      Loses config evidence system (.advance call answers)
  | deleted {label : Label} {id : ContainerId} (hconcerns : evidence.Concerns id)
      (hstored : StoredIn config system.world.profiles id evidence)
      (hdeletes : ¬ KeepsObject config (id.profileKey config) system label) :
      Loses config evidence system label

section Manager

variable {system next : System} {label : Label} {evidence : Evidence}

theorem LoadsOnce.step (honce : LoadsOnce system) (hstep : step config system label = some next) :
    LoadsOnce next := by
  intro id state hcall
  rcases step_cases hstep with
    ⟨position, answers, current, after, rfl, hcurrent, hcalled, hcalls⟩ |
    ⟨launched, hchange, hcalls⟩
  · rw [hcalls] at hcall
    rcases List.mem_or_eq_of_mem_set hcall with hold | rfl
    · exact honce id state hold
    · rcases Call.step_cases hcalled with ⟨_, _, _, _, _, _, hafter, _⟩ |
        ⟨other, before, rfl, _, hafter, _⟩ | ⟨_, _, _, hafter, _⟩ | ⟨_, _, _, hafter, _⟩
      · cases hafter
      · cases hafter
        exact collectStep_loadsOnce (honce id before (List.mem_of_getElem? hcurrent))
      · cases hafter
      · cases hafter
  · rw [hcalls] at hcall
    rcases List.mem_append.mp hcall with hold | hnew
    · exact honce id state hold
    · rw [hchange.launches_lookup hnew]
      trivial

theorem Kept.step_waiting (honce : LoadsOnce system)
    (hwaiting : evidence.Waiting system.world.eventSink)
    (hstep : step config system label = some next) : Kept config next evidence := by
  cases sinkChange_of_step hstep with
  | same hsink => exact .waiting (by rwa [hsink])
  | addFilter hcall hsink =>
      apply Kept.waiting
      rw [hsink]
      exact hwaiting.addFilter _
  | removeFilter filter hsink =>
      apply Kept.waiting
      rw [hsink]
      exact hwaiting.removeFilter filter
  | @load call answers id found source rest batch hcall hcalls hsink =>
      rcases @waiting_or_loaded id evidence _ answers.peek batch source hwaiting with
        hstill | ⟨rfl, hconcerns, hcontains⟩
      · apply Kept.waiting
        rwa [hsink]
      · -- What was waiting is now in the batch of the pass.
        have hloadsOnce := honce id _ (List.mem_of_getElem? hcall)
        have hcarries : PassState.Carries config id evidence (.load found rest
            (loadEvents id answers.peek batch system.world.eventSink evidence.source).1) :=
          ⟨hcontains, (List.nodup_cons.mp hloadsOnce).1⟩
        refine .carried hconcerns ?_ hcarries
        rw [hcalls]
        exact List.mem_set (List.getElem?_eq_some_iff.mp hcall).1 _
  | sink hsink => exact .waiting (hwaiting.step hsink)

theorem Kept.step_carried {id : ContainerId} {state : PassState}
    (hconcerns : evidence.Concerns id)
    (hcall : Call.collectContainerEvents id state ∈ system.calls)
    (hcarries : state.Carries config id evidence)
    (hstep : step config system label = some next) :
    Kept config next evidence ∨ Loses config evidence system label := by
  rcases step_cases hstep with
    ⟨position, answers, current, after, rfl, hcurrent, hcalled, hcalls⟩ |
    ⟨launched, hchange, hcalls⟩
  · obtain ⟨own, hown⟩ := List.mem_iff_getElem?.mp hcall
    -- Either it is this pass that goes on, or the step leaves it as it is.
    by_cases hsame : own = position
    · subst hsame
      obtain rfl := Option.some.inj (hown.symm.trans hcurrent)
      rcases Call.step_cases hcalled with ⟨_, _, _, _, hother, _⟩ |
        ⟨_, _, hpass, _, rfl, hworld⟩ | ⟨_, _, hother, _⟩ | ⟨_, _, hother, _⟩
      · cases hother
      · cases hpass
        rcases @collectStep_carries config id answers system.world state evidence hcarries with
          hstill | hstored | hloses
        · refine Or.inl (.carried hconcerns ?_ hstill)
          rw [hcalls]
          exact List.mem_set (List.getElem?_eq_some_iff.mp hcurrent).1 _
        · rw [← hworld] at hstored
          exact Or.inl (.stored hconcerns hstored)
        · exact Or.inr (.pass hcurrent hloses)
      · cases hother
      · cases hother
    · refine Or.inl (.carried hconcerns ?_ hcarries)
      rw [hcalls]
      apply List.mem_of_getElem? (i := own)
      rw [List.getElem?_set_ne (Ne.symm hsame)]
      exact hown
  · refine Or.inl (.carried hconcerns ?_ hcarries)
    rw [hcalls]
    exact List.mem_append_left _ hcall

theorem Kept.step_stored (hcopies : CopiesFaithful config system) {id : ContainerId}
    (hconcerns : evidence.Concerns id) (hstored : StoredIn config system.world.profiles id evidence)
    (hstep : step config system label = some next) :
    Kept config next evidence ∨ Loses config evidence system label := by
  by_cases hkeeps : KeepsObject config (id.profileKey config) system label
  · obtain ⟨object, hobject, haccounted⟩ := hstored
    obtain ⟨grown, hgrown, _, hgrows⟩ := step_grows hcopies hkeeps hstep object hobject
    exact Or.inl (.stored hconcerns ⟨grown, hgrown, hgrows.accountedIn haccounted⟩)
  · exact Or.inr (.deleted hconcerns hstored hkeeps)

/-- The evidence stays where it is or moves on, unless the step loses it. -/
theorem Kept.step (hcopies : CopiesFaithful config system) (honce : LoadsOnce system)
    (hkept : Kept config system evidence) (hstep : step config system label = some next) :
    Kept config next evidence ∨ Loses config evidence system label := by
  cases hkept with
  | waiting hwaiting => exact Or.inl (Kept.step_waiting honce hwaiting hstep)
  | carried hconcerns hcall hcarries => exact Kept.step_carried hconcerns hcall hcarries hstep
  | stored hconcerns hstored => exact Kept.step_stored hcopies hconcerns hstored hstep

end Manager

/-! ## Whole runs -/

end Collector

end Kapprofiler
