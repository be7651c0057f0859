import Kapprofiler.Collector.Sessions

/-! # The DNS entries of a stored profile

The test whether a name is already known also appends the missing addresses, but
to a copy of the entry. The entry of a name therefore keeps the addresses of the
first event of that name, in whichever batch it came.
-/

namespace Kapprofiler.Collector

open Tracing Foundation

variable {config : CollectorManagerConfig} {id : ContainerId}

/-- The first entry of a name. -/
def dnsEntry (dns : List DnsCalls) (name : String) : Option DnsCalls :=
  dns.find? fun call => call.dnsName = name

/-- The first event of a name. -/
def firstDnsEvent (events : List DnsEvent) (name : String) : Option DnsEvent :=
  events.find? fun event => event.dnsName = name

def DistinctNames (dns : List DnsCalls) : Prop :=
  (dns.map (·.dnsName)).Nodup

theorem dnsEventExists_iff {event : DnsEvent} {dns : List DnsCalls} :
    dnsEventExists event dns = true ↔ ∃ call ∈ dns, call.dnsName = event.dnsName := by
  simp only [dnsEventExists, List.any_eq_true, decide_eq_true_eq, @eq_comm _ event.dnsName]

theorem dnsEntry_eq_none_iff {dns : List DnsCalls} {name : String} :
    dnsEntry dns name = none ↔ ∀ call ∈ dns, call.dnsName ≠ name := by
  simp [dnsEntry]

/-- With one entry for each name, the first is the only one. -/
theorem dnsEntry_eq_some_iff {dns : List DnsCalls} (hdistinct : DistinctNames dns)
    {name : String} {call : DnsCalls} :
    dnsEntry dns name = some call ↔ call ∈ dns ∧ call.dnsName = name := by
  constructor
  · intro hentry
    exact ⟨List.mem_of_find?_eq_some hentry, by simpa using List.find?_some hentry⟩
  · rintro ⟨hcall, hname⟩
    cases hentry : dnsEntry dns name with
    | none => exact absurd hname (dnsEntry_eq_none_iff.mp hentry call hcall)
    | some first =>
        have hfirst := List.mem_of_find?_eq_some hentry
        have hfirstName : first.dnsName = name := by simpa using List.find?_some hentry
        exact congrArg some (List.inj_on_of_nodup_map hdistinct hfirst hcall
          (hfirstName.trans hname.symm))

/-! ## Building and merging -/

theorem dnsEntry_addDns {dns : List DnsCalls} {event : DnsEvent} {name : String} :
    dnsEntry (addDns dns event) name =
      (dnsEntry dns name).or
        (if event.dnsName = name then some (DnsCalls.ofEvent event) else none) := by
  have hnew : dnsEntry [DnsCalls.ofEvent event] name =
      if event.dnsName = name then some (DnsCalls.ofEvent event) else none := by
    by_cases hname : event.dnsName = name <;> simp [dnsEntry, DnsCalls.ofEvent, hname]
  unfold addDns
  cases hexists : dnsEventExists event dns with
  | true =>
      -- Rejected, and its addresses with it: the entry of its name stays as it is.
      rw [appendWhen_of_rejects (by simp [hexists])]
      by_cases hname : event.dnsName = name
      · obtain ⟨call, hcall, hcallName⟩ := dnsEventExists_iff.mp hexists
        cases hentry : dnsEntry dns name with
        | none =>
            exact absurd (hcallName.trans hname) (dnsEntry_eq_none_iff.mp hentry call hcall)
        | some first => rfl
      · rw [if_neg hname, Option.or_none]
  | false =>
      rw [appendWhen_of_admits (by simp [hexists]), ← hnew]
      exact List.find?_append

theorem dnsEntry_foldl {events : List DnsEvent} {dns : List DnsCalls} {name : String} :
    dnsEntry (events.foldl addDns dns) name =
      (dnsEntry dns name).or ((firstDnsEvent events name).map DnsCalls.ofEvent) := by
  induction events generalizing dns with
  | nil => simp [firstDnsEvent]
  | cons event rest ih =>
      rw [List.foldl_cons, ih, dnsEntry_addDns, Option.or_assoc]
      by_cases hname : event.dnsName = name <;> simp [firstDnsEvent, hname]

theorem distinctNames_foldl (events : List DnsEvent) : DistinctNames (events.foldl addDns []) := by
  refine List.pairwise_map.mpr (pairwise_foldl_appendWhen ?_ List.Pairwise.nil)
  intro kept event hadmits call hcall heq
  have hexists : dnsEventExists event kept = true := dnsEventExists_iff.mpr ⟨call, hcall, heq⟩
  simp [hexists] at hadmits

/-- The entries that a merge appends. -/
def newDns (existing new : List DnsCalls) : List DnsCalls :=
  new.filter fun dns => !dnsEventExists dns.toEvent existing

theorem mem_newDns {existing new : List DnsCalls} {call : DnsCalls} :
    call ∈ newDns existing new ↔
      call ∈ new ∧ ∀ other ∈ existing, other.dnsName ≠ call.dnsName := by
  have hexists : dnsEventExists call.toEvent existing = false ↔
      ∀ other ∈ existing, other.dnsName ≠ call.dnsName := by
    rw [← Bool.not_eq_true, dnsEventExists_iff]
    simp [DnsCalls.toEvent]
  rw [newDns, List.mem_filter, Bool.not_eq_true', hexists]

theorem dnsEntry_newDns {existing : List DnsCalls} {name : String} (new : List DnsCalls)
    (habsent : dnsEntry existing name = none) :
    dnsEntry (newDns existing new) name = dnsEntry new name := by
  unfold dnsEntry newDns
  induction new with
  | nil => rfl
  | cons call rest ih =>
      by_cases hname : call.dnsName = name
      · have hkept : dnsEventExists call.toEvent existing = false := by
          rw [← Bool.not_eq_true, dnsEventExists_iff]
          rintro ⟨other, hother, hotherName⟩
          exact dnsEntry_eq_none_iff.mp habsent other hother (hotherName.trans hname)
        rw [List.filter_cons_of_pos (by simp [hkept])]
        simp [hname]
      · rw [List.find?_cons_of_neg (by simpa using hname), ← ih]
        rw [List.filter_cons]
        split
        · exact List.find?_cons_of_neg (by simpa using hname)
        · rfl

theorem dnsEntry_merge {existing new : List DnsCalls} {name : String} :
    dnsEntry (existing ++ newDns existing new) name =
      (dnsEntry existing name).or (dnsEntry new name) := by
  refine List.find?_append.trans ?_
  cases hexisting : dnsEntry existing name with
  | some call =>
      unfold dnsEntry at hexisting
      rw [hexisting]
      rfl
  | none =>
      have hnew := dnsEntry_newDns new hexisting
      unfold dnsEntry at hexisting hnew ⊢
      rw [hexisting, hnew]

theorem DistinctNames.merge {existing new : List DnsCalls} (hexisting : DistinctNames existing)
    (hnew : DistinctNames new) : DistinctNames (existing ++ newDns existing new) := by
  unfold DistinctNames
  rw [List.map_append, List.nodup_append]
  refine ⟨hexisting, (List.filter_sublist.map _).nodup hnew, ?_⟩
  intro name hname other hother heq
  obtain ⟨call, hcall, rfl⟩ := List.mem_map.mp hname
  obtain ⟨added, hadded, rfl⟩ := List.mem_map.mp hother
  exact (mem_newDns.mp hadded).2 call hcall heq

/-! ## Whole sessions -/

/-- The events of all passes, in the order they were collected. -/
def dnsEvents (passes : List Collection) : List DnsEvent :=
  passes.flatMap (·.batch.totalEvents.dnsEvents)

/-- The profile has an entry for exactly the names of the events, with exactly the
addresses of the events of that name. -/
def DnsKept (events : List DnsEvent) (profile : ContainerProfile) : Prop :=
  ∀ name, ((∃ call ∈ profile.dns, call.dnsName = name) ↔
      ∃ event ∈ events, event.dnsName = name) ∧
    ∀ call ∈ profile.dns, call.dnsName = name → ∀ address,
      address ∈ call.addresses ↔
        ∃ event ∈ events, event.dnsName = name ∧ address ∈ event.addresses

/-- The stored entry of a name is the first event of that name, however the events
were split into batches. -/
theorem Session.dnsEntry {world : World} {passes : List Collection}
    (hsession : Session config id world passes) :
    DistinctNames (world.stored config id).dns ∧
    ∀ name, dnsEntry (world.stored config id).dns name =
      (firstDnsEvent (dnsEvents passes) name).map DnsCalls.ofEvent := by
  have hinvariant := hsession.invariant (fun batches profile =>
    DistinctNames profile.dns ∧ ∀ name, Collector.dnsEntry profile.dns name =
      (firstDnsEvent (batches.flatMap (·.totalEvents.dnsEvents)) name).map DnsCalls.ofEvent)
    ?_ ?_ ?_
  · rw [List.flatMap_map] at hinvariant
    exact hinvariant
  · exact ⟨List.nodup_nil, fun _ => rfl⟩
  · intro batch
    refine ⟨distinctNames_foldl _, ?_⟩
    intro name
    rw [List.flatMap_singleton]
    exact dnsEntry_foldl
  · rintro batches profile batch ⟨hdistinct, hentry⟩
    refine ⟨hdistinct.merge (distinctNames_foldl _), ?_⟩
    intro name
    refine dnsEntry_merge.trans ?_
    have hbuilt : Collector.dnsEntry (batch.built config id.container).dns name =
        (firstDnsEvent batch.totalEvents.dnsEvents name).map DnsCalls.ofEvent := dnsEntry_foldl
    rw [hentry, hbuilt, List.flatMap_append, List.flatMap_singleton]
    simp [firstDnsEvent, List.find?_append, Option.map_or]

/-- A session keeps the addresses of all names if and only if the first event of
every name has the addresses of all its events. -/
theorem dns_kept_iff {world : World} {passes : List Collection}
    (hsession : Session config id world passes) :
    DnsKept (dnsEvents passes) (world.stored config id) ↔
      ∀ event ∈ dnsEvents passes, ∀ first ∈ firstDnsEvent (dnsEvents passes) event.dnsName,
        event.addresses ⊆ first.addresses := by
  obtain ⟨hdistinct, hentry⟩ := hsession.dnsEntry
  generalize dnsEvents passes = events at *
  -- The entries are the first events of their names, and nothing else.
  have hcall : ∀ call name, (call ∈ (world.stored config id).dns ∧ call.dnsName = name) ↔
      ∃ first, firstDnsEvent events name = some first ∧ call = DnsCalls.ofEvent first := by
    intro call name
    rw [← dnsEntry_eq_some_iff hdistinct, hentry, Option.map_eq_some_iff]
    simp [eq_comm]
  have hfirst : ∀ name first, firstDnsEvent events name = some first →
      first ∈ events ∧ first.dnsName = name := fun name first h =>
    ⟨List.mem_of_find?_eq_some h, by simpa using List.find?_some h⟩
  constructor
  · intro hkept event hevent first hfirstEvent address haddress
    obtain ⟨hmem, hname⟩ := (hcall (DnsCalls.ofEvent first) event.dnsName).mpr
      ⟨first, hfirstEvent, rfl⟩
    exact ((hkept event.dnsName).2 _ hmem hname address).mpr ⟨event, hevent, rfl, haddress⟩
  · intro hsubset name
    refine ⟨?_, ?_⟩
    · constructor
      · rintro ⟨call, hmem, hname⟩
        obtain ⟨first, hfirstEvent, _⟩ := (hcall call name).mp ⟨hmem, hname⟩
        exact ⟨first, hfirst name first hfirstEvent⟩
      · rintro ⟨event, hevent, hname⟩
        cases hfirstEvent : firstDnsEvent events name with
        | none =>
            have habsent := List.find?_eq_none.mp hfirstEvent event hevent
            simp [hname] at habsent
        | some first =>
            exact ⟨_, (hcall (DnsCalls.ofEvent first) name).mpr ⟨first, hfirstEvent, rfl⟩⟩
    · intro call hmem hname address
      obtain ⟨first, hfirstEvent, rfl⟩ := (hcall call name).mp ⟨hmem, hname⟩
      constructor
      · intro haddress
        obtain ⟨hfirstMem, hfirstName⟩ := hfirst name first hfirstEvent
        exact ⟨first, hfirstMem, hfirstName, haddress⟩
      · rintro ⟨event, hevent, rfl, haddress⟩
        exact hsubset event hevent first hfirstEvent haddress

/-! ## Two sessions of one container -/

/-- The container's DNS bucket holds one answer for the name for each address list. -/
def World.withAnswers (world : World) (answers : List (List String)) : World :=
  { world with eventSink := { world.eventSink with
      dns := ⟨[], ⟨some (Finmap.singleton (nginx.bucketOf "dns")
        (answers.map fun addresses => { dnsName := "example.com", addresses := addresses }))⟩⟩ } }

theorem nginx_dns_kept : ∃ world passes, Session mainConfig nginx world passes ∧
    passes.length = 2 ∧ (dnsEvents passes).length = 3 ∧
    DnsKept (dnsEvents passes) (world.stored mainConfig nginx) := by
  have hfirst := (session_trackedWorld mainConfig).afterPass
    (trackedWorld.withAnswers [["10.0.0.1", "10.0.0.2"], ["10.0.0.1"]]) {} rfl
    (Or.inl (by decide))
  generalize hworld : World.afterPass mainConfig {}
    (trackedWorld.withAnswers [["10.0.0.1", "10.0.0.2"], ["10.0.0.1"]]) = world at hfirst
  have hsecond := hfirst.afterPass (world.withAnswers [["10.0.0.2"]]) {} rfl
    (Or.inr (by rw [← hworld]; decide))
  subst hworld
  exact ⟨_, _, hsecond, rfl, rfl, (dns_kept_iff hsecond).mpr (by decide)⟩

/-- The address of a second answer is not stored. -/
theorem nginx_address_lost : ∃ world passes, Session mainConfig nginx world passes ∧
    ¬ DnsKept (dnsEvents passes) (world.stored mainConfig nginx) := by
  have hsession := (session_trackedWorld mainConfig).afterPass
    (trackedWorld.withAnswers [["10.0.0.1"], ["10.0.0.2"]]) {} rfl (Or.inl (by decide))
  refine ⟨_, _, hsession, ?_⟩
  intro hkept
  have hlost := ((hkept "example.com").2 ⟨"example.com", ["10.0.0.1"]⟩ (by decide) rfl
    "10.0.0.2").mpr (by decide)
  revert hlost
  decide

end Kapprofiler.Collector
