import Kapprofiler.Controller.MergedContainers

/-! # The equalities of the controller and of the collector

The collector keeps two execs apart if they differ in any field, and has one entry for
each syscall and DNS name, and none for an open that an earlier entry covers. The merge
loop goes by the equalities of the entries alone. What this changes depends on the pods:
on the execs that only the collector tells apart, and on the entries of different pods
that the collector would have put into one.
-/

namespace Kapprofiler.Controller

open Collector Foundation

variable {profiles : List ApplicationProfile} {containers : List ContainerProfile}

/-! ## Execs -/

/-- In whatever order the profiles come, the execs of a container are the union of
theirs, with all their fields. -/
def ExecsKept (profiles : List ApplicationProfile) : Prop :=
  ∀ permuted containers, permuted.Perm profiles → Merged permuted containers →
    ∀ name (exec : ExecCalls), HasEntry containers name .execs exec ↔
      ∃ profile ∈ profiles, HasEntry profile.spec.containers name .execs exec

/-- The first container of that name in every profile has the exec. -/
def InEveryFirst (profiles : List ApplicationProfile) (name : String) (exec : ExecCalls) : Prop :=
  ∀ profile ∈ profiles, ∀ container,
    profile.spec.containers.find? (fun other => other.name = name) = some container →
    exec ∈ container.execs

theorem execs_equals_refl (exec : ExecCalls) : exec.equals exec = true :=
  decide_eq_true_iff.mpr ⟨rfl, rfl⟩

theorem execs_equals_symm (a b : ExecCalls) (h : a.equals b = true) : b.equals a = true := by
  obtain ⟨hpath, hargs⟩ := decide_eq_true_iff.mp h
  exact decide_eq_true_iff.mpr ⟨hpath.symm, hargs.symm⟩

theorem head?_occurrences (name : String) (profiles : List ApplicationProfile) :
    (occurrences name profiles).head? =
      profiles.findSome? fun profile =>
        profile.spec.containers.find? fun other => other.name = name := by
  unfold occurrences
  rw [List.head?_filter, List.find?_flatMap]

/-- The first profile with a container of that name has the first of them. -/
theorem exists_find?_of_occurrences {name : String} {first : ContainerProfile}
    {rest : List ContainerProfile} (hoccurrences : occurrences name profiles = first :: rest) :
    ∃ profile ∈ profiles,
      profile.spec.containers.find? (fun other => other.name = name) = some first := by
  have hhead := head?_occurrences name profiles
  rw [hoccurrences, List.head?_cons] at hhead
  exact List.exists_of_findSome?_eq_some hhead.symm

/-- If a profile comes first, so does its first container of that name. -/
theorem exists_occurrences_cons {name : String} {profile : ApplicationProfile}
    {container : ContainerProfile}
    (hfind : profile.spec.containers.find? (fun other => other.name = name) = some container)
    (rest : List ApplicationProfile) :
    ∃ others, occurrences name (profile :: rest) = container :: others := by
  have hhead := head?_occurrences name (profile :: rest)
  rw [List.findSome?_cons, hfind] at hhead
  exact List.head?_eq_some_iff.mp hhead

theorem hasExec_iff (hmerged : Merged profiles containers) {name : String}
    {first : ContainerProfile} {rest : List ContainerProfile}
    (hoccurrences : occurrences name profiles = first :: rest) (exec : ExecCalls) :
    HasEntry containers name .execs exec ↔
      exec ∈ appendNew ExecCalls.equals first.execs (rest.flatMap (·.execs)) :=
  hmerged.hasEntry_of_occurrences hoccurrences

theorem mem_recorded_execs {name : String} {first : ContainerProfile}
    {rest : List ContainerProfile} (hoccurrences : occurrences name profiles = first :: rest)
    (exec : ExecCalls) :
    exec ∈ recorded name profiles .execs ↔
      exec ∈ first.execs ∨ exec ∈ rest.flatMap (·.execs) := by
  unfold recorded
  rw [hoccurrences, List.flatMap_cons, List.mem_append]
  rfl

/-- The merged execs are those of all pods, in every order, exactly if two execs of a
container that differ only in environment or layer are both in each pod's profile. -/
theorem execsKept_iff (profiles : List ApplicationProfile) :
    ExecsKept profiles ↔
      ∀ name (first second : ExecCalls), first ∈ recorded name profiles .execs →
        second ∈ recorded name profiles .execs → first.equals second = true →
          first ≠ second → InEveryFirst profiles name first := by
  constructor
  · intro hkept name first second hfirst hsecond hequals hne profile hprofile container hfind
    -- This profile is merged first.
    have hperm : (profile :: profiles.erase profile).Perm profiles :=
      (List.perm_cons_erase hprofile).symm
    have hmerged : Merged (profile :: profiles.erase profile) _ := List.Perm.refl _
    obtain ⟨others, hoccurrences⟩ := exists_occurrences_cons hfind (profiles.erase profile)
    have hin : ∀ exec : ExecCalls, exec ∈ recorded name profiles .execs →
        exec ∈ appendNew ExecCalls.equals container.execs (others.flatMap (·.execs)) := by
      intro exec hexec
      apply (hasExec_iff hmerged hoccurrences exec).mp
      exact (hkept _ _ hperm hmerged name exec).mpr (mem_recorded.mp hexec)
    exact mem_of_equals_of_ne execs_equals_symm (hin first hfirst) (hin second hsecond) hequals
      hne
  · intro hfirsts permuted containers hperm hmerged name exec
    have hrecorded : ∀ exec : ExecCalls, exec ∈ recorded name permuted .execs ↔
        exec ∈ recorded name profiles .execs := by
      intro exec
      rw [mem_recorded, mem_recorded]
      simp only [hperm.mem_iff]
    rw [← mem_recorded, ← hrecorded]
    refine ⟨hmerged.mem_recorded, ?_⟩
    intro hexec
    cases hoccurrences : occurrences name permuted with
    | nil =>
        unfold recorded at hexec
        exact absurd (hoccurrences ▸ hexec) List.not_mem_nil
    | cons container rest =>
        rw [hasExec_iff hmerged hoccurrences]
        rcases (mem_recorded_execs hoccurrences exec).mp hexec with hfirst | hrest
        · exact (prefix_appendNew _ _).subset hfirst
        · obtain ⟨other, hother, hequals⟩ :=
            exists_equals_appendNew execs_equals_refl hrest
          by_cases heq : other = exec
          · exact heq ▸ hother
          · -- An exec that another one stands for is in the container merged first.
            have hrecorded' := hmerged.mem_recorded
              ((hasExec_iff hmerged hoccurrences other).mpr hother)
            obtain ⟨profile, hprofile, hfind⟩ := exists_find?_of_occurrences hoccurrences
            exact (prefix_appendNew _ _).subset
              (hfirsts name exec other ((hrecorded exec).mp hexec) ((hrecorded other).mp hrecorded')
                (execs_equals_symm other exec hequals) (Ne.symm heq) profile
                (hperm.mem_iff.mp hprofile) container hfind)

/-- The binary of the image, and one that was put in its place at run time. -/
def shellExec (upperLayer : Bool) : ExecCalls := ⟨"/bin/sh", upperLayer, [], []⟩

def shellProfile (name : String) (upperLayer : Bool) : ApplicationProfile where
  name := name
  labels := ∅
  spec := ⟨[{ name := "app", execs := [shellExec upperLayer] }]⟩

def shellProfiles : List ApplicationProfile :=
  [shellProfile "pod-web-1" false, shellProfile "pod-web-2" true]

/-- The exec of the second pod is taken for that of the first. -/
theorem shell_upper_layer_lost : ¬ ExecsKept shellProfiles := by
  intro hkept
  have hmerged : Merged shellProfiles [{ name := "app", execs := [shellExec false] }] :=
    List.Perm.refl _
  have hpod : ∃ profile ∈ shellProfiles,
      HasEntry profile.spec.containers "app" .execs (shellExec true) :=
    ⟨shellProfile "pod-web-2" true, by decide, _, List.mem_cons_self, rfl, List.mem_cons_self⟩
  obtain ⟨container, hcontainer, _, hexec⟩ :=
    (hkept _ _ (List.Perm.refl _) hmerged "app" (shellExec true)).mpr hpod
  rw [List.mem_singleton.mp hcontainer] at hexec
  exact absurd (List.mem_singleton.mp hexec) (by decide)

/-! ## Entries that the collector puts into one -/

/-- An earlier entry covers one of the same path that has no flags of its own. -/
def Covers (earlier later : OpenCalls) : Prop :=
  earlier.path = later.path ∧ later.flags ⊆ earlier.flags

/-- One entry for each syscall and each DNS name, and no open that an earlier one
covers. -/
structure Grouped (container : ContainerProfile) : Prop where
  capabilities : container.capabilities.Pairwise fun a b => a.syscall ≠ b.syscall
  dns : container.dns.Pairwise fun a b => a.dnsName ≠ b.dnsName
  opens : container.opens.Pairwise fun earlier later => ¬ Covers earlier later

instance : DecidableRel Covers := fun _ _ => inferInstanceAs (Decidable (_ ∧ _))

instance : DecidablePred Grouped := fun container =>
  decidable_of_iff
    ((container.capabilities.Pairwise fun a b => a.syscall ≠ b.syscall) ∧
      (container.dns.Pairwise fun a b => a.dnsName ≠ b.dnsName) ∧
      container.opens.Pairwise fun earlier later => ¬ Covers earlier later)
    ⟨fun ⟨hcapabilities, hdns, hopens⟩ => ⟨hcapabilities, hdns, hopens⟩,
      fun hgrouped => ⟨hgrouped.capabilities, hgrouped.dns, hgrouped.opens⟩⟩

/-- The pods agree on what they have under one name: equal entries for one syscall and
for one DNS name, and an open that follows one that covers it had occurred before. -/
structure Agree (profiles : List ApplicationProfile) (name : String) : Prop where
  capabilities : ∀ a ∈ recorded name profiles .capabilities,
    ∀ b ∈ recorded name profiles .capabilities, CapabilitiesCalls.syscall a = b.syscall → a = b
  dns : ∀ a ∈ recorded name profiles .dns, ∀ b ∈ recorded name profiles .dns,
    DnsCalls.dnsName a = b.dnsName → a = b
  opens : ClashesRepeated Covers (recorded name profiles .opens)

/-- Lists that repeat no entry are merged without clashes exactly if the clashes among
all recorded entries are repetitions. -/
theorem pairwise_entries_iff (category : Category) (hcategory : category ≠ .execs)
    (clash : category.Entry → category.Entry → Prop) (hmerged : Merged profiles containers)
    (hnodup : ∀ profile ∈ profiles, ∀ other ∈ profile.spec.containers,
      (category.entries other).Nodup)
    {container : ContainerProfile} (hcontainer : container ∈ containers) :
    (category.entries container).Pairwise (fun first second => ¬ clash first second) ↔
      ClashesRepeated clash (recorded container.name profiles category) := by
  obtain ⟨first, rest, hoccurrences, hentries⟩ := hmerged.entries_of_mem hcontainer
  obtain ⟨profile, hprofile, hfirst, _⟩ :=
    mem_occurrences.mp (hoccurrences ▸ List.mem_cons_self)
  have hlawful := Category.equals_iff hcategory
  rw [← pairwise_appendNew_iff hlawful, hentries category]
  unfold recorded
  rw [hoccurrences, List.flatMap_cons, appendNew_append,
    appendNew_nil_of_nodup hlawful (hnodup profile hprofile first hfirst)]

section Grouped

variable {container : ContainerProfile}

theorem Grouped.nodup_capabilities (hgrouped : Grouped container) :
    container.capabilities.Nodup :=
  hgrouped.capabilities.imp fun hne heq => hne (congrArg _ heq)

theorem Grouped.nodup_dns (hgrouped : Grouped container) : container.dns.Nodup :=
  hgrouped.dns.imp fun hne heq => hne (congrArg _ heq)

theorem Grouped.nodup_opens (hgrouped : Grouped container) : container.opens.Nodup := by
  apply hgrouped.opens.imp
  intro earlier later hcovers heq
  exact hcovers ⟨congrArg _ heq, heq ▸ List.Subset.refl _⟩

theorem grouped_iff_agree (hmerged : Merged profiles containers)
    (hprofiles : ∀ profile ∈ profiles, ∀ other ∈ profile.spec.containers, Grouped other)
    (hcontainer : container ∈ containers) :
    Grouped container ↔ Agree profiles container.name := by
  have hcapabilities := pairwise_entries_iff .capabilities (by decide)
    (fun a b => CapabilitiesCalls.syscall a = b.syscall) hmerged
    (fun profile hprofile other hother =>
      (hprofiles profile hprofile other hother).nodup_capabilities) hcontainer
  have hdns := pairwise_entries_iff .dns (by decide)
    (fun a b => DnsCalls.dnsName a = b.dnsName) hmerged
    (fun profile hprofile other hother => (hprofiles profile hprofile other hother).nodup_dns)
    hcontainer
  have hopens := pairwise_entries_iff .opens (by decide) Covers hmerged
    (fun profile hprofile other hother => (hprofiles profile hprofile other hother).nodup_opens)
    hcontainer
  rw [clashesRepeated_iff_of_symmetric fun a b h => h.symm] at hcapabilities hdns
  constructor
  · intro hgrouped
    exact ⟨hcapabilities.mp hgrouped.capabilities, hdns.mp hgrouped.dns,
      hopens.mp hgrouped.opens⟩
  · intro hagree
    exact ⟨hcapabilities.mpr hagree.capabilities, hdns.mpr hagree.dns,
      hopens.mpr hagree.opens⟩

end Grouped

/-- The workload's containers have one entry for each syscall and DNS name and no covered
open exactly if the pods agree under every name. -/
theorem merged_grouped_iff (hmerged : Merged profiles containers)
    (hprofiles : ∀ profile ∈ profiles, ∀ container ∈ profile.spec.containers,
      Grouped container) :
    (∀ container ∈ containers, Grouped container) ↔ ∀ name, Agree profiles name := by
  constructor
  · intro hgrouped name
    cases hoccurrences : occurrences name profiles with
    | nil =>
        have hrecorded : ∀ category, recorded name profiles category = [] := by
          intro category
          unfold recorded
          rw [hoccurrences, List.flatMap_nil]
        refine ⟨?_, ?_, ?_⟩
        · simp [hrecorded]
        · simp [hrecorded]
        · intro before first after heq
          simp [hrecorded] at heq
    | cons first rest =>
        obtain ⟨container, hcontainer, rfl⟩ :=
          hmerged.exists_mem (hoccurrences ▸ List.mem_cons_self)
        exact (grouped_iff_agree hmerged hprofiles hcontainer).mp (hgrouped container hcontainer)
  · intro hagree container hcontainer
    exact (grouped_iff_agree hmerged hprofiles hcontainer).mpr (hagree container.name)

/-- A pod whose container was seen to need the capability for `setuid`. -/
def setuidProfile (name capability : String) : ApplicationProfile where
  name := name
  labels := ∅
  spec := ⟨[{ name := "app", capabilities := [⟨[capability], "setuid"⟩] }]⟩

def setuidProfiles (capability : String) : List ApplicationProfile :=
  [setuidProfile "pod-web-1" "SETUID", setuidProfile "pod-web-2" capability]

theorem setuid_profiles_agree : Agree (setuidProfiles "SETUID") "app" := by
  have hmerged : Merged (setuidProfiles "SETUID") _ := List.Perm.refl _
  exact (merged_grouped_iff hmerged (by decide)).mp (by decide) "app"

/-- The pods need different capabilities, and both entries are kept. -/
theorem setuid_capabilities_split :
    (∀ profile ∈ setuidProfiles "SYS_ADMIN", ∀ container ∈ profile.spec.containers,
      Grouped container) ∧
    ∃ containers, Merged (setuidProfiles "SYS_ADMIN") containers ∧
      ¬ ∀ container ∈ containers, Grouped container :=
  ⟨by decide, _, List.Perm.refl _, by decide⟩

end Kapprofiler.Controller
