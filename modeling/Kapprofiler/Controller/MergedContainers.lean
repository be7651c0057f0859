import Kapprofiler.Controller.Merge
import Kapprofiler.Foundation.AppendNew
import Kapprofiler.Foundation.KeyedMerge

/-! # The containers merged from the profiles of pods

The merge loop fills a map of containers by name, and merges each list of a container
by the equality of its entries. So a container of the map is merged from the
containers of its name alone, and each of its lists from their lists.
-/

namespace Kapprofiler.Controller

open Collector Foundation

/-- The lists of a container's profile. -/
inductive Category
  | sysCalls
  | execs
  | capabilities
  | opens
  | dns
  | incoming
  | outgoing
  deriving DecidableEq

namespace Category

abbrev Entry : Category → Type
  | .sysCalls => String
  | .execs => ExecCalls
  | .capabilities => CapabilitiesCalls
  | .opens => OpenCalls
  | .dns => DnsCalls
  | .incoming => NetworkCalls
  | .outgoing => NetworkCalls

def entries : (category : Category) → ContainerProfile → List category.Entry
  | .sysCalls, container => container.sysCalls
  | .execs, container => container.execs
  | .capabilities, container => container.capabilities
  | .opens, container => container.opens
  | .dns, container => container.dns
  | .incoming, container => container.networkActivity.incoming
  | .outgoing, container => container.networkActivity.outgoing

/-- The equality by which the merge loop identifies entries. -/
def equals : (category : Category) → category.Entry → category.Entry → Bool
  | .sysCalls => fun a b => a = b
  | .execs => ExecCalls.equals
  | .capabilities => CapabilitiesCalls.equals
  | .opens => OpenCalls.equals
  | .dns => DnsCalls.equals
  | .incoming => NetworkCalls.equals
  | .outgoing => NetworkCalls.equals

/-- Only the equality of execs leaves out fields. -/
theorem equals_iff {category : Category} (hcategory : category ≠ .execs)
    (a b : category.Entry) : category.equals a b = true ↔ a = b := by
  cases category with
  | execs => exact absurd rfl hcategory
  | sysCalls => exact decide_eq_true_iff
  | capabilities =>
      rcases a with ⟨_, _⟩
      rcases b with ⟨_, _⟩
      simp [equals, CapabilitiesCalls.equals, and_comm]
  | opens =>
      rcases a with ⟨_, _⟩
      rcases b with ⟨_, _⟩
      simp [equals, OpenCalls.equals]
  | dns =>
      rcases a with ⟨_, _⟩
      rcases b with ⟨_, _⟩
      simp [equals, DnsCalls.equals]
  | incoming =>
      rcases a with ⟨_, _, _⟩
      rcases b with ⟨_, _, _⟩
      simp [equals, NetworkCalls.equals]
  | outgoing =>
      rcases a with ⟨_, _, _⟩
      rcases b with ⟨_, _, _⟩
      simp [equals, NetworkCalls.equals]

theorem entries_mergeContainer (category : Category) (mapContainer container : ContainerProfile) :
    category.entries (mergeContainer mapContainer container) =
      appendNew category.equals (category.entries mapContainer) (category.entries container) := by
  cases category <;> rfl

/-- Merging containers into one merges each of its lists with theirs. -/
theorem entries_foldl_mergeContainer (category : Category) (first : ContainerProfile)
    (rest : List ContainerProfile) :
    category.entries (rest.foldl mergeContainer first) =
      appendNew category.equals (category.entries first) (rest.flatMap category.entries) := by
  induction rest generalizing first with
  | nil => rfl
  | cons container rest ih =>
      rw [List.foldl_cons, ih, entries_mergeContainer, List.flatMap_cons, appendNew_append]

end Category

/-- Some container of that name has the entry. -/
def HasEntry (containers : List ContainerProfile) (name : String) (category : Category)
    (entry : category.Entry) : Prop :=
  ∃ container ∈ containers, container.name = name ∧ entry ∈ category.entries container

/-- The containers that are merged from the profiles, in the order of some range over
the map. -/
def Merged (profiles : List ApplicationProfile) (containers : List ContainerProfile) : Prop :=
  containers.Perm (profiles.foldl addPod [])

/-- The containers of that name, in the order of the profiles. -/
def occurrences (name : String) (profiles : List ApplicationProfile) : List ContainerProfile :=
  (profiles.flatMap fun profile => profile.spec.containers).filter fun container =>
    container.name = name

/-- All entries that the profiles have in containers of that name. -/
def recorded (name : String) (profiles : List ApplicationProfile) (category : Category) :
    List category.Entry :=
  (occurrences name profiles).flatMap category.entries

variable {profiles : List ApplicationProfile} {containers : List ContainerProfile}
  {name : String} {category : Category}

theorem mem_occurrences {container : ContainerProfile} :
    container ∈ occurrences name profiles ↔
      ∃ profile ∈ profiles, container ∈ profile.spec.containers ∧ container.name = name := by
  unfold occurrences
  rw [List.mem_filter, List.mem_flatMap, decide_eq_true_iff]
  constructor
  · intro h
    obtain ⟨⟨profile, hprofile, hcontainer⟩, hname⟩ := h
    exact ⟨profile, hprofile, hcontainer, hname⟩
  · intro h
    obtain ⟨profile, hprofile, hcontainer, hname⟩ := h
    exact ⟨⟨profile, hprofile, hcontainer⟩, hname⟩

theorem mem_recorded {entry : category.Entry} :
    entry ∈ recorded name profiles category ↔
      ∃ profile ∈ profiles, HasEntry profile.spec.containers name category entry := by
  unfold recorded HasEntry
  rw [List.mem_flatMap]
  constructor
  · intro h
    obtain ⟨container, hcontainer, hentry⟩ := h
    obtain ⟨profile, hprofile, hmem, hname⟩ := mem_occurrences.mp hcontainer
    exact ⟨profile, hprofile, container, hmem, hname, hentry⟩
  · intro h
    obtain ⟨profile, hprofile, container, hmem, hname, hentry⟩ := h
    exact ⟨container, mem_occurrences.mpr ⟨profile, hprofile, hmem, hname⟩, hentry⟩

/-! ## The map -/

/-- Adding a container to the map is merging it in by its name. -/
theorem addContainer_eq_insertMerge (containersMap : List ContainerProfile)
    (container : ContainerProfile) :
    addContainer containersMap container =
      insertMerge ContainerProfile.name mergeContainer containersMap container := by
  induction containersMap with
  | nil => rfl
  | cons mapContainer rest ih =>
      unfold addContainer insertMerge
      rw [ih]

theorem foldl_addPod (profiles : List ApplicationProfile) :
    profiles.foldl addPod [] =
      (profiles.flatMap fun profile => profile.spec.containers).foldl
        (insertMerge ContainerProfile.name mergeContainer) [] := by
  have hadd : addContainer = insertMerge ContainerProfile.name mergeContainer := by
    funext containersMap container
    exact addContainer_eq_insertMerge containersMap container
  rw [List.foldl_flatMap, ← hadd]
  rfl

theorem name_mergeContainer (mapContainer container : ContainerProfile) :
    (mergeContainer mapContainer container).name = mapContainer.name := rfl

theorem Merged.nodup_names (hmerged : Merged profiles containers) :
    (containers.map (·.name)).Nodup := by
  have hnodup := nodup_foldl_insertMerge name_mergeContainer
    (profiles.flatMap fun profile => profile.spec.containers)
  rw [← foldl_addPod] at hnodup
  exact (hmerged.map _).nodup_iff.mpr hnodup

/-- A container of the map is the merge of all containers of its name. -/
theorem Merged.mem_iff (hmerged : Merged profiles containers) {container : ContainerProfile} :
    container ∈ containers ↔
      mergeAll mergeContainer (occurrences container.name profiles) = some container := by
  rw [List.Perm.mem_iff hmerged, foldl_addPod]
  exact mem_foldl_insertMerge name_mergeContainer _

/-- The lists of a container are merged from the lists of the containers of its name,
beginning with those of the first. -/
theorem Merged.entries_of_mem (hmerged : Merged profiles containers)
    {container : ContainerProfile} (hcontainer : container ∈ containers) :
    ∃ first rest, occurrences container.name profiles = first :: rest ∧
      ∀ category : Category, category.entries container =
        appendNew category.equals (category.entries first) (rest.flatMap category.entries) := by
  obtain ⟨first, rest, hoccurrences, heq⟩ :=
    mergeAll_eq_some.mp (hmerged.mem_iff.mp hcontainer)
  refine ⟨first, rest, hoccurrences, ?_⟩
  intro category
  rw [← category.entries_foldl_mergeContainer, ← heq]

/-- Every name that occurs has its container. -/
theorem Merged.exists_mem (hmerged : Merged profiles containers)
    {container : ContainerProfile} (hcontainer : container ∈ occurrences name profiles) :
    ∃ merged ∈ containers, merged.name = name := by
  cases hoccurrences : occurrences name profiles with
  | nil => exact absurd (hoccurrences ▸ hcontainer) List.not_mem_nil
  | cons first rest =>
      have hall : mergeAll mergeContainer (occurrences name profiles) =
          some (rest.foldl mergeContainer first) := by rw [hoccurrences]; rfl
      obtain ⟨hmem, hname⟩ := mem_of_mergeAll name_mergeContainer hall
      rw [← foldl_addPod] at hmem
      exact ⟨_, (List.Perm.mem_iff hmerged).mpr hmem, hname⟩

/-! ## What is merged -/

/-- The entries under a name are merged from the containers of that name. -/
theorem Merged.hasEntry_of_occurrences (hmerged : Merged profiles containers)
    {first : ContainerProfile} {rest : List ContainerProfile}
    (hoccurrences : occurrences name profiles = first :: rest) {entry : category.Entry} :
    HasEntry containers name category entry ↔
      entry ∈ appendNew category.equals (category.entries first)
        (rest.flatMap category.entries) := by
  constructor
  · intro hentry
    obtain ⟨container, hcontainer, rfl, hmem⟩ := hentry
    obtain ⟨first', rest', hoccurrences', hentries⟩ := hmerged.entries_of_mem hcontainer
    obtain ⟨rfl, rfl⟩ := List.cons.inj (hoccurrences'.symm.trans hoccurrences)
    rwa [hentries category] at hmem
  · intro hmem
    obtain ⟨container, hcontainer, rfl⟩ :=
      hmerged.exists_mem (hoccurrences ▸ List.mem_cons_self)
    obtain ⟨first', rest', hoccurrences', hentries⟩ := hmerged.entries_of_mem hcontainer
    obtain ⟨rfl, rfl⟩ := List.cons.inj (hoccurrences'.symm.trans hoccurrences)
    exact ⟨container, hcontainer, rfl, by rwa [hentries category]⟩

/-- Nothing is invented. -/
theorem Merged.mem_recorded (hmerged : Merged profiles containers)
    {entry : category.Entry} (hentry : HasEntry containers name category entry) :
    entry ∈ recorded name profiles category := by
  obtain ⟨container, hcontainer, rfl, hmem⟩ := hentry
  obtain ⟨first, rest, hoccurrences, hentries⟩ := hmerged.entries_of_mem hcontainer
  rw [hentries category] at hmem
  unfold recorded
  rw [hoccurrences, List.flatMap_cons, List.mem_append]
  exact mem_or_mem_of_mem_appendNew hmem

/-- The entries of an equality that tells them apart are all kept. -/
theorem Merged.hasEntry_iff (hmerged : Merged profiles containers)
    (hcategory : category ≠ .execs) {entry : category.Entry} :
    HasEntry containers name category entry ↔ entry ∈ recorded name profiles category := by
  refine ⟨hmerged.mem_recorded, ?_⟩
  intro hentry
  unfold recorded at hentry
  cases hoccurrences : occurrences name profiles with
  | nil => exact absurd (hoccurrences ▸ hentry) List.not_mem_nil
  | cons first rest =>
      rw [hmerged.hasEntry_of_occurrences hoccurrences,
        mem_appendNew (Category.equals_iff hcategory)]
      rwa [hoccurrences, List.flatMap_cons, List.mem_append] at hentry

/-! ## The union of the profiles -/

/-- No list repeats an entry; execs are left aside. -/
def DuplicateFree (container : ContainerProfile) : Prop :=
  ∀ category : Category, category ≠ .execs → (category.entries container).Nodup

/-- The containers have the names and the entries of the profiles, each name once, and
repeat no entry unless a profile does. -/
structure IsUnion (profiles : List ApplicationProfile) (containers : List ContainerProfile) :
    Prop where
  names : ∀ name, name ∈ containers.map (·.name) ↔
    ∃ profile ∈ profiles, name ∈ profile.spec.containers.map (·.name)
  unique : (containers.map (·.name)).Nodup
  entries : ∀ name (category : Category), category ≠ .execs → ∀ entry : category.Entry,
    HasEntry containers name category entry ↔
      ∃ profile ∈ profiles, HasEntry profile.spec.containers name category entry
  duplicateFree :
    (∀ profile ∈ profiles, (profile.spec.containers.map (·.name)).Nodup ∧
      ∀ container ∈ profile.spec.containers, DuplicateFree container) →
    ∀ container ∈ containers, DuplicateFree container

/-- Up to the execs, the merge loop computes the union of the profiles, in whatever
order it comes to them. -/
theorem merged_isUnion (hmerged : Merged profiles containers) :
    IsUnion profiles containers ∧
      ∀ permuted containers', permuted.Perm profiles → Merged permuted containers' →
        ∀ name (category : Category), category ≠ .execs → ∀ entry : category.Entry,
          HasEntry containers' name category entry ↔
            HasEntry containers name category entry := by
  refine ⟨⟨?_, hmerged.nodup_names, ?_, ?_⟩, ?_⟩
  · intro name
    constructor
    · intro hname
      obtain ⟨container, hcontainer, rfl⟩ := List.mem_map.mp hname
      obtain ⟨first, rest, hoccurrences, _⟩ := hmerged.entries_of_mem hcontainer
      have hfirst : first ∈ occurrences container.name profiles :=
        hoccurrences ▸ List.mem_cons_self
      obtain ⟨profile, hprofile, hmem, hname⟩ := mem_occurrences.mp hfirst
      exact ⟨profile, hprofile, List.mem_map.mpr ⟨first, hmem, hname⟩⟩
    · intro hname
      obtain ⟨profile, hprofile, hname⟩ := hname
      obtain ⟨container, hcontainer, hname⟩ := List.mem_map.mp hname
      exact List.mem_map.mpr
        (hmerged.exists_mem (mem_occurrences.mpr ⟨profile, hprofile, hcontainer, hname⟩))
  · intro name category hcategory entry
    rw [hmerged.hasEntry_iff hcategory, mem_recorded]
  · intro hprofiles container hcontainer category hcategory
    obtain ⟨first, rest, hoccurrences, hentries⟩ := hmerged.entries_of_mem hcontainer
    have hfirst : first ∈ occurrences container.name profiles :=
      hoccurrences ▸ List.mem_cons_self
    obtain ⟨profile, hprofile, hmem, _⟩ := mem_occurrences.mp hfirst
    rw [hentries category]
    exact nodup_appendNew (Category.equals_iff hcategory)
      ((hprofiles profile hprofile).2 first hmem category hcategory) _
  · intro permuted containers' hperm hmerged' name category hcategory entry
    rw [hmerged'.hasEntry_iff hcategory, hmerged.hasEntry_iff hcategory, mem_recorded,
      mem_recorded]
    simp only [hperm.mem_iff]

/-- The profiles of two pods of a workload. -/
def webProfiles : List ApplicationProfile :=
  [{ name := "pod-web-1"
     labels := ∅
     spec := ⟨[{ name := "app", sysCalls := ["read", "write"] },
       { name := "proxy", opens := [⟨"/etc/hosts", ["O_RDONLY"]⟩] }]⟩ },
    { name := "pod-web-2"
      labels := ∅
      spec := ⟨[{ name := "app", sysCalls := ["write", "close"] }]⟩ }]

/-- Both containers, in the other order. -/
def webContainers : List ContainerProfile :=
  [{ name := "proxy", opens := [⟨"/etc/hosts", ["O_RDONLY"]⟩] },
    { name := "app", sysCalls := ["read", "write", "close"] }]

theorem web_merged_isUnion : IsUnion webProfiles webContainers := by
  have hmerged : Merged webProfiles webContainers := List.Perm.swap _ _ _
  exact (merged_isUnion hmerged).1

end Kapprofiler.Controller
