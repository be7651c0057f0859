import Kapprofiler.Collector.Pass
import Kapprofiler.Controller.ProfileNames

/-! # The object of a collected profile

The collector names a profile after its object, and the controller gets back from the
name to the object: it splits the name at its hyphens, drops the kind, joins the rest
again and, with a store namespace, cuts off the namespace that the label tells it.
-/

namespace Kapprofiler.Controller

open Collector Foundation

/-- The event is about the profile of the object as the collector stores it: in the
namespace and under the name of its profiles, with the namespace label that a pass gives
to the profile of a container of that namespace. -/
structure CollectedProfile (config : CollectorManagerConfig) (object : ObjectRef)
    (event : ProfileEvent) : Prop where
  nameSpace : event.nameSpace = config.profileNamespace object.nameSpace
  name : event.profile.name =
    config.getApplicationProfileName object.nameSpace object.kind object.name
  label : ∃ id state containerProfile, id.nameSpace = object.nameSpace ∧
    event.profile.labels.get namespaceLabel =
      (newLabels config id state containerProfile).get namespaceLabel

variable {config : CollectorManagerConfig} {object : ObjectRef} {event : ProfileEvent}

/-- No other character has the hyphen as its lower case. -/
theorem eq_hyphen_of_toLower {c : Char} (hlower : c.toLower = '-') : c = '-' := by
  unfold Char.toLower at hlower
  split at hlower
  next hupper =>
    have hval := congrArg (fun c => c.val.toNat) hlower
    have hA : 'A'.val.toNat = 65 := rfl
    have hZ : 'Z'.val.toNat = 90 := rfl
    have hhyphen : '-'.val.toNat = 45 := rfl
    have hshift : ('a'.val - 'A'.val).toNat = 32 := rfl
    simp only [UInt32.toNat_add, ge_iff_le, UInt32.le_iff_toNat_le] at hval hupper
    omega
  next => exact hlower

theorem hyphen_notMem_toLower {kind : String} (hkind : '-' ∉ kind.toList) :
    '-' ∉ (toLower kind).toList := by
  rw [toLower, String.toList_ofList, List.mem_map]
  rintro ⟨c, hc, hlower⟩
  rw [eq_hyphen_of_toLower hlower] at hc
  exact hkind hc

theorem newLabels_namespaceLabel (hstore : config.storeNamespace ≠ "") (id : ContainerId)
    (state : ContainerState) (containerProfile : ContainerProfile) :
    (newLabels config id state containerProfile).get namespaceLabel = id.nameSpace := by
  rw [newLabels, if_pos hstore, Labels.get, Finmap.lookup_insert, Option.getD_some]

namespace CollectedProfile

/-- The name is the controller's own for the lower-case kind. -/
theorem name_eq_profileKey (hcollected : CollectedProfile config object event)
    (hname : toLower object.name = object.name) :
    event.profile.name = (profileKey config.storeNamespace (toLower object.kind) object.name
      object.nameSpace).2 := by
  rw [hcollected.name]
  exact (Prod.mk.inj (collectorKey_eq rfl hname)).2

theorem nameSpace_eq (hcollected : CollectedProfile config object event)
    (hstore : config.storeNamespace = "") : event.nameSpace = object.nameSpace := by
  rw [hcollected.nameSpace, CollectorManagerConfig.profileNamespace,
    if_neg (not_not_intro hstore)]

theorem label_eq (hcollected : CollectedProfile config object event)
    (hstore : config.storeNamespace ≠ "") :
    event.profile.labels.get namespaceLabel = object.nameSpace := by
  obtain ⟨id, state, containerProfile, hid, hlabel⟩ := hcollected.label
  rw [hlabel, newLabels_namespaceLabel hstore, hid]

end CollectedProfile

/-- The handler gets back to the object that the collector has named the profile after. -/
theorem object_recovered (config : CollectorManagerConfig) (object : ObjectRef)
    (event : ProfileEvent) (hkind : '-' ∉ object.kind.toList)
    (hname : toLower object.name = object.name)
    (hcollected : CollectedProfile config object event) :
    objectOf config.storeNamespace event = (object.nameSpace, object.name) := by
  apply objectOf_of_profileKey (hyphen_notMem_toLower hkind)
  · exact hcollected.name_eq_profileKey hname
  · exact hcollected.nameSpace_eq
  · exact hcollected.label_eq

def teamPod : ObjectRef := ⟨"team-a", "Pod", "web-team-a"⟩

/-- The tail of the pod's name looks like its namespace. -/
theorem teamPod_recovered :
    objectOf storingConfig.storeNamespace ⟨"kapprofiler", {
      name := "pod-web-team-a-team-a"
      labels := (∅ : Labels).insert namespaceLabel "team-a"
      spec := ⟨[]⟩ }⟩ = ("team-a", "web-team-a") :=
  object_recovered storingConfig teamPod _ (by decide) (by decide)
    ⟨rfl, rfl, ⟨"team-a", "web-team-a", "web", "c1", 1, 1⟩, ⟨true, false⟩, ⟨"web", [], [], {}, [],
      [], []⟩, rfl, rfl⟩

/-- The event of the profile that a pass has created for a container. -/
def createdEvent (config : CollectorManagerConfig) (id : ContainerId)
    (profile : ApplicationProfile) : ProfileEvent where
  nameSpace := (id.profileKey config).1
  profile := profile

/-- A pass that creates a profile makes the handler of its event look up the pod. -/
theorem pod_of_created_profile {id : ContainerId} {answers : Collector.Answers}
    {world next : World} (hname : toLower id.podName = id.podName)
    (hpass : collectContainerEvents config id answers world = (.returned .created, next)) :
    ∃ profile, next.profiles.get (id.profileKey config) = some profile ∧
      objectOf config.storeNamespace (createdEvent config id profile.value) =
        (id.nameSpace, id.podName) := by
  obtain ⟨state, version, -, -, hstored⟩ := created_profile hpass
  have hcollected : CollectedProfile config ⟨id.nameSpace, "pod", id.podName⟩
      (createdEvent config id (newProfile config id state (world.built config id answers))) :=
    ⟨rfl, rfl, id, state, _, rfl, rfl⟩
  have hkind : '-' ∉ "pod".toList := by decide
  refine ⟨_, hstored, ?_⟩
  exact objectOf_of_profileKey (hyphen_notMem_toLower hkind) (hcollected.name_eq_profileKey hname)
    hcollected.nameSpace_eq hcollected.label_eq

end Kapprofiler.Controller
