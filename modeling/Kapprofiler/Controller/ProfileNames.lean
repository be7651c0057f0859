import Kapprofiler.Collector.Profile
import Kapprofiler.Controller.Handler
import Kapprofiler.Foundation.Segments

/-! # Profile names in a store namespace

With a store namespace the profiles of all namespaces are stored in one, under a name
that joins kind, name and namespace by hyphens. Two objects of one kind share that
name exactly when the segments of name and namespace agree.
-/

namespace Kapprofiler.Controller

open Collector Foundation

/-- A pod or a workload. -/
structure ObjectRef where
  nameSpace : String
  kind : String
  name : String
  deriving DecidableEq

/-- The kind has no hyphens, and kind and name are lower-case. -/
structure ObjectRef.Lower (object : ObjectRef) : Prop where
  hyphen : '-' ∉ object.kind.toList
  kind : toLower object.kind = object.kind
  name : toLower object.name = object.name

/-- The parts of name and namespace between their hyphens, one after the other. -/
def ObjectRef.segments (object : ObjectRef) : List (List Char) :=
  Foundation.segments '-' object.name ++ Foundation.segments '-' object.nameSpace

/-- Neither the collector nor the controller gives the two objects one profile. -/
def NamesDistinct (config : CollectorManagerConfig) (first second : ObjectRef) : Prop :=
  (config.getApplicationProfileName first.nameSpace first.kind first.name =
      config.getApplicationProfileName second.nameSpace second.kind second.name →
    first = second) ∧
  (profileKey config.storeNamespace first.kind first.name first.nameSpace =
      profileKey config.storeNamespace second.kind second.name second.nameSpace →
    first = second)

variable {config : CollectorManagerConfig} {first second : ObjectRef}

/-- The name that both build in a store namespace. -/
def ObjectRef.storedName (object : ObjectRef) : String :=
  object.kind ++ "-" ++ object.name ++ "-" ++ object.nameSpace

theorem profileKey_of_store {storeNamespace : String} (hstore : storeNamespace ≠ "")
    (object : ObjectRef) :
    profileKey storeNamespace object.kind object.name object.nameSpace =
      (storeNamespace, object.storedName) :=
  if_pos hstore

/-- On lower-case names the collector builds the names of the controller. -/
theorem getApplicationProfileName_of_store (hstore : config.storeNamespace ≠ "")
    (hlower : first.Lower) :
    config.getApplicationProfileName first.nameSpace first.kind first.name =
      first.storedName := by
  unfold CollectorManagerConfig.getApplicationProfileName
  rw [if_pos hstore, hlower.kind, hlower.name]
  rfl

/-- The kind is the first segment, and the rest is what name and namespace have. -/
theorem segments_storedName (hlower : first.Lower) :
    Foundation.segments '-' first.storedName = first.kind.toList :: first.segments := by
  have hhyphen : "-" = String.singleton '-' := rfl
  unfold ObjectRef.storedName ObjectRef.segments
  rw [hhyphen, segments_join, segments_join, segments_of_notMem hlower.hyphen]
  rfl

theorem storedName_eq_iff (hfirst : first.Lower) (hsecond : second.Lower) :
    first.storedName = second.storedName ↔
      first.kind = second.kind ∧ first.segments = second.segments := by
  rw [← segments_inj '-', segments_storedName hfirst, segments_storedName hsecond,
    List.cons_eq_cons, String.toList_inj]

/-- Two objects have different profiles exactly if their kinds or the segments of their
names and namespaces differ. -/
theorem namesDistinct_iff (hstore : config.storeNamespace ≠ "") (hfirst : first.Lower)
    (hsecond : second.Lower) :
    NamesDistinct config first second ↔
      first = second ∨ first.kind ≠ second.kind ∨ first.segments ≠ second.segments := by
  have hnames : NamesDistinct config first second ↔
      (first.storedName = second.storedName → first = second) := by
    unfold NamesDistinct
    rw [getApplicationProfileName_of_store hstore hfirst,
      getApplicationProfileName_of_store hstore hsecond, profileKey_of_store hstore,
      profileKey_of_store hstore]
    simp
  rw [hnames, storedName_eq_iff hfirst hsecond]
  tauto

/-! ## Reading a name back -/

section Names

variable {storeNamespace kind name nameSpace : String}

theorem WorkloadKind.hyphen_notMem (kind : WorkloadKind) : '-' ∉ kind.name.toList := by
  cases kind <;> decide

/-- A kind has no hyphens, so the rest of the name follows the first one. -/
theorem segments_of_kind (hkind : '-' ∉ kind.toList) (rest : String) :
    Foundation.segments '-' (kind ++ "-" ++ rest) =
      kind.toList :: Foundation.segments '-' rest := by
  have hhyphen : "-" = String.singleton '-' := rfl
  rw [hhyphen, segments_join, segments_of_notMem hkind, List.singleton_append]

/-- Both build the same name of lower-case parts. -/
theorem collectorKey_eq {nameSpace kind name : String} {lowerKind : String}
    (hkind : toLower kind = lowerKind) (hname : toLower name = name) :
    (config.profileNamespace nameSpace, config.getApplicationProfileName nameSpace kind name) =
      profileKey config.storeNamespace lowerKind name nameSpace := by
  unfold CollectorManagerConfig.profileNamespace profileKey
    CollectorManagerConfig.getApplicationProfileName
  rw [hkind, hname]
  split <;> rfl

/-- The name of a profile behind its kind. -/
theorem profileKey_eq_kind_append :
    ∃ rest, (profileKey storeNamespace kind name nameSpace).2 = kind ++ "-" ++ rest := by
  unfold profileKey
  split
  · exact ⟨name ++ "-" ++ nameSpace, by simp only [String.append_assoc]⟩
  · exact ⟨name, rfl⟩

/-- Objects of different kinds have different profiles. -/
theorem kind_eq_of_profileKey_eq {otherKind otherName otherNameSpace : String}
    (hkind : '-' ∉ kind.toList) (hother : '-' ∉ otherKind.toList)
    (heq : profileKey storeNamespace kind name nameSpace =
      profileKey storeNamespace otherKind otherName otherNameSpace) : kind = otherKind := by
  obtain ⟨rest, hrest⟩ := @profileKey_eq_kind_append storeNamespace kind name nameSpace
  obtain ⟨otherRest, hotherRest⟩ :=
    @profileKey_eq_kind_append storeNamespace otherKind otherName otherNameSpace
  rw [heq, hotherRest] at hrest
  have hsegments := congrArg (Foundation.segments '-') hrest
  rw [segments_of_kind hkind, segments_of_kind hother, List.cons_eq_cons] at hsegments
  exact String.toList_inj.mp hsegments.1.symm

theorem trimSuffix_append (s suffix : String) : trimSuffix (s ++ suffix) suffix = s := by
  unfold trimSuffix
  rw [if_pos (by simp [String.toList_append]), String.toList_append, List.length_append,
    Nat.add_sub_cancel, List.take_left, String.ofList_toList]

/-- The handler drops the kind from the name of a profile. -/
theorem objectOf_of_name {event : ProfileEvent} {rest : String} (hkind : '-' ∉ kind.toList)
    (hname : event.profile.name = kind ++ "-" ++ rest) :
    objectOf storeNamespace event =
      if storeNamespace = "" then (event.nameSpace, rest)
      else (event.profile.labels.get namespaceLabel,
        trimSuffix rest ("-" ++ event.profile.labels.get namespaceLabel)) := by
  have hrest : String.ofList
      (['-'].intercalate ((event.profile.name.toList.splitOn '-').drop 1)) = rest := by
    have hsegments := segments_of_kind hkind rest
    unfold Foundation.segments at hsegments
    rw [hname, hsegments, List.drop_one, List.tail_cons, List.intercalate_splitOn,
      String.ofList_toList]
  unfold objectOf
  simp only [hrest]

/-- From the profile of an object, the handler gets back to the object. -/
theorem objectOf_of_profileKey {event : ProfileEvent} (hkind : '-' ∉ kind.toList)
    (hname : event.profile.name = (profileKey storeNamespace kind name nameSpace).2)
    (hevent : storeNamespace = "" → event.nameSpace = nameSpace)
    (hlabel : storeNamespace ≠ "" → event.profile.labels.get namespaceLabel = nameSpace) :
    objectOf storeNamespace event = (nameSpace, name) := by
  unfold profileKey at hname
  by_cases hstore : storeNamespace = ""
  · rw [if_neg (not_not_intro hstore)] at hname
    rw [objectOf_of_name hkind hname, if_pos hstore, hevent hstore]
  · rw [if_pos hstore] at hname
    have hname' : event.profile.name = kind ++ "-" ++ (name ++ ("-" ++ nameSpace)) := by
      rw [hname]
      simp only [String.append_assoc]
    rw [objectOf_of_name hkind hname', if_neg hstore, hlabel hstore, trimSuffix_append]

end Names

/-! ## Two pods -/

/-- The configuration of a collector that stores all profiles in one namespace. -/
def storingConfig : CollectorManagerConfig where
  interval := 60
  finalizeTime := 80
  finalizeJitter := 10
  recordStrategy := .onlyIfNotExists
  ignoreMounts := false
  ignorePrefixes := []
  storeNamespace := "kapprofiler"

def webPod : ObjectRef := ⟨"prod-eu", "pod", "web"⟩

/-- The pod of another namespace. -/
def webProdPod : ObjectRef := ⟨"eu", "pod", "web-prod"⟩

def apiPod : ObjectRef := ⟨"eu", "pod", "api-prod"⟩

theorem ObjectRef.lower_pods : webPod.Lower ∧ webProdPod.Lower ∧ apiPod.Lower :=
  ⟨⟨by decide, by decide, by decide⟩, ⟨by decide, by decide, by decide⟩,
    ⟨by decide, by decide, by decide⟩⟩

theorem web_api_distinct : NamesDistinct storingConfig webPod apiPod := by
  obtain ⟨hweb, _, hapi⟩ := ObjectRef.lower_pods
  exact (namesDistinct_iff (by decide) hweb hapi).mpr (Or.inr (Or.inr (by decide)))

/-- The pod `web` of `prod-eu` and the pod `web-prod` of `eu` share a profile. -/
theorem web_pods_share : webPod.Lower ∧ webProdPod.Lower ∧ webPod ≠ webProdPod ∧
    webPod.segments = webProdPod.segments ∧
    ¬ NamesDistinct storingConfig webPod webProdPod := by
  obtain ⟨hweb, hwebProd, _⟩ := ObjectRef.lower_pods
  refine ⟨hweb, hwebProd, by decide, by decide, ?_⟩
  intro hdistinct
  exact absurd (hdistinct.1 (by decide)) (by decide)

end Kapprofiler.Controller
