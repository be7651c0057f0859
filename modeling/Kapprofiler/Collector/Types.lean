import Kapprofiler.Cluster
import Kapprofiler.Foundation.VersionedStore
import Kapprofiler.Tracing.Events

/-! # Application profiles

The profile types of `pkg/collector/types.go` and their equalities, the labels
that the collector and the controller put on a profile, and the identity of a
traced container.
-/

namespace Kapprofiler.Collector

structure ExecCalls where
  path : String
  upperLayer : Bool
  args : List String
  envs : List String
  deriving DecidableEq, Repr

structure NetworkCalls where
  protocol : String
  port : UInt16
  dstEndpoint : String
  deriving DecidableEq, Repr

structure NetworkActivity where
  incoming : List NetworkCalls := []
  outgoing : List NetworkCalls := []
  deriving DecidableEq, Repr

structure OpenCalls where
  path : String
  flags : List String
  deriving DecidableEq, Repr

structure CapabilitiesCalls where
  capabilities : List String
  syscall : String
  deriving DecidableEq, Repr

structure DnsCalls where
  dnsName : String
  addresses : List String
  deriving DecidableEq, Repr

structure ContainerProfile where
  name : String
  execs : List ExecCalls := []
  opens : List OpenCalls := []
  networkActivity : NetworkActivity := {}
  capabilities : List CapabilitiesCalls := []
  dns : List DnsCalls := []
  sysCalls : List String := []
  deriving DecidableEq, Repr

structure ApplicationProfileSpec where
  containers : List ContainerProfile
  deriving DecidableEq, Repr

/-- The unstructured form that the API server stores is the profile itself. -/
structure ApplicationProfile where
  name : String
  labels : Labels
  spec : ApplicationProfileSpec
  deriving DecidableEq

def partialLabel : String := "kapprofiler.kubescape.io/partial"
def failedLabel : String := "kapprofiler.kubescape.io/failed"
def finalLabel : String := "kapprofiler.kubescape.io/final"
def namespaceLabel : String := "kapprofiler.kubescape.io/namespace"

/-- The merge patch `{"metadata":{"labels":{label: "true"}}}`. -/
def ApplicationProfile.mark (label : String) (profile : ApplicationProfile) :
    ApplicationProfile :=
  { profile with labels := profile.labels.insert label "true" }

/-- A marked profile carries the mark. -/
theorem mark_get (label : String) (profile : ApplicationProfile) :
    (profile.mark label).labels.get label = "true" := by
  simp [ApplicationProfile.mark, Labels.get, Finmap.lookup_insert]

/-- Marking a profile that is marked already changes nothing. -/
theorem mark_of_marked {profile : ApplicationProfile} {label : String}
    (hmarked : profile.labels.get label = "true") : profile.mark label = profile := by
  have hlabels : profile.labels.insert label "true" = profile.labels := by
    apply Finmap.ext_lookup
    intro other
    by_cases hother : other = label
    · subst hother
      rw [Finmap.lookup_insert]
      unfold Labels.get at hmarked
      cases hlookup : profile.labels.lookup other with
      | none =>
          rw [hlookup] at hmarked
          exact absurd hmarked (by decide)
      | some value =>
          rw [hlookup] at hmarked
          rw [← hmarked]
          rfl
    · exact Finmap.lookup_insert_of_ne _ hother
  unfold ApplicationProfile.mark
  rw [hlabels]

theorem mark_ne_of_unmarked {profile : ApplicationProfile} {label : String}
    (hunmarked : profile.labels.get label ≠ "true") : profile.mark label ≠ profile := by
  intro hsame
  apply hunmarked
  rw [← hsame]
  exact mark_get label profile

def ApplicationProfile.isFinal (profile : ApplicationProfile) : Prop :=
  profile.labels.get finalLabel = "true"

instance (profile : ApplicationProfile) : Decidable profile.isFinal :=
  inferInstanceAs (Decidable (_ = _))

/-- The profiles that the API server stores, by namespace and name. -/
abbrev ProfileStore := Foundation.VersionedStore (String × String) ApplicationProfile

/-! ## Equalities used by the controller -/

/-- `Envs` and `UpperLayer` are not compared. -/
def ExecCalls.equals (a b : ExecCalls) : Bool :=
  a.path = b.path ∧ a.args = b.args

def OpenCalls.equals (a b : OpenCalls) : Bool :=
  a.path = b.path ∧ a.flags = b.flags

def CapabilitiesCalls.equals (a b : CapabilitiesCalls) : Bool :=
  a.syscall = b.syscall ∧ a.capabilities = b.capabilities

def DnsCalls.equals (a b : DnsCalls) : Bool :=
  a.dnsName = b.dnsName ∧ a.addresses = b.addresses

def NetworkCalls.equals (a b : NetworkCalls) : Bool :=
  a.protocol = b.protocol ∧ a.port = b.port ∧ a.dstEndpoint = b.dstEndpoint

/-! ## Container identity -/

structure ContainerId where
  nameSpace : String
  podName : String
  container : String
  containerID : String
  nsMntId : UInt64
  pid : UInt32
  deriving DecidableEq, Repr

structure ContainerState where
  running : Bool
  attached : Bool
  deriving DecidableEq, Repr

end Kapprofiler.Collector
