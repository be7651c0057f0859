import Mathlib.Data.Finmap

/-! # The Kubernetes objects that are read

What the API server answers about pods and the workloads that own them, with
the fields that the collector and the controller read. A lookup that fails, for
whatever reason, answers `none`.
-/

namespace Kapprofiler

abbrev Labels := Finmap fun _ : String => String

/-- Reading an absent label of a Go map yields the empty string. -/
def Labels.get (labels : Labels) (label : String) : String :=
  (labels.lookup label).getD ""

/-- The labels of the first set hide those of the second. -/
theorem Labels.get_union (first second : Labels) (label : String) :
    Labels.get (first ∪ second) label =
      if label ∈ first then first.get label else second.get label := by
  unfold Labels.get
  split
  next hfirst => rw [Finmap.lookup_union_left hfirst]
  next hfirst => rw [Finmap.lookup_union_right hfirst]

/-- Objects may be called so: lower-case letters and digits with hyphens in between. -/
def validName (name : String) : Bool :=
  name.toList.all (fun c => c.isLower || c.isDigit || c = '-') &&
    name.toList.head?.any (· ≠ '-') && name.toList.getLast?.any (· ≠ '-')

structure OwnerReference where
  kind : String
  name : String
  controller : Option Bool := none
  deriving DecidableEq

structure PodCondition where
  type : String
  status : String
  deriving DecidableEq

structure PodContainer where
  name : String
  volumeMounts : List String
  deriving DecidableEq

structure Pod where
  name : String
  nameSpace : String
  labels : Labels := ∅
  ownerReferences : List OwnerReference := []
  containers : List PodContainer := []
  conditions : List PodCondition := []
  deriving DecidableEq

def Pod.ready (pod : Pod) : Bool :=
  pod.conditions.any fun condition => condition.type = "Ready" ∧ condition.status = "True"

/-- A ReplicaSet, DaemonSet, StatefulSet, CronJob or Job. `selector` holds the
labels its pods are listed by: `Spec.Selector.MatchLabels`, or the labels of the
pod template for jobs and cron jobs. -/
structure Workload where
  name : String
  nameSpace : String
  ownerReferences : List OwnerReference := []
  selector : Labels := ∅
  deriving DecidableEq

/-- Objects are found by namespace and name. -/
structure Cluster where
  pods : String → String → Option Pod
  listPods : String → Labels → Option (List Pod)
  replicaSets : String → String → Option Workload
  daemonSets : String → String → Option Workload
  statefulSets : String → String → Option Workload
  cronJobs : String → String → Option Workload
  jobs : String → String → Option Workload

/-- A cluster that answers every request with an error. -/
def Cluster.unreachable : Cluster where
  pods _ _ := none
  listPods _ _ := none
  replicaSets _ _ := none
  daemonSets _ _ := none
  statefulSets _ _ := none
  cronJobs _ _ := none
  jobs _ _ := none

end Kapprofiler
