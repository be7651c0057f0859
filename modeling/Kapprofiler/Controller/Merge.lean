import Kapprofiler.Collector.Types
import Kapprofiler.Foundation.AppendWhen

/-! # The merge loop of the controller

`handleApplicationProfile` merges the profiles of a workload's pods container by
container. The Go map of containers is the list of its values: the key of each is
its name, and the order in which Go ranges over it is chosen by the caller.
-/

namespace Kapprofiler.Controller

open Collector Foundation

/-- Append the entries that no entry of the list equals, one by one. -/
def mergeEntries {Entry : Type} (equals : Entry → Entry → Bool) :
    List Entry → List Entry → List Entry :=
  List.foldl (appendWhen (fun kept entry => !kept.any fun mapEntry => equals mapEntry entry) id)

def mergeContainer (mapContainer container : ContainerProfile) : ContainerProfile where
  name := mapContainer.name
  sysCalls := mergeEntries (fun a b => a = b) mapContainer.sysCalls container.sysCalls
  execs := mergeEntries ExecCalls.equals mapContainer.execs container.execs
  capabilities := mergeEntries CapabilitiesCalls.equals mapContainer.capabilities
    container.capabilities
  opens := mergeEntries OpenCalls.equals mapContainer.opens container.opens
  dns := mergeEntries DnsCalls.equals mapContainer.dns container.dns
  networkActivity :=
    { incoming := mergeEntries NetworkCalls.equals mapContainer.networkActivity.incoming
        container.networkActivity.incoming
      outgoing := mergeEntries NetworkCalls.equals mapContainer.networkActivity.outgoing
        container.networkActivity.outgoing }

/-- Merge into the container of that name, or add the container to the map. -/
def addContainer : List ContainerProfile → ContainerProfile → List ContainerProfile
  | [], container => [container]
  | mapContainer :: rest, container =>
      if mapContainer.name = container.name then mergeContainer mapContainer container :: rest
      else mapContainer :: addContainer rest container

/-- Merge all containers of one pod's profile. -/
def addPod (containersMap : List ContainerProfile) (profile : ApplicationProfile) :
    List ContainerProfile :=
  profile.spec.containers.foldl addContainer containersMap

end Kapprofiler.Controller
