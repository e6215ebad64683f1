import Nexad.Transport.AssignPod

/-!
# The pod requests of a worker

The three requests about pods that `ClusterServer` serves. `AssignPod` carries
the pod as bytes, the other two its id only.
-/

namespace Nexad.Cluster

open Interleave Nexad.Runtime

/-- `StopPodRequest`, as far as the handler reads it. -/
structure StopPodRequest where
  podId : String
  deriving DecidableEq, Repr

/-- `StopPodResponse`. -/
structure StopPodResponse where
  success : Bool
  message : String
  deriving DecidableEq, Repr

/-- `RemovePodRequest`, as far as the handler reads it. -/
structure RemovePodRequest where
  podId : String
  deriving DecidableEq, Repr

/-- `RemovePodResponse`. -/
structure RemovePodResponse where
  success : Bool
  message : String
  deriving DecidableEq, Repr

/-- `ClusterServer::stop_pod`, whose use of the id is to log it. -/
def ClusterServer.stopPod (_req : StopPodRequest) : Prog runtimeSig StopPodResponse :=
  .ret ⟨true, "stopped"⟩

/-- `ClusterServer::remove_pod`, whose use of the id is to log it. -/
def ClusterServer.removePod (_req : RemovePodRequest) : Prog runtimeSig RemovePodResponse :=
  .ret ⟨true, "removed"⟩

/-- A request about a pod. -/
inductive PodRequest where
  | assignPod (req : AssignPodRequest)
  | stopPod (req : StopPodRequest)
  | removePod (req : RemovePodRequest)
  deriving DecidableEq, Repr

/-- The id of the pod that a request is about, as far as it can be read. -/
def PodRequest.podId {D : Domain} (W : Workload D) : PodRequest → Option String
  | .assignPod req => (W.podFromSlice req.podData).toOption.map fun pod => D.uuid.print pod.id
  | .stopPod req => some req.podId
  | .removePod req => some req.podId

end Nexad.Cluster
