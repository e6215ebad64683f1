import Nexad.Base.Handlers
import Nexad.Transport.AssignPod

/-!
# Assignments at the same time

A machine is asked for pods by its own daemon and by the master, and serves the
requests side by side: nothing orders the assignments of one machine.
-/

namespace Nexad

open Interleave Nexad.Runtime

/-- A pod that a machine is asked for. -/
inductive AssignRequest (D : Domain) where
  | localTransport (pod : Pod D) (spec : D.DeploymentSpec)
  | clusterServer (req : Cluster.AssignPodRequest)

/-- What the caller is told. -/
inductive AssignReply where
  | localTransport (result : Except NexaError Unit)
  | clusterServer (result : Except Cluster.AssignPodStatus Cluster.AssignPodResponse)

/-- The caller is told that the pod is there. -/
def AssignReply.success : AssignReply → Bool
  | .localTransport result => result.isOk
  | .clusterServer (.ok response) => response.success
  | .clusterServer (.error _) => false

variable {D : Domain} (W : Workload D)

/-- The code of a request, over the port of a runtime. -/
def AssignRequest.code : AssignRequest D → Prog runtimeSig AssignReply
  | .localTransport pod spec =>
    (LocalTransport.assignPod W pod spec).bind fun result => .ret (.localTransport result)
  | .clusterServer req =>
    (Cluster.ClusterServer.assignPod W req).bind fun result => .ret (.clusterServer result)

/-- The request is for this pod. -/
inductive AssignRequest.For : AssignRequest D → Pod D → D.DeploymentSpec → Prop
  | localTransport (pod : Pod D) (spec : D.DeploymentSpec) : For (.localTransport pod spec) pod spec
  | clusterServer {req : Cluster.AssignPodRequest} {pod : Pod D} {spec : D.DeploymentSpec}
      (pod_read : W.podFromSlice req.podData = .ok pod)
      (spec_read : W.specFromSlice req.deploymentSpec = .ok spec) : For (.clusterServer req) pod spec

end Nexad
