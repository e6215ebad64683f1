import Nexad.Cluster.Server
import Nexad.Runtime.Types

/-!
# Assigning a pod

The two ends at which a pod is put on a machine: `LocalTransport::assign_pod`
for the machine of the daemon itself, `ClusterServer::assign_pod` for a
worker, which gets pod and spec as bytes. They make the same container, and
differ in what they do with an error.
-/

namespace Nexad

open Interleave Nexad.Runtime

/-- What the domain crate knows of the work that a pod does. -/
structure Workload (D : Domain) where
  VolumeSpec : Type
  image : D.DeploymentSpec → String
  replicas : D.DeploymentSpec → UInt32
  ports : D.DeploymentSpec → List UInt16
  env : D.DeploymentSpec → TextMap
  volumes : D.DeploymentSpec → List VolumeSpec
  sourceName : VolumeSpec → String
  mountPoint : VolumeSpec → String
  isReadOnly : VolumeSpec → Bool
  /-- `Pod::container_name`. -/
  containerName : Pod D → String
  /-- Read from JSON. -/
  podFromSlice : List UInt8 → Except String (Pod D)
  specFromSlice : List UInt8 → Except String D.DeploymentSpec

/-- One replica of one image, without volumes. -/
def Workload.plain : Workload Domain.plain where
  VolumeSpec := String
  image := fun _ => "nginx:1.25"
  replicas := fun _ => 1
  ports := fun _ => [80]
  env := fun _ => ∅
  volumes := fun _ => []
  sourceName := id
  mountPoint := id
  isReadOnly := fun _ => false
  containerName := fun pod => s!"nexa-{pod.project}-{pod.deploymentName}-{pod.replicaIndex}"
  podFromSlice := fun _ => .error "EOF while parsing a value"
  specFromSlice := fun _ => .error "EOF while parsing a value"

variable {D : Domain} (W : Workload D)

namespace Workload

/-- The network of a spec's project. -/
def networkName (spec : D.DeploymentSpec) : String := s!"nexa-{D.project spec}"

/-- The labels of a pod's container. -/
def labels (pod : Pod D) (spec : D.DeploymentSpec) : TextMap :=
  (∅ : TextMap).insert "managed-by" "nexanet"
    |>.insert "nexa.project" (D.project spec)
    |>.insert "nexa.deployment" (D.deploymentName spec)
    |>.insert "nexa.pod-id" (D.uuid.print pod.id)

/-- What both ends make a pod's container from. -/
def containerConfig (pod : Pod D) (spec : D.DeploymentSpec) : ContainerConfig where
  name := W.containerName pod
  image := W.image spec
  command := []
  env := W.env spec
  ports := (W.ports spec).map fun p => ⟨p, if W.replicas spec = 1 then some p else none⟩
  volumes := (W.volumes spec).map fun v => ⟨W.sourceName v, W.mountPoint v, W.isReadOnly v⟩
  labels := labels pod spec
  network := some (networkName spec)
  dns := []
  dnsSearch := []

end Workload

/-- `unwrap_or(false)`. -/
def unwrapOrFalse : Except NexaError Bool → Bool
  | .ok found => found
  | .error _ => false

section Steps

variable {α : Type}

/-- Stop and remove a container that was found, whatever comes of it. -/
def clearContainer (found : Bool) (name : String) (rest : Prog runtimeSig α) :
    Prog runtimeSig α :=
  if found then
    .call (.stopContainer name 5) fun _ => .call (.removeContainer name true) fun _ => rest
  else rest

/-- Make a network unless it is known to be there, whatever comes of it. -/
def ensureNetwork (name : String) (rest : Prog runtimeSig α) : Prog runtimeSig α :=
  .call (.containerExists name) fun (ans : Except NexaError Bool) =>
    if unwrapOrFalse ans then rest else .call (.createNetwork name) fun _ => rest

end Steps

/-- `LocalTransport::assign_pod`. -/
def LocalTransport.assignPod (pod : Pod D) (spec : D.DeploymentSpec) :
    Prog runtimeSig (Except NexaError Unit) :=
  let name := W.containerName pod
  .call (.pullImage (W.image spec)) fun _ =>
  .call (.containerExists name) fun
    | .error e => .ret (.error e)
    | .ok (found : Bool) =>
      clearContainer found name <|
      ensureNetwork (Workload.networkName spec) <|
      .call (.createContainer (W.containerConfig pod spec)) fun
        | .error e => .ret (.error e)
        | .ok (containerId : String) =>
          .call (.startContainer containerId) fun (ans : Except NexaError Unit) => .ret ans

namespace Cluster

/-- `AssignPodRequest`, as far as the handler reads it. -/
structure AssignPodRequest where
  podData : List UInt8
  deploymentSpec : List UInt8
  deriving DecidableEq, Repr

/-- `AssignPodResponse`. -/
structure AssignPodResponse where
  success : Bool
  message : String
  containerId : String
  deriving DecidableEq, Repr

/-- The status that the handler refuses with. -/
inductive AssignPodStatus where
  | invalidArgument (message : String)
  deriving DecidableEq, Repr

/-- `ClusterServer::assign_pod`. -/
def ClusterServer.assignPod (req : AssignPodRequest) :
    Prog runtimeSig (Except AssignPodStatus AssignPodResponse) :=
  match W.podFromSlice req.podData, W.specFromSlice req.deploymentSpec with
  | .error e, _ => .ret (.error (.invalidArgument s!"bad pod data: {e}"))
  | .ok _, .error e => .ret (.error (.invalidArgument s!"bad spec: {e}"))
  | .ok pod, .ok spec =>
    let name := W.containerName pod
    .call (.pullImage (W.image spec)) fun _ =>
    .call (.containerExists name) fun (ans : Except NexaError Bool) =>
    clearContainer (unwrapOrFalse ans) name <|
    ensureNetwork (Workload.networkName spec) <|
    .call (.createContainer (W.containerConfig pod spec)) fun
      | .error e => .ret (.ok ⟨false, "create failed: " ++ D.errorText e, ""⟩)
      | .ok (containerId : String) => .call (.startContainer containerId) fun
        | .error e => .ret (.ok ⟨false, "start failed: " ++ D.errorText e, ""⟩)
        | .ok () => .ret (.ok ⟨true, "running", containerId⟩)

end Cluster

/-- What `serde_json` writes of a pod and of a spec. -/
structure Encoder (D : Domain) where
  podToVec : Pod D → Except String (List UInt8)
  specToVec : D.DeploymentSpec → Except String (List UInt8)

/-- The request that `GrpcTransport::assign_pod` sends. -/
def GrpcTransport.assignPodRequest (E : Encoder D) (pod : Pod D) (spec : D.DeploymentSpec) :
    Except NexaError Cluster.AssignPodRequest :=
  match E.podToVec pod, E.specToVec spec with
  | .error e, _ => .error (.runtime s!"serialize pod: {e}")
  | .ok _, .error e => .error (.runtime s!"serialize spec: {e}")
  | .ok podData, .ok specData => .ok ⟨podData, specData⟩

end Nexad
