import Nexad.Base.Remote
import Nexad.Runtime.Engine
import Nexad.Transport.Assignments

/-!
# Assignments over gRPC

`GrpcTransport`: the clients that a master keeps for its nodes, and `assign_pod`,
which asks the worker that the node's client is connected to. A worker is known
by the address it listens on, serves its requests with `ClusterServer`, and is
not restarted.
-/

namespace Nexad

open Interleave Nexad.Runtime Cluster

/-- The clients by node, each as the address that it is connected to. -/
abbrev Clients := Uuid → Option String

/-- Why a channel was not connected. -/
inductive ChannelError where
  /-- The endpoint is no URI. -/
  | fromShared (e : String)
  | connect (e : String)
  deriving DecidableEq, Repr

inductive ClientsOp where
  | connect (endpoint : String)
  | insert (nodeId : Uuid) (address : String)
  | remove (nodeId : Uuid)
  | get (nodeId : Uuid)
  deriving DecidableEq, Repr

abbrev clientsSig : Sig where
  Op := ClientsOp
  Ans
    | .connect _ => Except ChannelError Unit
    | .insert .. | .remove _ => Unit
    | .get _ => Option String

/-- The map is locked for one operation at a time. -/
def Clients.answer (s : Clients) (op : ClientsOp) : clientsSig.Ans op → Clients → Prop :=
  match op with
  | .connect _ => fun _ s' => s' = s
  | .insert nodeId address => fun _ s' => s' = fun n => if n = nodeId then some address else s n
  | .remove nodeId => fun _ s' => s' = fun n => if n = nodeId then none else s n
  | .get nodeId => fun (ans : Option String) s' => ans = s nodeId ∧ s' = s

/-- What the transport uses of `serde_json` and of `tonic`. -/
structure GrpcCrates (D : Domain) extends Encoder D where
  statusText : AssignPodStatus → String

/-- The transport works on its clients and asks workers, whose reply is a status or a response. -/
abbrev grpcSig (D : Domain) : Sig :=
  netSig clientsSig String (AssignRequest D) (Except AssignPodStatus AssignPodResponse)

variable {D : Domain}

namespace GrpcTransport

/-- `GrpcTransport::add_client`. -/
def addClient (nodeId : Uuid) (address : String) : Prog (grpcSig D) (Except NexaError Unit) :=
  .call (.own (.connect s!"http://{address}")) fun
    | .error (.fromShared e) => .ret (.error (.runtime s!"invalid endpoint: {e}"))
    | .error (.connect e) => .ret (.error (.runtime s!"gRPC connect failed: {e}"))
    | .ok () => .call (.own (.insert nodeId address)) fun _ => .ret (.ok ())

/-- `GrpcTransport::remove_client`. -/
def removeClient (nodeId : Uuid) : Prog (grpcSig D) (Except NexaError Unit) :=
  .call (.own (.remove nodeId)) fun _ => .ret (.ok ())

/-- `GrpcTransport::get_client`, and what follows with the client. -/
def getClient (nodeId : Uuid) (k : String → Prog (grpcSig D) (Except NexaError Unit)) :
    Prog (grpcSig D) (Except NexaError Unit) :=
  .call (.own (.get nodeId)) fun
    | none => .ret (.error (.runtime s!"no gRPC client for node {D.uuid.print nodeId}"))
    | some (address : String) => k address

/-- `GrpcTransport::assign_pod`. -/
def assignPod (G : GrpcCrates D) (nodeId : Uuid) (pod : Pod D) (spec : D.DeploymentSpec) :
    Prog (grpcSig D) (Except NexaError Unit) :=
  getClient nodeId fun address =>
    match assignPodRequest G.toEncoder pod spec with
    | .error e => .ret (.error e)
    | .ok req => .call (.send address (.clusterServer req)) fun
      | .error e => .ret (.error (.runtime s!"assign_pod RPC failed: {e}"))
      | .ok (thread : Nat) => .call (.await address thread) fun
        | .error e => .ret (.error (.runtime s!"assign_pod RPC failed: {e}"))
        | .ok (.error status) => .ret (.error (.runtime s!"assign_pod RPC failed: {G.statusText status}"))
        | .ok (.ok (resp : AssignPodResponse)) =>
          if resp.success then .ret (.ok ())
          else .ret (.error (.runtime s!"assign_pod rejected: {resp.message}"))

end GrpcTransport

/-- A call of the transport. -/
inductive TransportCall (D : Domain) where
  | addClient (nodeId : Uuid) (address : String)
  | removeClient (nodeId : Uuid)
  | assignPod (nodeId : Uuid) (pod : Pod D) (spec : D.DeploymentSpec)

def TransportCall.code (G : GrpcCrates D) : TransportCall D → Prog (grpcSig D) (Except NexaError Unit)
  | .addClient nodeId address => GrpcTransport.addClient nodeId address
  | .removeClient nodeId => GrpcTransport.removeClient nodeId
  | .assignPod nodeId pod spec => GrpcTransport.assignPod G nodeId pod spec

/-- A worker with a Docker daemon, and the requests that others than the master make to it. -/
def worker (E : Engine) (W : Workload D) (arrives : AssignRequest D → Prop) :
    Machine engineSig E.State (AssignRequest D) AssignReply :=
  E.machine (AssignRequest.code W) arrives

/-- A master with its clients, and the workers by their addresses. -/
def grpcCluster (E : Engine) (W : Workload D) (G : GrpcCrates D) (calls : TransportCall D → Prop)
    (arrives : String → AssignRequest D → Prop) :
    Machine (grpcSig D) (Net Clients String engineSig E.State (AssignRequest D) AssignReply)
      (TransportCall D) (Except NexaError Unit) :=
  Net.machine (fun address => worker E W (arrives address)) Clients.answer AssignReply.clusterServer
    (TransportCall.code G) calls

end Nexad
