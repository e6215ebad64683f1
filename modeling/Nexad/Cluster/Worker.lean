import Nexad.Cluster.Server

/-!
# A worker process

`start_worker` up to its servers, and the pings that a worker sends once it has
joined. A worker asks the master for an id once, in one call over the network,
and comes to an end if that call fails or is refused.
-/

namespace Nexad.Cluster

open Interleave

/-- What a worker is started with. -/
structure WorkerArgs where
  masterAddr : String
  token : String
  listenAddr : String
  deriving DecidableEq, Repr

/-- A worker that has joined. -/
structure Worker where
  args : WorkerArgs
  hostname : String
  nodeId : Uuid
  /-- The server that it starts for pod assignments. -/
  server : ClusterServer

inductive WorkerOp where
  | hostname
  | collectResources
  | connect (endpoint : String)
  | register (req : RegisterRequest)

/-- All but the measuring of resources may fail. -/
abbrev workerSig : Sig where
  Op := WorkerOp
  Ans
    | .hostname => Except String String
    | .collectResources => NodeResources
    | .connect _ => Except String Unit
    | .register _ => Except String RegisterResponse

/-- What a worker registers. -/
def registerRequest (args : WorkerArgs) (hostname : String) (resources : NodeResources) :
    RegisterRequest := ⟨hostname, args.listenAddr, args.token, some resources⟩

variable (D : Domain) (sha256 : List UInt8 → List UInt8)

/-- The worker that a registration makes. -/
def joined (args : WorkerArgs) (hostname : String) : Except String RegisterResponse → Except String Worker
  | .error e => .error e
  | .ok resp =>
    if !resp.accepted then .error s!"master rejected registration: {resp.message}"
    else
      match D.uuid.parse resp.nodeId with
      | .error e => .error s!"invalid node_id from master: {e}"
      | .ok nodeId => .ok ⟨args, hostname, nodeId, ⟨hashToken sha256 args.token⟩⟩

/-- `start_worker`, up to its servers. -/
def startWorker (args : WorkerArgs) : Prog workerSig (Except String Worker) :=
  .call .hostname fun
  | .error e => .ret (.error s!"failed to get hostname: {e}")
  | .ok (hostname : String) => .call .collectResources fun (resources : NodeResources) =>
    .call (.connect s!"http://{args.masterAddr}") fun
    | .error e => .ret (.error e)
    | .ok () => .call (.register (registerRequest args hostname resources)) fun resp =>
      .ret (joined D sha256 args hostname resp)

/-- A ping of `run_heartbeat_sender`. -/
def Worker.ping (worker : Worker) (resources : NodeResources) : HeartbeatPing :=
  ⟨D.uuid.print worker.nodeId, "ready", some resources⟩

end Nexad.Cluster
