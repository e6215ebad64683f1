import Nexad.Api.Handlers
import Nexad.Cluster.Heartbeat

/-!
# The master node

Every handler and task of the cluster over one store: requests arrive at any
moment, and each call of the store is a step of its own. The environment lets
the clock go forward. A master first registers itself and loads or makes the
join token, and only then serves.
-/

namespace Nexad.Cluster

open Interleave

/-- What a master node serves. -/
inductive Request where
  | register (req : RegisterRequest)
  | heartbeat (pings : List HeartbeatPing)
  | checkNodes
  | drainNode (name : String)
  | removeNode (name : String)
  | clusterInit
  | clusterTokenShow
  | clusterTokenRotate

variable (D : Domain) (sha256 : List UInt8 → List UInt8)

/-- The code that serves a request. -/
def Request.code (server : ClusterServer) : Request → Code D
  | register req => server.register D sha256 req
  | heartbeat pings => ClusterServer.heartbeat D pings
  | checkNodes => Cluster.checkNodes D
  | drainNode name => Api.drainNode D name
  | removeNode name => Api.removeNode D name
  | clusterInit => Api.clusterInit D sha256
  | clusterTokenShow => Api.clusterTokenShow D
  | clusterTokenRotate => Api.clusterTokenRotate D sha256

/-- The clock goes forward, and nothing else happens. -/
inductive Ticks (s : Shared D) : Shared D → Prop
  | tick {later : DateTime} (forward : s.clock ≤ later) : Ticks s { s with clock := later }

/-- Histories of a master node. -/
abbrev MasterHistory := History (clusterSig D) (Shared D) Request

/-- Its threads. -/
abbrev MasterPool := Pool (clusterSig D) (Shared D) Request Reply

/-- A master node that serves the requests of `arrives`. -/
def master (server : ClusterServer) (arrives : Request → Prop) :
    Machine (clusterSig D) (Shared D) Request Reply where
  code := Request.code D sha256 server
  arrives := arrives
  answer := Answered
  env := Ticks D

/-- `start_master` up to its servers: register this machine, and load the
join token's hash or make a token. -/
def startMaster (hostname address : String) (resources : NodeResources) :
    Prog (clusterSig D) (Except NexaError ClusterServer) :=
  .call (.newNode hostname address .master resources) fun (node : Node) =>
  ask (.insertNode node) fun _ =>
  ask (.getClusterConfig "join_token_hash") fun
    | .error e => .ret (.error e)
    | .ok (some hash) => .ret (.ok ⟨hash⟩)
    | .ok none => .call .fillBytes fun (bytes : { bytes : List UInt8 // bytes.length = 32 }) =>
      let hash := hashToken sha256 (generateToken bytes)
      ask (.setClusterConfig "join_token_hash" hash) fun
        | .error e => .ret (.error e)
        | .ok () => .ret (.ok ⟨hash⟩)

end Nexad.Cluster
