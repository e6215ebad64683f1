import Nexad.Cluster.Store

/-!
# Join tokens and the cluster server

`cluster/token.rs`, and the two handlers of `ClusterServer` that touch the
store: `register`, and the task that serves one heartbeat stream. The server
compares tokens with the hash it was given when it was made.
-/

namespace Nexad.Cluster

open Interleave

/-- `hex::encode`. -/
def hexEncode (bytes : List UInt8) : String :=
  String.ofList (bytes.flatMap fun b => [Nat.digitChar (b.toNat / 16), Nat.digitChar (b.toNat % 16)])

/-- The bytes of a text. -/
def utf8 (s : String) : List UInt8 := s.toUTF8.data.toList

/-- `generate_token`, from the random bytes it draws. -/
def generateToken (bytes : List UInt8) : String := "nxa_" ++ hexEncode bytes

section Token

variable (sha256 : List UInt8 → List UInt8)

/-- `hash_token`. -/
def hashToken (token : String) : String := hexEncode (sha256 (utf8 token))

/-- What a `ClusterServer` remembers. -/
structure ClusterServer where
  tokenHash : String

/-- `ClusterServer::verify_token`. -/
def ClusterServer.verifyToken (server : ClusterServer) (token : String) : Bool :=
  hexEncode (sha256 (utf8 token)) == server.tokenHash

end Token

/-- `RegisterRequest`. -/
structure RegisterRequest where
  nodeName : String
  nodeAddress : String
  token : String
  resources : Option NodeResources

/-- `RegisterResponse`. -/
structure RegisterResponse where
  nodeId : String
  accepted : Bool
  message : String
  deriving DecidableEq, Repr

/-- `HeartbeatPing`, without the pod statuses that nothing reads. -/
structure HeartbeatPing where
  nodeId : String
  status : String
  resources : Option NodeResources

/-- How a handler or task ends. -/
inductive Reply where
  /-- An HTTP answer: its status, and the one field of its JSON body. -/
  | http (status : Nat) (body : Option (String × String))
  | register (response : RegisterResponse)
  /-- `Status::internal`. -/
  | internal (message : String)
  /-- A heartbeat stream is at its end. -/
  | streamEnd
  /-- A monitor pass is at its end. -/
  | pass (result : Except NexaError Unit)

variable {D : Domain}

/-- The code of a handler or task. -/
abbrev Code (D : Domain) := Prog (clusterSig D) Reply

/-- Call the store and go on from its answer. -/
def ask {α : Type} (c : StoreCall) (k : Except NexaError (c.Res D) → Prog (clusterSig D) α) :
    Prog (clusterSig D) α :=
  .call (.store c) k

/-- A registration that is not accepted. -/
def refused (message : String) : Reply := .register ⟨"", false, message⟩

variable (D)

/-- Make a node of a registration that is in order, and insert it. -/
def admitNode (req : RegisterRequest) : Code D :=
  .call (.newNode req.nodeName req.nodeAddress .worker
    (req.resources.getD D.zeroResources)) fun (node : Node) =>
  ask (.insertNode node) fun
    | .error _ => .ret (.internal "failed to register node")
    | .ok () => .ret (.register ⟨D.uuid.print node.id, true, "registered"⟩)

/-- `ClusterServer::register`. -/
def ClusterServer.register (sha256 : List UInt8 → List UInt8) (server : ClusterServer)
    (req : RegisterRequest) : Code D :=
  if !server.verifyToken sha256 req.token then .ret (refused "invalid join token")
  else ask (.getNodeByName req.nodeName) fun
    | .ok (some _) => .ret (refused s!"node '{req.nodeName}' already registered")
    | _ => admitNode D req

/-- The status that a ping reports. -/
def pingStatus (status : String) : NodeStatus :=
  if status = "ready" then .ready else if status = "draining" then .draining else .notReady

/-- The node that a ping makes of the one that was read. -/
def pinged (ping : HeartbeatPing) (now : DateTime) (node : Node) : Node :=
  { node with
    lastHeartbeat := now
    status := pingStatus ping.status
    resources := ping.resources.getD node.resources }

/-- Acknowledge a ping, and go on while the worker listens. -/
def sendPong (rest : Code D) : Code D :=
  .call .sendPong fun (closed : Bool) => if closed then .ret .streamEnd else rest

/-- Write back the node that was read for a ping, if there was one. -/
def servePing (ping : HeartbeatPing) (rest : Code D) : Except NexaError (Option Node) → Code D
  | .ok (some node) => .call .now fun (now : DateTime) =>
    ask (.updateNode (pinged ping now node)) fun _ => sendPong D rest
  | _ => sendPong D rest

/-- The task of `ClusterServer::heartbeat`, over the pings of its stream. -/
def ClusterServer.heartbeat : List HeartbeatPing → Code D
  | [] => .ret .streamEnd
  | ping :: rest =>
    match D.uuid.parse ping.nodeId with
    | .error _ => heartbeat rest
    | .ok id => ask (.getNode id) (servePing D ping (heartbeat rest))

end Nexad.Cluster
