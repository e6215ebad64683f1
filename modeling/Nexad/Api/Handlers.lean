import Nexad.Cluster.Server

/-!
# The cluster and node handlers of the HTTP API

Each answer is a status and at most one field of JSON. Making the first token
and rotating it are one operation under two routes.
-/

namespace Nexad.Api

open Interleave Nexad.Cluster

variable (D : Domain)

/-- An error answer. -/
def failed (status : Nat) (text : String) : Code D := .ret (.http status (some ("error", text)))

/-- `StatusCode::INTERNAL_SERVER_ERROR` with the error's text. -/
def internalError (e : NexaError) : Code D := failed D 500 (D.errorText e)

/-- Make a token, store its hash, then the token itself. -/
def issueToken (sha256 : List UInt8 → List UInt8) : Code D :=
  .call .fillBytes fun (bytes : { bytes : List UInt8 // bytes.length = 32 }) =>
    let token := generateToken bytes
    ask (.setClusterConfig "join_token_hash" (hashToken sha256 token)) fun
      | .ok () => ask (.setClusterConfig "join_token" token) fun _ =>
        .ret (.http 200 (some ("token", token)))
      | .error e => internalError D e

/-- `cluster_init`. -/
def clusterInit (sha256 : List UInt8 → List UInt8) : Code D := issueToken D sha256

/-- `cluster_token_show`. -/
def clusterTokenShow : Code D :=
  ask (.getClusterConfig "join_token") fun
    | .ok (some token) => .ret (.http 200 (some ("token", token)))
    | .ok none => failed D 404 "cluster not initialized"
    | .error e => internalError D e

/-- `cluster_token_rotate`. -/
def clusterTokenRotate (sha256 : List UInt8 → List UInt8) : Code D := issueToken D sha256

/-- `drain_node`. -/
def drainNode (name : String) : Code D :=
  ask (.getNodeByName name) fun
    | .ok (some node) =>
      ask (.updateNode { node with status := .draining }) fun
        | .ok () => .ret (.http 200 none)
        | .error e => internalError D e
    | .ok none => failed D 404 s!"node '{name}' not found"
    | .error e => internalError D e

/-- `remove_node`. -/
def removeNode (name : String) : Code D :=
  ask (.getNodeByName name) fun
    | .ok (some node) =>
      if node.status ≠ .draining ∧ node.role ≠ .master then
        failed D 409 ("node '" ++ name ++ "' must be drained before removal (status: " ++
          D.nodeStatusText node.status ++ ")")
      else
        ask (.deleteNode node.id) fun
          | .ok () => .ret (.http 200 none)
          | .error e => internalError D e
    | .ok none => failed D 404 s!"node '{name}' not found"
    | .error e => internalError D e

end Nexad.Api
