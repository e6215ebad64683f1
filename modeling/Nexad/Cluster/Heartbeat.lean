import Nexad.Cluster.Server

/-!
# The heartbeat monitor

One pass of `check_nodes`: list the nodes, read the clock once, and go
through the list, writing back every stale worker as it was listed but for
its status.
-/

namespace Nexad.Cluster

open Interleave

/-- `NOT_READY_THRESHOLD`, 30 s. -/
def notReadyThreshold : Int := 30_000_000_000

/-- `DEAD_THRESHOLD`, 60 s. -/
def deadThreshold : Int := 60_000_000_000

/-- Time since the last heartbeat; none if that is in the future. -/
def elapsed (now : DateTime) (node : Node) : Int := max 0 (now - node.lastHeartbeat)

variable (D : Domain)

/-- Hand over the pods of a dead node, if it has any. -/
def collectPods (node : Node) (rest : Code D) : Code D :=
  ask (.listPods none) fun
    | .error e => .ret (.pass (.error e))
    | .ok pods =>
      let nodePods := pods.filter fun p => p.nodeId = some node.id
      if nodePods.isEmpty then rest else .call (.reschedule node.id nodePods) fun _ => rest

/-- The loop of `check_nodes`. -/
def checkEach (now : DateTime) : List Node → Code D
  | [] => .ret (.pass (.ok ()))
  | node :: rest =>
    if node.role = .master then checkEach now rest
    else if deadThreshold ≤ elapsed now node then
      if node.status ≠ .notReady then
        ask (.updateNode { node with status := .notReady }) fun _ =>
          collectPods D node (checkEach now rest)
      else collectPods D node (checkEach now rest)
    else if notReadyThreshold ≤ elapsed now node ∧ node.status ≠ .notReady then
      ask (.updateNode { node with status := .notReady }) fun _ => checkEach now rest
    else checkEach now rest

/-- `check_nodes`. -/
def checkNodes : Code D :=
  ask .listNodes fun
    | .error e => .ret (.pass (.error e))
    | .ok nodes => .call .now fun (now : DateTime) => checkEach D now nodes

end Nexad.Cluster
