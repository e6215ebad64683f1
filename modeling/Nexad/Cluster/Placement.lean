import Nexad.Cluster.System

/-!
# Pods on nodes

The orchestrator writes pods while the master serves. `pods.node_id` is a
plain column, so the store takes any id there: that only nodes that exist are
assigned is the orchestrator's own care, and it is all that is asked of its
writes here.
-/

namespace Nexad.Cluster

open Interleave

variable {D : Domain}

/-- The pod's node, if it has one, exists. -/
def Placed (s : Shared D) (pod : Pod D) : Prop :=
  ∀ id, pod.nodeId = some id → ∃ r ∈ s.nodes.rows, r.id = id

/-- `insert_pod`, `update_pod` and the deletion of a pod. A new pod may come
anywhere in the order of `list_pods`. -/
inductive WritesPod (s : Shared D) : Shared D → Prop
  | insert {pod : Pod D} {pods : List (Pod D)} (placed : Placed s pod)
      (inserted : pods.Perm (pod :: s.pods)) : WritesPod s { s with pods := pods }
  | update {pod : Pod D} (placed : Placed s pod) :
      WritesPod s { s with pods := s.pods.map fun p => if p.id = pod.id then pod else p }
  | delete (id : Uuid) : WritesPod s { s with pods := s.pods.filter fun p => p.id ≠ id }

variable (D) (sha256 : List UInt8 → List UInt8)

/-- A master node whose orchestrator writes pods. -/
def orchestrated (server : ClusterServer) (arrives : Request → Prop) :
    Machine (clusterSig D) (Shared D) Request Reply :=
  { master D sha256 server arrives with env := fun s s' => Ticks D s s' ∨ WritesPod s s' }

end Nexad.Cluster
