import Nexad.State.Sqlite

/-!
# `SqliteStore`: nodes and the configuration of the cluster

The other operations of the store, one statement each as well. The quantities
of a node are bound as signed integers of their own width and cast back when
they are read. A column of reals keeps a number and not its bits: a NaN is
bound as null, and a zero, which the file keeps as an integer, loses its sign.

`StoreState` is every state that the store can be in.
-/

namespace Nexad

/-- Zero, of either sign. -/
def F64.isZero (x : F64) : Bool := x.bits &&& 0x7FFFFFFFFFFFFFFF == 0

/-- `==` of two numbers. -/
def F64.equals (x y : F64) : Bool := !x.isNaN && (x.bits == y.bits || (x.isZero && y.isZero))

namespace State

open Relational

/-- What else the domain crate decides about the text of a node. A status is
written as `Domain.nodeStatusText` says. -/
structure NodeText where
  role : TextForm NodeRole
  parseStatus : String → Except String NodeStatus

/-- How a status is written and read. -/
def NodeText.status (N : NodeText) (D : Domain) : TextForm NodeStatus :=
  ⟨D.nodeStatusText, N.parseStatus⟩

/-! ## Columns of numbers -/

/-- A bound `f64`. -/
def f64Value (x : F64) : Value :=
  if x.isNaN then .null else .real (if x.isZero then 0 else x.bits)

/-- A bound `u64 as i64`. -/
def u64AsI64 (n : UInt64) : Value := .integer n.toInt64.toInt

/-- A bound `u32 as i32`. -/
def u32AsI32 (n : UInt32) : Value := .integer n.toInt32.toInt

/-- `row.get::<f64>(c)`. -/
def getF64 (row : DbRecord) (c : Column) : Except Failure F64 :=
  match row c with
  | some (.real bits) => .ok ⟨bits⟩
  | _ => .error .panic

/-- `row.get::<i32>(c)`, which refuses an integer of more bits. -/
def getI32 (row : DbRecord) (c : Column) : Except Failure Int :=
  match row c with
  | some (.integer n) => if -2147483648 ≤ n ∧ n ≤ 2147483647 then .ok n else .error .panic
  | _ => .error .panic

variable (D : Domain) (N : NodeText)

/-- `row_to_node`. -/
def rowToNode (row : DbRecord) : Except Failure Node := do
  let id ← getParsed D.uuid "node id" row .id
  let role ← getParsed N.role "node role" row .role
  let status ← getParsed (N.status D) "node status" row .status
  let cpuCores ← getF64 row .cpuCores
  let memoryBytes ← getI64 row .memoryBytes
  let cpuAvailable ← getF64 row .cpuAvailable
  let memoryAvailable ← getI64 row .memoryAvailable
  let runningPods ← getI32 row .runningPods
  let lastHeartbeat ← getParsed D.time "last_heartbeat" row .lastHeartbeat
  let joinedAt ← getParsed D.time "joined_at" row .joinedAt
  return {
    id
    name := ← getString row .name
    address := ← getString row .address
    role
    status
    resources := {
      cpuCores
      memoryBytes := UInt64.ofInt memoryBytes
      cpuAvailable
      memoryAvailable := UInt64.ofInt memoryAvailable
      runningPods := UInt32.ofInt runningPods }
    lastHeartbeat
    joinedAt }

/-! ## Statements -/

section Nodes

def nodeColumns : List Column :=
  [.id, .name, .address, .role, .status, .cpuCores, .memoryBytes, .cpuAvailable,
    .memoryAvailable, .runningPods, .lastHeartbeat, .joinedAt]

/-- The columns that `insert_node` and `update_node` both write. -/
def nodeSets (node : Node) : List (Column × Value) :=
  [(.name, .text node.name), (.address, .text node.address),
    (.role, .text (N.role.print node.role)), (.status, .text ((N.status D).print node.status)),
    (.cpuCores, f64Value node.resources.cpuCores),
    (.memoryBytes, u64AsI64 node.resources.memoryBytes),
    (.cpuAvailable, f64Value node.resources.cpuAvailable),
    (.memoryAvailable, u64AsI64 node.resources.memoryAvailable),
    (.runningPods, u32AsI32 node.resources.runningPods),
    (.lastHeartbeat, .text (D.time.print node.lastHeartbeat))]

/-- `insert_node`. -/
def insertNode (db : Db) (node : Node) : Db × Except Failure Unit :=
  match db.insert true .nodes ((.id, .text (D.uuid.print node.id)) :: nodeSets D N node ++
    [(.joinedAt, .text (D.time.print node.joinedAt))]) with
  | .ok db' => (db', .ok ())
  | .error .unique => (db, .error (.error (.invalidSpec s!"node '{node.name}' already exists")))
  | .error e => (db, .error (runtimeError D e))

/-- `get_node`. -/
def getNode (db : Db) (id : Uuid) : Except Failure (Option Node) :=
  fetchOptional D (rowToNode D N)
    (db.select nodeColumns .nodes (whereText .id (D.uuid.print id)) none)

/-- `get_node_by_name`. -/
def getNodeByName (db : Db) (name : String) : Except Failure (Option Node) :=
  fetchOptional D (rowToNode D N) (db.select nodeColumns .nodes (whereText .name name) none)

/-- `list_nodes`. -/
def listNodes (scan : Scan Column) (db : Db) : Except Failure (List Node) :=
  fetchAll D (rowToNode D N) (db.select nodeColumns .nodes (fun _ => true) (some (.name, scan)))

/-- `update_node`. -/
def updateNode (db : Db) (node : Node) : Db × Except Failure Unit :=
  affected D db (.nodeNotFound (D.uuid.print node.id))
    (db.update true .nodes (whereText .id (D.uuid.print node.id)) (nodeSets D N node))

/-- `delete_node`. -/
def deleteNode (db : Db) (id : Uuid) : Db × Except Failure Unit :=
  executed D db (db.delete true .nodes (whereText .id (D.uuid.print id)))

end Nodes

/-- `get_cluster_config`. -/
def getClusterConfig (db : Db) (key : String) : Except Failure (Option String) :=
  fetchOptional D (getString · .value) (db.select [.value] .clusterConfig (whereText .key key) none)

/-- `set_cluster_config`. -/
def setClusterConfig (db : Db) (key value : String) : Db × Except Failure Unit :=
  executed D db
    (db.upsert true .clusterConfig [(.key, .text key), (.value, .text value)] [.key] [.value])

/-! ## Runs of the whole store -/

/-- A call of the store that concerns the cluster. -/
inductive ClusterOp where
  | insertNode (node : Node)
  | getNode (id : Uuid)
  | getNodeByName (name : String)
  | listNodes
  | updateNode (node : Node)
  | deleteNode (id : Uuid)
  | getClusterConfig (key : String)
  | setClusterConfig (key value : String)
  deriving DecidableEq, Repr

/-- What such a call answers when all is well. -/
inductive ClusterReply where
  | unit
  | node (found : Option Node)
  | nodes (found : List Node)
  | config (found : Option String)
  deriving DecidableEq, Repr

/-- How such a call ends. -/
abbrev ClusterOutcome := Except Failure ClusterReply

/-- A call that answers nothing. -/
def clusterWrote (result : Db × Except Failure Unit) : Db × ClusterOutcome :=
  (result.1, result.2.map fun _ => .unit)

/-- Run a call. -/
def ClusterOp.run (scan : Scan Column) (db : Db) : ClusterOp → Db × ClusterOutcome
  | .insertNode node => clusterWrote (State.insertNode D N db node)
  | .getNode id => (db, (State.getNode D N db id).map .node)
  | .getNodeByName name => (db, (State.getNodeByName D N db name).map .node)
  | .listNodes => (db, (State.listNodes D N scan db).map .nodes)
  | .updateNode node => clusterWrote (State.updateNode D N db node)
  | .deleteNode id => clusterWrote (State.deleteNode D db id)
  | .getClusterConfig key => (db, (State.getClusterConfig D db key).map .config)
  | .setClusterConfig key value => clusterWrote (State.setClusterConfig D db key value)

/-- One call: it runs, with any scan of the rows, or its statement fails for a reason
of its own. -/
inductive ClusterStep (db : Db) (op : ClusterOp) : ClusterOutcome → Db → Prop
  | run (scan : Scan Column) : ClusterStep db op (op.run D N scan db).2 (op.run D N scan db).1
  | fault (text : String) : ClusterStep db op (.error (.runtime text)) db

/-- The states of a store that was new once, whatever was called since. -/
inductive StoreState : Db → Prop
  | new : StoreState (ofRows .cascade fun _ => [])
  | step {db db' : Db} {op : StoreOp D} {outcome : Outcome D} :
      StoreState db → Step db op outcome db' → StoreState db'
  | clusterStep {db db' : Db} {op : ClusterOp} {outcome : ClusterOutcome} :
      StoreState db → ClusterStep D N db op outcome db' → StoreState db'

end State

end Nexad
