import Nexad.Base.Interleave
import Nexad.Core.Models

/-!
# The store as the cluster uses it

The `nodes` and `cluster_config` tables of `SqliteStore`, a row of `nodes` as
the node it decodes to, and the calls that the handlers and tasks of the
cluster make on them. One call is one statement, so it is atomic; a handler
that reads a node and writes it back makes two calls, and others may come in
between. A call may also fail for a reason of its own, with nothing changed.

`update_node` writes every column but `joined_at` from the node it is given.
Its uniqueness is that of the columns `id` and `name`; a NaN is stored as
null, which no column of numbers admits.
-/

namespace Nexad.Cluster

open Interleave

/-- The rows of `nodes`: no two share an id or a name. -/
structure NodeTable where
  rows : List Node
  ids : (rows.map Node.id).Nodup
  names : (rows.map Node.name).Nodup

/-- No number of the node is a NaN. -/
def storable (n : Node) : Bool := !n.resources.cpuCores.isNaN && !n.resources.cpuAvailable.isNaN

namespace NodeTable

/-- The table without rows. -/
def empty : NodeTable := ⟨[], List.nodup_nil, List.nodup_nil⟩

/-- The row with an id. -/
def get (t : NodeTable) (id : Uuid) : Option Node := t.rows.find? fun r => r.id = id

/-- The row with a name. -/
def getByName (t : NodeTable) (name : String) : Option Node :=
  t.rows.find? fun r => r.name = name

/-- The rows in the order of their names. -/
def list (t : NodeTable) : List Node := t.rows.mergeSort fun r r' => r.name ≤ r'.name

/-- The row that `update_node` makes of the row of its node. -/
def written (n r : Node) : Node := if r.id = n.id then { n with joinedAt := r.joinedAt } else r

theorem written_id (n r : Node) : (written n r).id = r.id := by
  unfold written
  split
  · next h => exact h.symm
  · rfl

theorem map_id_written (t : NodeTable) (n : Node) :
    (t.rows.map (written n)).map Node.id = t.rows.map Node.id := by
  rw [List.map_map]
  exact List.map_congr_left fun r _ => written_id n r

theorem names_written (t : NodeTable) (n : Node) (h : ∀ r ∈ t.rows, r.id ≠ n.id → r.name ≠ n.name) :
    ((t.rows.map (written n)).map Node.name).Nodup := by
  have hids := List.pairwise_map.mp t.ids
  have hnames := List.pairwise_map.mp t.names
  rw [List.map_map]
  refine List.pairwise_map.mpr ((hids.and hnames).imp_of_mem fun {r r'} hr hr' hne => ?_)
  obtain ⟨hid, hname⟩ := hne
  unfold Function.comp written
  by_cases hr₁ : r.id = n.id
  · have hr₂ : ¬ r'.id = n.id := fun h => hid (hr₁.trans h.symm)
    rw [if_pos hr₁, if_neg hr₂]
    exact (h r' hr' hr₂).symm
  · rw [if_neg hr₁]
    split
    · exact h r hr hr₁
    · exact hname

/-- `INSERT INTO nodes`. -/
def insert (t : NodeTable) (n : Node) : Except Relational.SqlError NodeTable :=
  if !storable n then .error .notNull
  else if h : n.id ∉ t.rows.map Node.id ∧ n.name ∉ t.rows.map Node.name then
    .ok {
      rows := t.rows ++ [n]
      ids := by
        rw [List.map_append]
        exact List.nodup_append_comm.mp (List.nodup_cons.mpr ⟨h.1, t.ids⟩)
      names := by
        rw [List.map_append]
        exact List.nodup_append_comm.mp (List.nodup_cons.mpr ⟨h.2, t.names⟩) }
  else .error .unique

/-- `UPDATE nodes … WHERE id = n.id`, none if there is no such row. -/
def update (t : NodeTable) (n : Node) : Except Relational.SqlError (Option NodeTable) :=
  if n.id ∉ t.rows.map Node.id then .ok none
  else if !storable n then .error .notNull
  else if h : ∀ r ∈ t.rows, r.id ≠ n.id → r.name ≠ n.name then
    .ok (some {
      rows := t.rows.map (written n)
      ids := by
        rw [map_id_written]
        exact t.ids
      names := names_written t n h })
  else .error .unique

/-- `DELETE FROM nodes WHERE id = id`. -/
def delete (t : NodeTable) (id : Uuid) : NodeTable where
  rows := t.rows.filter fun r => r.id ≠ id
  ids := t.ids.sublist (List.filter_sublist.map _)
  names := t.names.sublist (List.filter_sublist.map _)

end NodeTable

variable (D : Domain)

/-- What the handlers and tasks of the cluster share. -/
structure Shared where
  nodes : NodeTable
  config : String → Option String
  /-- In the order of `list_pods`. -/
  pods : List (Pod D)
  clock : DateTime
  /-- The node ids drawn so far. -/
  drawn : List Uuid

/-- A call of the store. -/
inductive StoreCall where
  | getNode (id : Uuid)
  | getNodeByName (name : String)
  | listNodes
  | insertNode (n : Node)
  | updateNode (n : Node)
  | deleteNode (id : Uuid)
  | getClusterConfig (key : String)
  | setClusterConfig (key value : String)
  | listPods (project : Option String)

/-- What a call answers with when all is well. -/
abbrev StoreCall.Res : StoreCall → Type
  | getNode _ | getNodeByName _ => Option Node
  | listNodes => List Node
  | insertNode _ | updateNode _ | deleteNode _ | setClusterConfig .. => Unit
  | getClusterConfig _ => Option String
  | listPods _ => List (Pod D)

variable {D}

/-- Run a call. -/
def StoreCall.run (s : Shared D) : (c : StoreCall) → Except NexaError (c.Res D) × Shared D
  | getNode id => (.ok (s.nodes.get id), s)
  | getNodeByName name => (.ok (s.nodes.getByName name), s)
  | listNodes => (.ok s.nodes.list, s)
  | insertNode n =>
    match s.nodes.insert n with
    | .ok t => (.ok (), { s with nodes := t })
    | .error .unique => (.error (.invalidSpec s!"node '{n.name}' already exists"), s)
    | .error e => (.error (.runtime (D.sqlError e)), s)
  | updateNode n =>
    match s.nodes.update n with
    | .ok (some t) => (.ok (), { s with nodes := t })
    | .ok none => (.error (.nodeNotFound (D.uuid.print n.id)), s)
    | .error e => (.error (.runtime (D.sqlError e)), s)
  | deleteNode id => (.ok (), { s with nodes := s.nodes.delete id })
  | getClusterConfig key => (.ok (s.config key), s)
  | setClusterConfig key value => (.ok (), { s with config := Function.update s.config key value })
  | listPods project =>
    (.ok (project.elim s.pods fun name => s.pods.filter fun p => p.project = name), s)

variable (D)

/-- What a handler or task asks of its environment: the store, the clock,
random bytes, a new node (`Node::new`), the rescheduling callback, and whether
the peer of a stream takes an answer. -/
inductive Op where
  | store (c : StoreCall)
  | now
  | fillBytes
  | newNode (name address : String) (role : NodeRole) (resources : NodeResources)
  | reschedule (id : Uuid) (pods : List (Pod D))
  | sendPong

/-- The answers. -/
abbrev Op.Ans : Op D → Type
  | store c => Except NexaError (c.Res D)
  | now => DateTime
  | fillBytes => { bytes : List UInt8 // bytes.length = 32 }
  | newNode .. => Node
  | reschedule .. => Unit
  | sendPong => Bool

/-- The operations of the cluster. -/
def clusterSig : Sig := ⟨Op D, Op.Ans D⟩

variable {D}

/-- How the environment answers. A new node is ready, and its id is fresh. -/
inductive Answered (s : Shared D) : (op : Op D) → op.Ans D → Shared D → Prop
  | store {c : StoreCall} {answer : Except NexaError (c.Res D)} {s' : Shared D}
      (run : c.run s = (answer, s')) : Answered s (.store c) answer s'
  | fault (c : StoreCall) (e : NexaError) : Answered s (.store c) (.error e) s
  | now : Answered s .now s.clock s
  | fillBytes (bytes : { bytes : List UInt8 // bytes.length = 32 }) : Answered s .fillBytes bytes s
  | newNode {name address : String} {role : NodeRole} {resources : NodeResources} {id : Uuid}
      (fresh : id ∉ s.drawn) (lastHeartbeat joinedAt : DateTime) :
      Answered s (.newNode name address role resources)
        ⟨id, name, address, role, .ready, resources, lastHeartbeat, joinedAt⟩
        { s with drawn := id :: s.drawn }
  | reschedule (id : Uuid) (pods : List (Pod D)) : Answered s (.reschedule id pods) () s
  | sendPong (closed : Bool) : Answered s .sendPong closed s

end Nexad.Cluster
