import Nexad.Laws.Base.Upsert
import Nexad.Laws.State.Sqlite
import Nexad.State.Nodes

/-!
# What the rows of the store hold

Every row of deployments, pods and nodes is one that the store wrote for some
value (`StoreState.written`): an insertion writes all of its columns, and an
update turns it into the row of the new value, except in the columns that the
statement does not name. The values on which the store's reading and writing
agree are read back from such rows, so each query of the store is a statement
about which rows there are (`getDeployment_iff`, `podsByDeployment_eq`,
`getNode_iff`).
-/

namespace Nexad

/-- A text form that reads back what it writes. -/
def TextForm.Inverse {α : Type} (form : TextForm α) : Prop := ∀ a, form.parse (form.print a) = .ok a

theorem TextForm.Inverse.injective {α : Type} {form : TextForm α} (h : form.Inverse) {a b : α}
    (heq : form.print a = form.print b) : a = b := by
  have hread := h a
  rw [heq, h b] at hread
  exact (Except.ok.inj hread).symm

/-- The number as a column of reals keeps it. -/
def F64.stored (x : F64) : F64 := if x.isZero then ⟨0⟩ else x

/-- The node as its row keeps it. -/
def Node.stored (n : Node) : Node :=
  { n with resources := { n.resources with
      cpuCores := n.resources.cpuCores.stored
      cpuAvailable := n.resources.cpuAvailable.stored } }

namespace State

open Relational Results

/-- The domain crate reads back what it writes. -/
structure ReadsBack (D : Domain) (N : NodeText) : Prop where
  uuid : D.uuid.Inverse
  time : D.time.Inverse
  deploymentStatus : D.deploymentStatus.Inverse
  podStatus : D.podStatus.Inverse
  role : N.role.Inverse
  nodeStatus : (N.status D).Inverse
  spec : ∀ spec json, D.specToJson spec = .ok json → D.specFromJson json = .ok spec

variable {D : Domain} {N : NodeText} {db : Db}

/-! ## The other operations are tidy too -/

theorem insertNode_tidy (db : Db) (node : Node) : Tidy db (insertNode D N db node) := by
  unfold insertNode
  split
  · next db' hinsert =>
    exact ⟨.inr (.insert (t := .nodes) (by simp [primaryKey]) hinsert), fun e he => by cases he⟩
  · exact .same db _
  · exact .same db _

theorem Write.upsert {db' : Db} {t : TableName} {values : List (Column × Value)}
    {target sets : List Column} (keyed : ∀ c ∈ primaryKey t, Row.ofList values c ≠ .null)
    (apart : ∀ c ∈ primaryKey t, c ∉ sets)
    (done : db.upsert true t values target sets = .ok db') : Write db db' := by
  rcases Database.upsert_cases done with ⟨n, hupdate⟩ | hinsert
  · refine .update (fun c hc => ?_) hupdate
    simpa [Row.excluded] using apart c hc
  · exact .insert keyed hinsert

theorem ClusterOp.run_tidy (scan : Scan Column) (db : Db) (op : ClusterOp) :
    Tidy db (op.run D N scan db) := by
  cases op with
  | insertNode node => exact (insertNode_tidy db node).map _
  | updateNode node => exact Tidy.map (affected_tidy (by simp [primaryKey])) _
  | deleteNode id => exact Tidy.map (executed_tidy fun _ hdelete => .delete hdelete) _
  | setClusterConfig key value =>
    exact Tidy.map (executed_tidy fun _ hupsert =>
      .upsert (by simp [primaryKey]) (by simp [primaryKey]) hupsert) _
  | getNode id => exact .same db _
  | getNodeByName name => exact .same db _
  | listNodes => exact .same db _
  | getClusterConfig key => exact .same db _

theorem ClusterStep.tidy {db' : Db} {op : ClusterOp} {outcome : ClusterOutcome}
    (h : ClusterStep D N db op outcome db') : Tidy db (db', outcome) := by
  cases h with
  | run scan => exact op.run_tidy scan db
  | fault text => exact .same db _

theorem StoreState.inv (h : StoreState D N db) : StoreInv db := by
  induction h with
  | new => exact (Reachable.new (D := D)).inv
  | step _ hstep ih => exact hstep.tidy.inv ih
  | clusterStep _ hstep ih => exact hstep.tidy.inv ih

theorem StoreState.ran (h : StoreState D N db) (op : StoreOp D) {db' : Db}
    (hrun : (op.run .inserted db).1 = db') : StoreState D N db' := hrun ▸ h.step (.run _)

theorem StoreState.clusterRan (h : StoreState D N db) (op : ClusterOp) {db' : Db}
    (hrun : (op.run D N .inserted db).1 = db') : StoreState D N db' := hrun ▸ h.clusterStep (.run _)

/-! ## Rows that were written -/

section Written

/-- What `insert_deployment` writes, with the columns of the project and the name. -/
def rowOfDeployment (project name specJson : String) (d : Deployment D) : DbRow :=
  Row.ofList [(.id, .text (D.uuid.print d.id)), (.project, .text project), (.name, .text name),
    (.specJson, .text specJson), (.status, .text (D.deploymentStatus.print d.status)),
    (.createdAt, .text (D.time.print d.createdAt)), (.updatedAt, .text (D.time.print d.updatedAt))]

/-- What `insert_pod` writes. -/
def rowOfPod (p : Pod D) : DbRow :=
  Row.ofList [(.id, .text (D.uuid.print p.id)), (.deploymentId, .text (D.uuid.print p.deploymentId)),
    (.project, .text p.project), (.deploymentName, .text p.deploymentName),
    (.replicaIndex, u32AsI64 p.replicaIndex), (.nodeId, optText (p.nodeId.map D.uuid.print)),
    (.containerId, optText p.containerId), (.containerIp, optText p.containerIp),
    (.status, .text (D.podStatus.print p.status)), (.image, .text p.image),
    (.restartCount, u32AsI64 p.restartCount), (.createdAt, .text (D.time.print p.createdAt))]

variable (D N)

/-- The columns that `insert_node` writes. -/
def nodeValues (n : Node) : List (Column × Value) :=
  (.id, .text (D.uuid.print n.id)) :: nodeSets D N n ++
    [(.joinedAt, .text (D.time.print n.joinedAt))]

/-- What `insert_node` writes. -/
def rowOfNode (n : Node) : DbRow := Row.ofList (nodeValues D N n)

/-- A row as the store writes it. It writes no other tables than these. -/
def Written : TableName → DbRow → Prop
  | .deployments, r => ∃ project name specJson, ∃ d : Deployment D,
      D.specToJson d.spec = .ok specJson ∧ r = rowOfDeployment project name specJson d
  | .pods, r => ∃ p : Pod D, r = rowOfPod p
  | .nodes, r => ∃ n, r = rowOfNode D N n
  | .projects, _ | .clusterConfig, _ => True
  | _, _ => False

end Written

/-- What `update_deployment` makes of a row. -/
theorem rowOfDeployment_assign (project name specJson specJson' : String) (d old : Deployment D) :
    (rowOfDeployment project name specJson old).assign
      [(.specJson, .text specJson'), (.status, .text (D.deploymentStatus.print d.status)),
        (.updatedAt, .text (D.time.print d.updatedAt))] =
    rowOfDeployment project name specJson' { d with id := old.id, createdAt := old.createdAt } := by
  funext c
  cases c <;> rfl

/-- What `update_pod` makes of a row. -/
theorem rowOfPod_assign (p old : Pod D) :
    (rowOfPod old).assign
      [(.nodeId, optText (p.nodeId.map D.uuid.print)), (.containerId, optText p.containerId),
        (.containerIp, optText p.containerIp), (.status, .text (D.podStatus.print p.status)),
        (.restartCount, u32AsI64 p.restartCount)] =
    rowOfPod { old with
      nodeId := p.nodeId, containerId := p.containerId, containerIp := p.containerIp
      status := p.status, restartCount := p.restartCount } := by
  funext c
  cases c <;> rfl

/-- What `update_node` makes of a row. -/
theorem rowOfNode_assign (n old : Node) :
    (rowOfNode D N old).assign (nodeSets D N n) =
    rowOfNode D N { n with id := old.id, joinedAt := old.joinedAt } := by
  funext c
  cases c <;> rfl

section Every

variable {P : TableName → DbRow → Prop}

theorem executed_every {result : Except SqlError Db} (hdb : db.Every P)
    (h : ∀ db', result = .ok db' → db'.Every P) : (executed D db result).1.Every P := by
  cases result with
  | error e => exact hdb
  | ok db' => exact h db' rfl

theorem affected_every {missing : NexaError} {result : Except SqlError (Db × Nat)}
    (hdb : db.Every P) (h : ∀ db' n, result = .ok (db', n) → db'.Every P) :
    (affected D db missing result).1.Every P := by
  cases result with
  | error e => exact hdb
  | ok done => exact h done.1 done.2 rfl

end Every

/-- No operation on projects, deployments and pods leaves another row. -/
theorem StoreOp.run_written (hdb : db.Every (Written D N)) (scan : Scan Column) (op : StoreOp D) :
    (op.run scan db).1.Every (Written D N) := by
  cases op with
  | insertProject project =>
    show (State.insertProject db project).1.Every _
    unfold State.insertProject
    split
    · next hinsert => exact hdb.insert (t := .projects) trivial hinsert
    · exact hdb
    · exact hdb
  | updateProjectStatus name status =>
    exact affected_every hdb fun _ _ hupdate =>
      hdb.update (t := .projects) (fun _ _ _ _ => trivial) hupdate
  | insertDeployment d =>
    show (State.insertDeployment db d).1.Every _
    unfold State.insertDeployment
    split
    · exact hdb
    · next json hjson =>
      exact executed_every hdb fun _ hinsert =>
        hdb.insert (t := .deployments) ⟨_, _, _, d, hjson, rfl⟩ hinsert
  | updateDeployment d =>
    show (State.updateDeployment db d).1.Every _
    unfold State.updateDeployment
    split
    · exact hdb
    · next json hjson =>
      refine affected_every hdb fun _ _ hupdate => hdb.update (fun r _ _ hr => ?_) hupdate
      obtain ⟨project, name, _, old, -, rfl⟩ := hr
      exact ⟨project, name, json, { d with id := old.id, createdAt := old.createdAt }, hjson,
        rowOfDeployment_assign ..⟩
  | insertPod p =>
    exact executed_every hdb fun _ hinsert => hdb.insert (t := .pods) ⟨p, rfl⟩ hinsert
  | updatePod p =>
    refine affected_every hdb fun _ _ hupdate => hdb.update (fun r _ _ hr => ?_) hupdate
    obtain ⟨old, rfl⟩ := hr
    exact ⟨_, rowOfPod_assign p old⟩
  | deleteProject | deleteDeployment | deletePod =>
    exact executed_every hdb fun _ hdelete => hdb.delete hdelete
  | getProject | listProjects | getDeployment | listDeployments | listPods | podsByDeployment =>
    exact hdb

/-- Nor does one on nodes and the configuration. -/
theorem ClusterOp.run_written (hdb : db.Every (Written D N)) (scan : Scan Column) (op : ClusterOp) :
    (op.run D N scan db).1.Every (Written D N) := by
  cases op with
  | insertNode n =>
    show (State.insertNode D N db n).1.Every _
    unfold State.insertNode
    split
    · next hinsert => exact hdb.insert (t := .nodes) ⟨n, rfl⟩ hinsert
    · exact hdb
    · exact hdb
  | updateNode n =>
    refine affected_every hdb fun _ _ hupdate => hdb.update (fun r _ _ hr => ?_) hupdate
    obtain ⟨old, rfl⟩ := hr
    exact ⟨_, rowOfNode_assign n old⟩
  | deleteNode id => exact executed_every hdb fun _ hdelete => hdb.delete hdelete
  | setClusterConfig key value =>
    exact executed_every hdb fun _ hupsert => hdb.upsert (t := TableName.clusterConfig) trivial
      (fun _ _ _ => trivial) hupsert
  | getNode | getNodeByName | listNodes | getClusterConfig => exact hdb

/-- Every row was written for some value, whatever was called. -/
theorem StoreState.written (h : StoreState D N db) : db.Every (Written D N) := by
  induction h with
  | new =>
    intro t r hr
    rw [rows_ofRows, ite_self] at hr
    cases hr
  | @step _ _ op _ _ hstep ih =>
    cases hstep with
    | run scan => exact op.run_written ih scan
    | fault text => exact ih
  | @clusterStep _ _ op _ _ hstep ih =>
    cases hstep with
    | run scan => exact op.run_written ih scan
    | fault text => exact ih

/-! ## Casts there and back -/

theorem ofInt_toInt64 (n : UInt64) : UInt64.ofInt n.toInt64.toInt = n := by
  have hlt := n.toNat_lt
  have hmod : n.toInt64.toInt % 2 ^ 64 = n.toNat := by
    rw [← Int64.toInt_toBitVec, UInt64.toBitVec_toInt64, BitVec.toInt_eq_toNat_bmod,
      show (2 : Int) ^ 64 = ((2 ^ 64 : Nat) : Int) by rfl, Int.bmod_emod, UInt64.toNat_toBitVec]
    omega
  rw [UInt64.ofInt, hmod, Int.toNat_natCast, UInt64.ofNat_toNat]

theorem ofInt_toInt32 (n : UInt32) : UInt32.ofInt n.toInt32.toInt = n := by
  have hlt := n.toNat_lt
  have hmod : n.toInt32.toInt % 2 ^ 32 = n.toNat := by
    rw [← Int32.toInt_toBitVec, UInt32.toBitVec_toInt32, BitVec.toInt_eq_toNat_bmod,
      show (2 : Int) ^ 32 = ((2 ^ 32 : Nat) : Int) by rfl, Int.bmod_emod, UInt32.toNat_toBitVec]
    omega
  rw [UInt32.ofInt, hmod, Int.toNat_natCast, UInt32.ofNat_toNat]

theorem ofInt_toNat (n : UInt32) : UInt32.ofInt n.toNat = n := by
  have hlt := n.toNat_lt
  have hmod : (n.toNat : Int) % 2 ^ 32 = n.toNat := by omega
  rw [UInt32.ofInt, hmod, Int.toNat_natCast, UInt32.ofNat_toNat]

/-! ## Reading what was written -/

/-- The values of some columns, as a query returns them. -/
def recordOf (columns : List Column) (r : DbRow) : DbRecord :=
  fun c => if c ∈ columns then some (r c) else none

section Columns

variable {row : DbRecord} {c : Column}

theorem getString_text {s : String} (h : row c = some (.text s)) : getString row c = .ok s := by
  rw [getString, h]

theorem getOptString_optText {s : Option String} (h : row c = some (optText s)) :
    getOptString row c = .ok s := by
  rw [getOptString, h]
  cases s <;> rfl

theorem getI64_integer {n : Int} (h : row c = some (.integer n)) : getI64 row c = .ok n := by
  rw [getI64, h]

theorem getF64_f64Value {x : F64} (hnan : x.isNaN = false) (h : row c = some (f64Value x)) :
    getF64 row c = .ok x.stored := by
  have hvalue : f64Value x = .real x.stored.bits := by
    rw [f64Value, if_neg (by simp [hnan]), F64.stored]
    split <;> rfl
  rw [getF64, h, hvalue]

theorem getI32_u32AsI32 {n : UInt32} (h : row c = some (u32AsI32 n)) :
    getI32 row c = .ok n.toInt32.toInt := by
  have hbounds : -2147483648 ≤ n.toInt32.toInt ∧ n.toInt32.toInt ≤ 2147483647 :=
    ⟨n.toInt32.le_toInt, Int.le_of_lt_add_one n.toInt32.toInt_lt⟩
  rw [getI32, h]
  exact if_pos hbounds

theorem parse_print {α : Type} {form : TextForm α} (hform : form.Inverse) (what : String) (a : α) :
    parse form what (form.print a) = .ok a := by
  rw [parse, hform a]

theorem getParsed_text {α : Type} {form : TextForm α} {what : String} {a : α}
    (hform : form.Inverse) (h : row c = some (.text (form.print a))) :
    getParsed form what row c = .ok a := by
  rw [getParsed, getString_text h]
  exact parse_print hform what a

end Columns

variable (hread : ReadsBack D N)

include hread

theorem rowToDeployment_rowOf {project name specJson : String} {d : Deployment D}
    (hjson : D.specToJson d.spec = .ok specJson) :
    rowToDeployment D (recordOf deploymentColumns (rowOfDeployment project name specJson d)) =
      .ok d := by
  rw [rowToDeployment, getParsed_text (a := d.id) hread.uuid rfl, getString_text (s := specJson) rfl,
    getParsed_text (a := d.status) hread.deploymentStatus rfl,
    getParsed_text (a := d.createdAt) hread.time rfl,
    getParsed_text (a := d.updatedAt) hread.time rfl]
  have hspec : (D.specFromJson specJson).mapError (fun e => Failure.error (.serialization e)) =
      .ok d.spec := by
    rw [hread.spec _ _ hjson]
    rfl
  simp only [bind, Except.bind, hspec]
  rfl

theorem rowToPod_rowOf (p : Pod D) : rowToPod D (recordOf podColumns (rowOfPod p)) = .ok p := by
  rw [rowToPod, getParsed_text (a := p.id) hread.uuid rfl,
    getParsed_text (a := p.deploymentId) hread.uuid rfl,
    getParsed_text (a := p.status) hread.podStatus rfl,
    getParsed_text (a := p.createdAt) hread.time rfl,
    getI64_integer (n := p.replicaIndex.toNat) rfl, getI64_integer (n := p.restartCount.toNat) rfl,
    getOptString_optText (s := p.nodeId.map D.uuid.print) rfl, getString_text (s := p.project) rfl,
    getString_text (s := p.deploymentName) rfl, getOptString_optText (s := p.containerId) rfl,
    getOptString_optText (s := p.containerIp) rfl, getString_text (s := p.image) rfl]
  have hnode : (p.nodeId.map D.uuid.print).mapM (parse D.uuid "node_id") = .ok p.nodeId := by
    cases p.nodeId with
    | none => rfl
    | some id =>
      show (parse D.uuid "node_id" (D.uuid.print id)).map some = _
      rw [parse_print hread.uuid]
      rfl
  simp only [bind, Except.bind, hnode, ofInt_toNat]
  rfl

theorem rowToNode_rowOf {n : Node} (hcores : n.resources.cpuCores.isNaN = false)
    (havailable : n.resources.cpuAvailable.isNaN = false) :
    rowToNode D N (recordOf nodeColumns (rowOfNode D N n)) = .ok n.stored := by
  rw [rowToNode, getParsed_text (a := n.id) hread.uuid rfl,
    getParsed_text (a := n.role) hread.role rfl,
    getParsed_text (a := n.status) hread.nodeStatus rfl,
    getF64_f64Value (x := n.resources.cpuCores) hcores rfl,
    getI64_integer (n := n.resources.memoryBytes.toInt64.toInt) rfl,
    getF64_f64Value (x := n.resources.cpuAvailable) havailable rfl,
    getI64_integer (n := n.resources.memoryAvailable.toInt64.toInt) rfl,
    getI32_u32AsI32 (n := n.resources.runningPods) rfl,
    getParsed_text (a := n.lastHeartbeat) hread.time rfl,
    getParsed_text (a := n.joinedAt) hread.time rfl, getString_text (s := n.name) rfl,
    getString_text (s := n.address) rfl]
  simp only [bind, Except.bind, ofInt_toInt64, ofInt_toInt32]
  rfl

omit hread

/-! ## Queries -/

section Queries

variable {t : TableName} {schema : Schema TableName Column} {columns : List Column}

theorem StoreInv.select_eq (h : StoreInv db) (hs : schemaAt .cascade t = some schema)
    (hcovers : schema.Covers columns) (p : DbRow → Bool) (orderBy : Option (Column × Scan Column)) :
    ∃ rows, rows.Perm ((db.rows t).filter p) ∧ (orderBy = none → rows = (db.rows t).filter p) ∧
      db.select columns t p orderBy = .ok (rows.map (recordOf columns)) := by
  obtain ⟨tbl, ht, rfl⟩ := h.table hs
  rw [Database.rows_of_some ht]
  unfold Database.select
  simp only [ht, if_neg (not_not.mpr hcovers)]
  cases orderBy with
  | none => exact ⟨_, .refl _, fun _ => rfl, rfl⟩
  | some order =>
    exact ⟨_, order.2.sorted_perm order.1 _, fun hnone => (Option.some_ne_none order hnone).elim, rfl⟩

/-- A query for one row decodes the first. -/
theorem StoreInv.fetchOptional_eq {α : Type} (h : StoreInv db)
    (hs : schemaAt .cascade t = some schema) (hcovers : schema.Covers columns) (p : DbRow → Bool)
    (decode : DbRecord → Except Failure α) :
    fetchOptional D decode (db.select columns t p none) =
      (db.first t p).mapM fun r => decode (recordOf columns r) := by
  obtain ⟨rows, -, hrows, hselect⟩ := h.select_eq hs hcovers p none
  rw [hselect, hrows rfl, fetchOptional, Except.mapError]
  show ((((db.rows t).filter p).map (recordOf columns)).head?).mapM decode = _
  rw [List.head?_map, List.head?_filter, Database.first]
  cases (db.rows t).find? p <;> rfl

/-- A query that can only select one row decodes that row. -/
theorem StoreInv.fetchOptional_iff {α : Type} (h : StoreInv db)
    (hs : schemaAt .cascade t = some schema) (hcovers : schema.Covers columns) (p : DbRow → Bool)
    (decode : DbRecord → Except Failure α)
    (honly : ∀ r ∈ db.rows t, ∀ r' ∈ db.rows t, p r = true → p r' = true → r' = r) {a : α} :
    fetchOptional D decode (db.select columns t p none) = .ok (some a) ↔
      ∃ r ∈ db.rows t, p r = true ∧ decode (recordOf columns r) = .ok a := by
  rw [h.fetchOptional_eq hs hcovers]
  constructor
  · intro hfound
    cases hfirst : db.first t p with
    | none =>
      rw [hfirst] at hfound
      cases hfound
    | some r =>
      obtain ⟨hr, hp⟩ := Database.first_eq_some hfirst
      refine ⟨r, hr, hp, ?_⟩
      rw [hfirst, Option.mapM_some] at hfound
      cases hdecode : decode (recordOf columns r) with
      | error e =>
        rw [hdecode] at hfound
        cases hfound
      | ok a' =>
        rw [hdecode] at hfound
        cases hfound
        rfl
  · rintro ⟨r, hr, hp, hdecode⟩
    rw [Database.first_eq_some_of_only hr hp fun r' hr' => honly r hr r' hr' hp, Option.mapM_some,
      hdecode]
    rfl

/-- A query for all rows, each of which is that of a value and decodes to it. -/
theorem StoreInv.fetchAll_eq {α : Type} (h : StoreInv db) (hs : schemaAt .cascade t = some schema)
    (hcovers : schema.Covers columns) (p : DbRow → Bool) (orderBy : Option (Column × Scan Column))
    (decode : DbRecord → Except Failure α) {R : DbRow → α → Prop}
    (hwritten : ∀ r ∈ db.rows t, ∃ a, R r a)
    (hdecode : ∀ r ∈ db.rows t, ∀ a, R r a → decode (recordOf columns r) = .ok a) :
    ∃ found, fetchAll D decode (db.select columns t p orderBy) = .ok found ∧
      ∀ a, a ∈ found ↔ ∃ r ∈ db.rows t, p r = true ∧ R r a := by
  obtain ⟨rows, hperm, -, hselect⟩ := h.select_eq hs hcovers p orderBy
  have hmem : ∀ r, r ∈ rows ↔ r ∈ db.rows t ∧ p r = true := fun r => by
    rw [hperm.mem_iff, List.mem_filter]
  have hdecodes : ∀ r ∈ db.rows t, ∀ a, decode (recordOf columns r) = .ok a ↔ R r a := by
    intro r hr a
    refine ⟨fun ha => ?_, hdecode r hr a⟩
    obtain ⟨a', ha'⟩ := hwritten r hr
    rw [hdecode r hr a' ha'] at ha
    cases ha
    exact ha'
  obtain ⟨found, hfound, hiff⟩ := exists_mapM_eq_ok (l := rows)
    (f := fun r => decode (recordOf columns r)) fun r hr => by
      obtain ⟨a, ha⟩ := hwritten r ((hmem r).mp hr).1
      exact ⟨a, hdecode r ((hmem r).mp hr).1 a ha⟩
  refine ⟨found, ?_, fun a => ?_⟩
  · rw [hselect, fetchAll, Except.mapError]
    show (rows.map (recordOf columns)).mapM decode = _
    rw [List.mapM_map]
    exact hfound
  · rw [hiff]
    constructor
    · rintro ⟨r, hr, ha⟩
      obtain ⟨hr, hp⟩ := (hmem r).mp hr
      exact ⟨r, hr, hp, (hdecodes r hr a).mp ha⟩
    · rintro ⟨r, hr, hp, ha⟩
      exact ⟨r, (hmem r).mpr ⟨hr, hp⟩, (hdecodes r hr a).mpr ha⟩

end Queries

/-! ## One row for each key -/

section Keys

theorem eq_of_pairwise {α β : Type} {l : List α} {f : α → β} (h : l.Pairwise fun a b => f a ≠ f b)
    {a b : α} (ha : a ∈ l) (hb : b ∈ l) (heq : f a = f b) : a = b :=
  List.inj_on_of_nodup_map (List.pairwise_map.mpr h) ha hb heq

variable {r r' : DbRow}

theorem StoreInv.deployment_eq (h : StoreInv db) (hr : r ∈ db.rows .deployments)
    (hr' : r' ∈ db.rows .deployments) (hid : r .id = r' .id) : r = r' :=
  eq_of_pairwise h.relations.deployment_ids hr hr' hid

theorem StoreInv.deployment_eq_of_name (h : StoreInv db) (hr : r ∈ db.rows .deployments)
    (hr' : r' ∈ db.rows .deployments) (hproject : r .project = r' .project)
    (hname : r .name = r' .name) : r = r' := by
  refine eq_of_pairwise (f := fun r => (r .project, r .name)) ?_ hr hr' (Prod.ext hproject hname)
  refine h.relations.deployment_names.imp fun hapart heq => hapart ?_
  exact Prod.ext_iff.mp heq

theorem StoreInv.pod_eq (h : StoreInv db) (hr : r ∈ db.rows .pods) (hr' : r' ∈ db.rows .pods)
    (hid : r .id = r' .id) : r = r' :=
  eq_of_pairwise h.relations.pod_ids hr hr' hid

theorem StoreState.node_eq (h : StoreState D N db) (hr : r ∈ db.rows .nodes)
    (hr' : r' ∈ db.rows .nodes) (hid : r .id = r' .id) : r = r' := by
  have hset : ∀ r ∈ db.rows .nodes, ∀ c ∈ [Column.id], r c ≠ .null := by
    intro r hr c hc
    obtain ⟨n, rfl⟩ := h.written .nodes r hr
    rw [List.mem_singleton.mp hc]
    exact fun hnull => by cases hnull
  have hdistinct := h.inv.distinct (t := .nodes) rfl [.id] (by simp [nodesSchema]) hset
  refine eq_of_pairwise (f := fun r => r .id) (hdistinct.imp fun hapart heq => hapart ?_) hr hr' hid
  simpa using heq

/-- Numbers that are stored are numbers. -/
theorem StoreState.node_isNaN (h : StoreState D N db) {n : Node}
    (hn : rowOfNode D N n ∈ db.rows .nodes) :
    n.resources.cpuCores.isNaN = false ∧ n.resources.cpuAvailable.isNaN = false := by
  have hcolumn : ∀ {c : Column} {x : F64}, c ∈ nodesSchema.notNull →
      rowOfNode D N n c = f64Value x → x.isNaN = false := by
    intro c x hc hx
    have hfilled := h.inv.filled (t := .nodes) rfl hc hn
    rw [hx, f64Value] at hfilled
    by_contra hnan
    exact hfilled (if_pos (by simpa using hnan))
  exact ⟨hcolumn (c := .cpuCores) (by simp [nodesSchema]) rfl,
    hcolumn (c := .cpuAvailable) (by simp [nodesSchema]) rfl⟩

end Keys

/-! ## What the store answers -/

variable (hread : ReadsBack D N) (h : StoreState D N db)

include hread h

/-- A deployment is found under the project and the name of its row. -/
theorem getDeployment_iff {project name : String} {d : Deployment D} :
    getDeployment D db project name = .ok (some d) ↔ ∃ specJson,
      D.specToJson d.spec = .ok specJson ∧
      rowOfDeployment project name specJson d ∈ db.rows .deployments := by
  have hselected : ∀ r : DbRow, (whereText .project project r && whereText .name name r) = true ↔
      r .project = .text project ∧ r .name = .text name := by
    intro r
    rw [Bool.and_eq_true, whereText, whereText, decide_eq_true_iff, decide_eq_true_iff]
  rw [getDeployment, h.inv.fetchOptional_iff (t := .deployments) rfl
    (by simp [Schema.Covers, deploymentColumns, deploymentsSchema])]
  · constructor
    · rintro ⟨r, hr, hp, hdecode⟩
      obtain ⟨project', name', specJson, d', hjson, rfl⟩ := h.written .deployments r hr
      rw [rowToDeployment_rowOf hread hjson] at hdecode
      cases hdecode
      obtain ⟨hproject, hname⟩ := (hselected _).mp hp
      cases hproject
      cases hname
      exact ⟨specJson, hjson, hr⟩
    · rintro ⟨specJson, hjson, hr⟩
      exact ⟨_, hr, (hselected _).mpr ⟨rfl, rfl⟩, rowToDeployment_rowOf hread hjson⟩
  · intro r hr r' hr' hp hp'
    rw [hselected] at hp hp'
    exact h.inv.deployment_eq_of_name hr' hr (hp'.1.trans hp.1.symm) (hp'.2.trans hp.2.symm)

/-- A query for pods answers with those whose rows it selects. -/
theorem fetchAll_pods (p : DbRow → Bool) (orderBy : Option (Column × Scan Column)) : ∃ pods,
    fetchAll D (rowToPod D) (db.select podColumns .pods p orderBy) = .ok pods ∧
      ∀ pod : Pod D, pod ∈ pods ↔ rowOfPod pod ∈ db.rows .pods ∧ p (rowOfPod pod) = true := by
  have hdecode : ∀ r ∈ db.rows .pods, ∀ pod : Pod D, r = rowOfPod pod →
      rowToPod D (recordOf podColumns r) = .ok pod := by
    rintro _ - pod rfl
    exact rowToPod_rowOf hread pod
  obtain ⟨pods, hpods, hmem⟩ := h.inv.fetchAll_eq (D := D) (t := .pods) rfl
    (by simp [Schema.Covers, podColumns, podsSchema]) p orderBy _ (h.written .pods) hdecode
  refine ⟨pods, hpods, fun pod => (hmem pod).trans ?_⟩
  constructor
  · rintro ⟨_, hr, hp, rfl⟩
    exact ⟨hr, hp⟩
  · rintro ⟨hr, hp⟩
    exact ⟨_, hr, hp, rfl⟩

/-- The pods of a deployment are those whose rows are there. -/
theorem podsByDeployment_eq (scan : Scan Column) (id : Uuid) : ∃ pods,
    podsByDeployment D scan db id = .ok pods ∧
    ∀ p, p ∈ pods ↔ p.deploymentId = id ∧ rowOfPod p ∈ db.rows .pods := by
  obtain ⟨pods, hpods, hmem⟩ := fetchAll_pods hread h
    (whereText .deploymentId (D.uuid.print id)) (some (.replicaIndex, scan))
  refine ⟨pods, hpods, fun p => (hmem p).trans ?_⟩
  have hselected : whereText .deploymentId (D.uuid.print id) (rowOfPod p) = true ↔
      p.deploymentId = id := by
    refine decide_eq_true_iff.trans ⟨fun hid => ?_, fun hid => ?_⟩
    · exact hread.uuid.injective (Value.text.inj hid)
    · rw [← hid]
      rfl
  rw [hselected]
  exact and_comm

/-- A node is found by its id, as its row keeps it. -/
theorem getNode_iff {id : Uuid} {found : Node} : getNode D N db id = .ok (some found) ↔
    ∃ n, n.id = id ∧ n.stored = found ∧ rowOfNode D N n ∈ db.rows .nodes := by
  have hselected : ∀ r : DbRow, whereText .id (D.uuid.print id) r = true ↔
      r .id = .text (D.uuid.print id) := fun r => decide_eq_true_iff
  rw [getNode, h.inv.fetchOptional_iff (t := .nodes) rfl
    (by simp [Schema.Covers, nodeColumns, nodesSchema])]
  · constructor
    · rintro ⟨r, hr, hp, hdecode⟩
      obtain ⟨n, rfl⟩ := h.written .nodes r hr
      obtain ⟨hcores, havailable⟩ := h.node_isNaN hr
      rw [rowToNode_rowOf hread hcores havailable] at hdecode
      cases hdecode
      have hid := hread.uuid.injective (Value.text.inj ((hselected _).mp hp))
      exact ⟨n, hid, rfl, hr⟩
    · rintro ⟨n, rfl, rfl, hr⟩
      obtain ⟨hcores, havailable⟩ := h.node_isNaN hr
      exact ⟨_, hr, (hselected _).mpr rfl, rowToNode_rowOf hread hcores havailable⟩
  · intro r hr r' hr' hp hp'
    rw [hselected] at hp hp'
    exact h.node_eq hr' hr (hp'.trans hp.symm)

end State

end Nexad
