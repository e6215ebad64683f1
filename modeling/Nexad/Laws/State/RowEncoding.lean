import Nexad.Laws.State.Cluster
import Nexad.Laws.State.ReadBack

/-!
# What an insertion leaves to be read

A number is bound as a signed integer of some width and cast back when it is
read, so that the upper half of `u64` and `u32` passes through negative
integers. Every cast is undone by its partner: a node or pod that the store
has room for is read back as it was inserted, whichever query selects its row
(`rows_lossless`).
-/

namespace Nexad.State

open Relational

variable {D : Domain} {N : NodeText} {db : Db}

/-! ## What a store holds -/

/-- A row is that of the deployment. -/
def HoldsDeployment (db : Db) (d : Deployment D) : Prop :=
  ∃ project name specJson, D.specToJson d.spec = .ok specJson ∧
    rowOfDeployment project name specJson d ∈ db.rows .deployments

/-- A row is that of the pod. -/
def HoldsPod (db : Db) (p : Pod D) : Prop := rowOfPod p ∈ db.rows .pods

variable (D N) in
/-- A row is that of the node. -/
def HoldsNode (db : Db) (n : Node) : Prop := rowOfNode D N n ∈ db.rows .nodes

/-! ## What the lists answer -/

section Lists

variable (hread : ReadsBack D N) (h : StoreState D N db)

include hread h

/-- Every node is listed, as its row keeps it. -/
theorem listNodes_eq (scan : Scan Column) : ∃ nodes, listNodes D N scan db = .ok nodes ∧
    ∀ found, found ∈ nodes ↔ ∃ n, HoldsNode D N db n ∧ n.stored = found := by
  have hwritten : ∀ r ∈ db.rows .nodes, ∃ found n, r = rowOfNode D N n ∧ n.stored = found := by
    intro r hr
    obtain ⟨n, hn⟩ := h.written .nodes r hr
    exact ⟨n.stored, n, hn, rfl⟩
  have hdecode : ∀ r ∈ db.rows .nodes, ∀ found, (∃ n, r = rowOfNode D N n ∧ n.stored = found) →
      rowToNode D N (recordOf nodeColumns r) = .ok found := by
    rintro _ hn _ ⟨n, rfl, rfl⟩
    obtain ⟨hcores, havailable⟩ := h.node_isNaN hn
    exact rowToNode_rowOf hread hcores havailable
  obtain ⟨nodes, hnodes, hmem⟩ := h.inv.fetchAll_eq (D := D) (t := .nodes) rfl
    (by simp [Schema.Covers, nodeColumns, nodesSchema]) (fun _ => true) (some (.name, scan)) _ hwritten
    hdecode
  refine ⟨nodes, hnodes, fun found => (hmem found).trans ?_⟩
  constructor
  · rintro ⟨_, hn, -, n, rfl, rfl⟩
    exact ⟨n, hn, rfl⟩
  · rintro ⟨n, hn, rfl⟩
    exact ⟨_, hn, rfl, n, rfl, rfl⟩

/-- A node is found by its name, as its row keeps it. -/
theorem getNodeByName_of_holds {n : Node} (hn : HoldsNode D N db n) :
    getNodeByName D N db n.name = .ok (some n.stored) := by
  obtain ⟨hcores, havailable⟩ := h.node_isNaN hn
  rw [getNodeByName, h.inv.fetchOptional_iff (t := .nodes) rfl
    (by simp [Schema.Covers, nodeColumns, nodesSchema])]
  · exact ⟨_, hn, decide_eq_true rfl, rowToNode_rowOf hread hcores havailable⟩
  · intro r hr r' hr' hp hp'
    have hnames := h.inv.distinct (t := .nodes) rfl [.name] (by simp [nodesSchema])
      fun r hr c hc => by
        rw [List.mem_singleton.mp hc]
        exact h.inv.filled (t := .nodes) rfl (by simp [nodesSchema]) hr
    refine eq_of_pairwise (f := fun r => r .name) (hnames.imp fun hapart heq => hapart ?_) hr' hr
      ((of_decide_eq_true hp').trans (of_decide_eq_true hp).symm)
    simpa using heq

omit hread h in
/-- A row is selected by its project, or by none. -/
theorem selected_iff {r : DbRow} {name : String} (hr : r .project = .text name)
    (project : Option String) :
    project.elim (fun _ => true) (whereText .project) r = true ↔
      ∀ named ∈ project, name = named := by
  cases project with
  | none => simp
  | some named =>
    simp only [Option.elim_some, Option.mem_def, Option.some.injEq, forall_eq', whereText, hr]
    exact decide_eq_true_iff.trans ⟨Value.text.inj, congrArg Value.text⟩

/-- Every pod of a project, or of all, is listed. -/
theorem listPods_eq (scan : Scan Column) (project : Option String) : ∃ pods,
    listPods D scan db project = .ok pods ∧
    ∀ p, p ∈ pods ↔ HoldsPod db p ∧ ∀ name ∈ project, p.project = name := by
  obtain ⟨pods, hpods, hmem⟩ := fetchAll_pods hread h
    (project.elim (fun _ => true) (whereText .project)) (some (.createdAt, scan))
  refine ⟨pods, hpods, fun p => (hmem p).trans ?_⟩
  rw [selected_iff (r := rowOfPod p) rfl project]
  rfl

end Lists

/-! ## Insertions -/

section Insertions

variable (hread : ReadsBack D N) (h : StoreState D N db)

include hread h

/-- A node of a new id and name is inserted. -/
theorem insertNode_holds {n : Node} (hstorable : Cluster.storable n = true)
    (hfree : ∀ m, HoldsNode D N db m → m.id ≠ n.id ∧ m.name ≠ n.name) :
    ∃ db', insertNode D N db n = (db', .ok ()) ∧ HoldsNode D N db' n := by
  obtain ⟨tbl, ht, hschema⟩ := h.inv.table (t := .nodes) rfl
  have hrows : db.rows .nodes = tbl.rows := Database.rows_of_some ht
  have hinsert : db.insert true .nodes (nodeValues D N n) =
      .ok (db.setRows .nodes tbl (tbl.rows ++ [rowOfNode D N n])) := by
    refine Database.insert_eq_ok ht ?_ ?_ (fun r hr hconflict => ?_) fun fk hfk => ?_
    · rw [hschema]
      simp [Schema.Covers, nodeValues, nodeSets, nodesSchema]
    · rw [hschema]
      exact filled_rowOfNode.mpr hstorable
    · rw [hschema] at hconflict
      rw [← hrows] at hr
      obtain ⟨m, rfl⟩ := h.written .nodes r hr
      obtain ⟨hid, hname⟩ := hfree m hr
      exact ((conflict_rowOfNode hread.uuid).mp hconflict).elim hid hname
    · rw [hschema] at hfk
      cases hfk
  refine ⟨_, by rw [insertNode, ← nodeValues, hinsert], ?_⟩
  rw [HoldsNode, Database.rows_setRows_self]
  exact List.mem_append_right _ (List.mem_singleton_self _)

/-- A pod of a new id is inserted where its deployment is. -/
theorem insertPod_holds {p : Pod D} (hfree : ∀ q : Pod D, HoldsPod db q → q.id ≠ p.id)
    (hdeployment : ∃ d : Deployment D, HoldsDeployment db d ∧ d.id = p.deploymentId) :
    ∃ db', insertPod db p = (db', .ok ()) ∧ HoldsPod db' p := by
  obtain ⟨tbl, ht, hschema⟩ := h.inv.table (t := .pods) rfl
  have hrows : db.rows .pods = tbl.rows := Database.rows_of_some ht
  have hinsert : ∃ values, Row.ofList values = rowOfPod p ∧
      insertPod db p = executed D db (db.insert true .pods values) ∧
      db.insert true .pods values = .ok (db.setRows .pods tbl (tbl.rows ++ [rowOfPod p])) := by
    refine ⟨_, rfl, rfl, Database.insert_eq_ok ht ?_ ?_ (fun r hr hconflict => ?_) fun fk hfk => ?_⟩
    · rw [hschema]
      simp [Schema.Covers, podsSchema]
    · rw [hschema]
      intro c hc hnull
      simp only [podsSchema, List.mem_cons, List.not_mem_nil, or_false] at hc
      rcases hc with rfl | rfl | rfl | rfl | rfl | rfl | rfl | rfl <;> cases hnull
    · rw [hschema] at hconflict
      rw [← hrows] at hr
      obtain ⟨q, rfl⟩ := h.written .pods r hr
      obtain ⟨key, hkey, hagrees⟩ := hconflict
      rw [List.mem_singleton.mp hkey] at hagrees
      refine hfree q hr (hread.uuid.injective ?_)
      exact Value.text.inj (hagrees .id (List.mem_singleton_self _)).2
    · rw [hschema] at hfk
      obtain ⟨d, ⟨project, name, specJson, -, hd⟩, hid⟩ := hdeployment
      rw [List.mem_singleton.mp hfk]
      exact ⟨by decide, .inr ⟨_, hd, congrArg (fun id => Value.text (D.uuid.print id)) hid.symm⟩⟩
  obtain ⟨values, -, hexecuted, hinsert⟩ := hinsert
  refine ⟨_, by rw [hexecuted, hinsert]; rfl, ?_⟩
  rw [HoldsPod, Database.rows_setRows_self]
  exact List.mem_append_right _ (List.mem_singleton_self _)

end Insertions

/-! ## Reading back -/

variable (D N) in
/-- Every query that selects the node's row answers with the node. -/
structure NodeReadBack (db : Db) (n : Node) : Prop where
  byId : ∃ found, getNode D N db n.id = .ok (some found) ∧ found.Equals n
  byName : ∃ found, getNodeByName D N db n.name = .ok (some found) ∧ found.Equals n
  listed : ∀ scan, ∃ nodes, listNodes D N scan db = .ok nodes ∧ ∃ found ∈ nodes, found.Equals n

/-- Every query that selects the pod's row answers with the pod. -/
structure PodReadBack (db : Db) (p : Pod D) : Prop where
  byDeployment : ∀ scan, ∃ pods, podsByDeployment D scan db p.deploymentId = .ok pods ∧ p ∈ pods
  byProject : ∀ scan, ∃ pods, listPods D scan db (some p.project) = .ok pods ∧ p ∈ pods
  listed : ∀ scan, ∃ pods, listPods D scan db none = .ok pods ∧ p ∈ pods

/-- A node or pod that is new to the store is read back as it was inserted,
with every number of its type. -/
theorem rows_lossless (hread : ReadsBack D N) (h : StoreState D N db) :
    (∀ n : Node, n.resources.cpuCores.isNaN = false → n.resources.cpuAvailable.isNaN = false →
      (∀ m, HoldsNode D N db m → m.id ≠ n.id ∧ m.name ≠ n.name) →
      ∃ db', insertNode D N db n = (db', .ok ()) ∧ NodeReadBack D N db' n) ∧
    ∀ p : Pod D, (∀ q : Pod D, HoldsPod db q → q.id ≠ p.id) →
      (∃ d : Deployment D, HoldsDeployment db d ∧ d.id = p.deploymentId) →
      ∃ db', insertPod db p = (db', .ok ()) ∧ PodReadBack db' p := by
  refine ⟨fun n hcores havailable hfree => ?_, fun p hfree hdeployment => ?_⟩
  · have hstorable : Cluster.storable n = true := by simp [Cluster.storable, hcores, havailable]
    obtain ⟨db', hinsert, hn⟩ := insertNode_holds hread h hstorable hfree
    have h' : StoreState D N db' := h.clusterRan (.insertNode n) (congrArg Prod.fst hinsert)
    have hequals := Node.stored_equals hcores havailable
    refine ⟨db', hinsert, ⟨n.stored, (getNode_iff hread h').mpr ⟨n, rfl, rfl, hn⟩, hequals⟩,
      ⟨n.stored, getNodeByName_of_holds hread h' hn, hequals⟩, fun scan => ?_⟩
    obtain ⟨nodes, hnodes, hmem⟩ := listNodes_eq hread h' scan
    exact ⟨nodes, hnodes, n.stored, (hmem _).mpr ⟨n, hn, rfl⟩, hequals⟩
  · obtain ⟨db', hinsert, hp⟩ := insertPod_holds hread h hfree hdeployment
    have h' : StoreState D N db' := h.ran (.insertPod p) (congrArg Prod.fst hinsert)
    refine ⟨db', hinsert, fun scan => ?_, fun scan => ?_, fun scan => ?_⟩
    · obtain ⟨pods, hpods, hmem⟩ := podsByDeployment_eq hread h' scan p.deploymentId
      exact ⟨pods, hpods, (hmem p).mpr ⟨rfl, hp⟩⟩
    · obtain ⟨pods, hpods, hmem⟩ := listPods_eq hread h' scan (some p.project)
      exact ⟨pods, hpods, (hmem p).mpr ⟨hp, by simp⟩⟩
    · obtain ⟨pods, hpods, hmem⟩ := listPods_eq hread h' scan none
      exact ⟨pods, hpods, (hmem p).mpr ⟨hp, by simp⟩⟩

section Shop

/-- With numbers that do not fit the signed integers they are bound as. -/
def wideNode : Node where
  id := ⟨4⟩
  name := "worker-2"
  address := "10.0.0.2:9000"
  role := .worker
  status := .ready
  resources := ⟨⟨0x4010000000000000⟩, 18446744073709551615, ⟨0⟩, 9223372036854775808, 4294967295⟩
  lastHeartbeat := 0
  joinedAt := 0

/-- With the greatest numbers that there are. -/
def widePod : Pod Domain.shop where
  id := ⟨5⟩
  deploymentId := ⟨1⟩
  project := "shop"
  deploymentName := "web"
  replicaIndex := 4294967295
  nodeId := some ⟨4⟩
  containerId := none
  containerIp := some "172.20.1.2"
  status := "running"
  image := "web:1"
  restartCount := 4294967295
  createdAt := 0

theorem rows_lossless_wide :
    (∃ db', insertNode Domain.shop NodeText.shop usedShop wideNode = (db', .ok ()) ∧
      NodeReadBack Domain.shop NodeText.shop db' wideNode) ∧
    ∃ db', insertPod usedShop widePod = (db', .ok ()) ∧ PodReadBack db' widePod := by
  obtain ⟨hnode, hpod⟩ := rows_lossless shop_readsBack usedShop_state
  refine ⟨hnode wideNode (by decide) (by decide) fun m hm => ?_, hpod widePod (fun q hq => ?_) ?_⟩
  · have hrows : ∀ r ∈ usedShop.rows .nodes, r .id ≠ .text (Domain.shop.uuid.print ⟨4⟩) ∧
        r .name ≠ .text "worker-2" := by decide
    obtain ⟨hid, hname⟩ := hrows _ hm
    exact ⟨fun heq => hid (congrArg (fun id => Value.text (Domain.shop.uuid.print id)) heq),
      fun heq => hname (congrArg Value.text heq)⟩
  · have hrows : ∀ r ∈ usedShop.rows .pods, r .id ≠ .text (Domain.shop.uuid.print ⟨5⟩) := by decide
    exact fun heq => hrows _ hq (congrArg (fun id => Value.text (Domain.shop.uuid.print id)) heq)
  · refine ⟨shopDeployment, ⟨"shop", "web", _, rfl, ?_⟩, rfl⟩
    exact List.mem_singleton_self _

end Shop

end Nexad.State
