import Mathlib.Data.List.Pairwise
import Nexad.Base.Runs
import Nexad.Laws.Base.ForeignKeys
import Nexad.Laws.Cluster.System
import Nexad.Laws.State.Rows

/-!
# The cluster's store is rows of the store

The cluster's model of the store (`Cluster.Shared`) keeps nodes and a map where
`SqliteStore` keeps rows. `Represents` relates the two. Every call on nodes and
the configuration answers alike on both sides and leaves them related, and so
does every run of such calls (`run_refines`). A node is read as its row keeps it (`Node.stored`).
-/

namespace Nexad.State

open Relational Results
open Cluster (NodeTable Shared StoreCall)

variable {D : Domain} {N : NodeText} {db db' : Db}

variable (D N) in
/-- The rows of `nodes` are those of the nodes, and the row of a key has its value. -/
structure Represents (db : Db) (s : Shared D) : Prop where
  state : StoreState D N db
  rows : db.rows .nodes = s.nodes.rows.map (rowOfNode D N)
  config : ∀ key, (db.first .clusterConfig (whereText .key key)).map (fun r => r .value) =
    (s.config key).map .text

variable (D N) in
/-- The rows of the nodes were written, and those of the configuration were not. -/
structure NodesWritten (db db' : Db) (t : NodeTable) : Prop where
  rows : db'.rows .nodes = t.rows.map (rowOfNode D N)
  config : db'.rows .clusterConfig = db.rows .clusterConfig

theorem Represents.written {s : Shared D} {t : NodeTable} (h : Represents D N db s)
    (hstate : StoreState D N db') (hwritten : NodesWritten D N db db' t) :
    Represents D N db' { s with nodes := t } where
  state := hstate
  rows := hwritten.rows
  config key := by
    rw [Database.first, hwritten.config]
    exact h.config key

/-! ## Constraints -/

section Constraints

variable {m n : Node}

theorem f64Value_ne_null_iff {x : F64} : f64Value x ≠ .null ↔ x.isNaN = false := by
  unfold f64Value
  cases x.isNaN with
  | false => simp
  | true => simp

/-- A row has no null where none may be when its numbers are numbers. -/
theorem filled_rowOfNode : nodesSchema.Filled (rowOfNode D N n) ↔ Cluster.storable n = true := by
  have hstorable : Cluster.storable n = true ↔
      n.resources.cpuCores.isNaN = false ∧ n.resources.cpuAvailable.isNaN = false := by
    simp [Cluster.storable]
  have hvalue : ∀ {c : Column} {v : Value}, rowOfNode D N n c = v → v.rank ≠ 0 →
      rowOfNode D N n c ≠ .null := by
    rintro c _ rfl hrank hnull
    rw [hnull] at hrank
    exact hrank rfl
  rw [hstorable, ← f64Value_ne_null_iff, ← f64Value_ne_null_iff]
  simp only [Schema.Filled, nodesSchema, List.forall_mem_cons]
  constructor
  · rintro ⟨-, -, -, -, hcores, -, havailable, -⟩
    exact ⟨hcores, havailable⟩
  · rintro ⟨hcores, havailable⟩
    have htwo : 2 ≠ 0 := by decide
    have hone : 1 ≠ 0 := by decide
    exact ⟨hvalue rfl htwo, hvalue rfl htwo, hvalue rfl htwo, hvalue rfl htwo, hcores,
      hvalue rfl hone, havailable, hvalue rfl hone, hvalue rfl hone, hvalue rfl htwo,
      hvalue rfl htwo, fun _ hc => absurd hc List.not_mem_nil⟩

/-- Rows conflict when their nodes have the same id or the same name. -/
theorem conflict_rowOfNode (huuid : D.uuid.Inverse) :
    nodesSchema.Conflict (rowOfNode D N m) (rowOfNode D N n) ↔ m.id = n.id ∨ m.name = n.name := by
  have hid : rowOfNode D N m .id = rowOfNode D N n .id ↔ m.id = n.id := by
    refine ⟨fun h => huuid.injective (Value.text.inj h), fun h => ?_⟩
    exact congrArg (fun id => Value.text (D.uuid.print id)) h
  have hname : rowOfNode D N m .name = rowOfNode D N n .name ↔ m.name = n.name :=
    ⟨Value.text.inj, congrArg Value.text⟩
  have hnull : rowOfNode D N m .id ≠ .null ∧ rowOfNode D N m .name ≠ .null :=
    ⟨fun h => (by cases h), fun h => (by cases h)⟩
  simp [Schema.Conflict, nodesSchema, hid, hname, hnull]

end Constraints

/-- No row references a node: the store writes no subnet allocations. -/
theorem StoreState.unreferenced (h : StoreState D N db) (t : TableName)
    (fk : ForeignKey TableName Column) (hfk : fk ∈ db.foreignKeys t) (hparent : fk.parent = .nodes) :
    t ≠ .nodes ∧ db.rows t = [] := by
  rw [h.inv.foreignKeys] at hfk
  cases t with
  | deployments | pods =>
    rw [List.mem_singleton.mp hfk] at hparent
    cases hparent
  | subnetAllocations =>
    exact ⟨by decide, List.eq_nil_iff_forall_not_mem.mpr (h.written .subnetAllocations)⟩
  | _ => cases hfk

/-! ## Statements -/

section Statements

variable {s : Shared D} {t : NodeTable} (hread : ReadsBack D N) (h : Represents D N db s)

include h

theorem Represents.table : ∃ tbl, db .nodes = some tbl ∧ tbl.schema = nodesSchema ∧
    tbl.schema.foreignKeys = [] ∧ tbl.rows = s.nodes.rows.map (rowOfNode D N) := by
  obtain ⟨tbl, ht, hschema⟩ := h.state.inv.table (t := .nodes) rfl
  exact ⟨tbl, ht, hschema, by rw [hschema]; rfl, by rw [← h.rows, Database.rows_of_some ht]⟩

include hread

/-- An insertion goes well for both, or fails for both with the same error. -/
theorem Represents.insert (n : Node) :
    match s.nodes.insert n with
    | .ok t => ∃ db', db.insert true .nodes (nodeValues D N n) = .ok db' ∧ NodesWritten D N db db' t
    | .error e => db.insert true .nodes (nodeValues D N n) = .error e := by
  obtain ⟨tbl, ht, hschema, hown, hrows⟩ := h.table
  have hcovers : tbl.schema.Covers ((nodeValues D N n).map Prod.fst) := by
    rw [hschema]
    simp [Schema.Covers, nodeValues, nodeSets, nodesSchema]
  have hfilled : tbl.schema.Filled (Row.ofList (nodeValues D N n)) ↔ Cluster.storable n = true := by
    rw [hschema]
    exact filled_rowOfNode
  have hconflict : (∃ r ∈ tbl.rows, tbl.schema.Conflict r (Row.ofList (nodeValues D N n))) ↔
      ¬ (n.id ∉ s.nodes.rows.map Node.id ∧ n.name ∉ s.nodes.rows.map Node.name) := by
    have hrow : Row.ofList (nodeValues D N n) = rowOfNode D N n := rfl
    rw [hschema, hrows, hrow]
    simp only [List.mem_map, exists_exists_and_eq_and, conflict_rowOfNode hread.uuid]
    grind
  rw [Database.insert_of_no_keys ht hown hcovers]
  unfold NodeTable.insert
  by_cases hstorable : Cluster.storable n = true
  · rw [if_neg (not_not.mpr (hfilled.mpr hstorable)), if_neg (by simp [hstorable])]
    by_cases hfree : n.id ∉ s.nodes.rows.map Node.id ∧ n.name ∉ s.nodes.rows.map Node.name
    · rw [if_neg (fun h => hconflict.mp h hfree), dif_pos hfree]
      refine ⟨_, rfl, ?_, Database.rows_setRows_of_ne _ _ _ (by decide)⟩
      rw [Database.rows_setRows_self, hrows, List.map_append]
      rfl
    · rw [if_pos (hconflict.mpr hfree), dif_neg hfree]
  · rw [if_pos (fun h => hstorable (hfilled.mp h)), if_pos (by simp [hstorable])]

omit h in
theorem whereText_rowOfNode {m : Node} {id : Uuid} :
    whereText .id (D.uuid.print id) (rowOfNode D N m) = true ↔ m.id = id := by
  rw [whereText, decide_eq_true_iff]
  refine ⟨fun h => hread.uuid.injective (Value.text.inj h), ?_⟩
  rintro rfl
  rfl

omit h in
/-- What an update makes of a row is the row of what it makes of the node. -/
theorem assign_rowOfNode (n m : Node) :
    (if whereText .id (D.uuid.print n.id) (rowOfNode D N m) then
      (rowOfNode D N m).assign (nodeSets D N n) else rowOfNode D N m) =
    rowOfNode D N (NodeTable.written n m) := by
  by_cases hid : m.id = n.id
  · rw [if_pos ((whereText_rowOfNode hread).mpr hid), rowOfNode_assign, NodeTable.written, if_pos hid,
      hid]
  · rw [if_neg (fun h => hid ((whereText_rowOfNode hread).mp h)), NodeTable.written, if_neg hid]

omit h in
/-- The rows that an update leaves do not conflict when the name was free. -/
theorem apart_written (n : Node) :
    ((t.rows.map (rowOfNode D N)).Pairwise fun r r' => whereText .id (D.uuid.print n.id) r = true ∨
      whereText .id (D.uuid.print n.id) r' = true → ¬ nodesSchema.Conflict
        (if whereText .id (D.uuid.print n.id) r then r.assign (nodeSets D N n) else r)
        (if whereText .id (D.uuid.print n.id) r' then r'.assign (nodeSets D N n) else r')) ↔
    (n.id ∈ t.rows.map Node.id → ∀ r ∈ t.rows, r.id ≠ n.id → r.name ≠ n.name) := by
  rw [List.pairwise_map]
  simp only [assign_rowOfNode hread]
  simp only [whereText_rowOfNode hread, conflict_rowOfNode hread.uuid, NodeTable.written_id]
  constructor
  · intro hpairwise hmem r hr hid hname
    obtain ⟨m, hm, hmid⟩ := List.mem_map.mp hmem
    have hsymmetric : Std.Symm fun m m' : Node => m.id = n.id ∨ m'.id = n.id →
        ¬ (m.id = m'.id ∨ (NodeTable.written n m).name = (NodeTable.written n m').name) :=
      ⟨fun m m' hapart hone hsame => hapart hone.symm (hsame.imp Eq.symm Eq.symm)⟩
    have hne : r ≠ m := fun heq => hid (heq ▸ hmid)
    refine hpairwise.forall hr hm hne (.inr hmid) (.inr ?_)
    rw [NodeTable.written, if_neg hid, NodeTable.written, if_pos hmid, hname]
  · intro hfree
    have hids := List.pairwise_map.mp t.ids
    refine hids.imp_of_mem fun {m m'} hm hm' hid hone hsame => ?_
    -- one of the two has the id, so the name was free
    have hmem : n.id ∈ t.rows.map Node.id :=
      hone.elim (fun h => List.mem_map.mpr ⟨m, hm, h⟩) fun h => List.mem_map.mpr ⟨m', hm', h⟩
    have hwritten : NodeTable.written n m ≠ NodeTable.written n m' := by
      intro heq
      exact hid (by rw [← NodeTable.written_id n m, heq, NodeTable.written_id])
    have hname : (NodeTable.written n m).name = (NodeTable.written n m').name :=
      hsame.resolve_left hid
    exact hwritten (List.inj_on_of_nodup_map (t.names_written n (hfree hmem))
      (List.mem_map_of_mem hm) (List.mem_map_of_mem hm') hname)

omit h in
theorem filter_rowOfNode (n : Node) : ((t.rows.map (rowOfNode D N)).filter
    (whereText .id (D.uuid.print n.id))).length ≠ 0 ↔ n.id ∈ t.rows.map Node.id := by
  rw [ne_eq, List.length_eq_zero_iff, List.filter_eq_nil_iff, List.forall_mem_map, List.mem_map]
  simp only [whereText_rowOfNode hread]
  grind

omit h in
theorem filled_written (n : Node) : (∀ r ∈ t.rows.map (rowOfNode D N),
      whereText .id (D.uuid.print n.id) r = true → nodesSchema.Filled (r.assign (nodeSets D N n))) ↔
    (n.id ∈ t.rows.map Node.id → Cluster.storable n = true) := by
  rw [List.forall_mem_map]
  simp only [rowOfNode_assign, filled_rowOfNode, whereText_rowOfNode hread, List.mem_map]
  constructor
  · rintro hstorable ⟨m, hm, hid⟩
    exact hstorable m hm hid
  · exact fun hstorable m hm hid => hstorable ⟨m, hm, hid⟩

/-- An update goes well for both, or fails for both with the same error. -/
theorem Represents.update (n : Node) :
    match s.nodes.update n with
    | .ok none => db.update true .nodes (whereText .id (D.uuid.print n.id)) (nodeSets D N n) =
        .ok (db, 0)
    | .ok (some t) => ∃ db' k, db.update true .nodes (whereText .id (D.uuid.print n.id))
        (nodeSets D N n) = .ok (db', k) ∧ k ≠ 0 ∧ NodesWritten D N db db' t
    | .error e => db.update true .nodes (whereText .id (D.uuid.print n.id)) (nodeSets D N n) =
        .error e := by
  obtain ⟨tbl, ht, hschema, hown, hrows⟩ := h.table
  have hcovers : tbl.schema.Covers ((nodeSets D N n).map Prod.fst) := by
    rw [hschema]
    simp [Schema.Covers, nodeSets, nodesSchema]
  have hassigned : Database.assigned tbl (whereText .id (D.uuid.print n.id)) (nodeSets D N n) =
      (s.nodes.rows.map (NodeTable.written n)).map (rowOfNode D N) := by
    rw [Database.assigned, hrows, List.map_map, List.map_map]
    exact List.map_congr_left fun m _ => assign_rowOfNode hread n m
  have hresult := @Database.update_of_no_keys _ _ _ _ _ true _ _ _
    (whereText .id (D.uuid.print n.id)) _ ht hown hcovers h.state.unreferenced
  rw [hrows, hschema] at hresult
  unfold NodeTable.update
  by_cases hmem : n.id ∈ s.nodes.rows.map Node.id
  · rw [if_neg (not_not.mpr hmem)]
    by_cases hstorable : Cluster.storable n = true
    · rw [if_neg (by simp [hstorable])]
      rw [if_neg (not_not.mpr ((filled_written hread n).mpr fun _ => hstorable))] at hresult
      by_cases hfree : ∀ r ∈ s.nodes.rows, r.id ≠ n.id → r.name ≠ n.name
      · rw [if_neg (not_not.mpr ((apart_written hread n).mpr fun _ => hfree))] at hresult
        rw [dif_pos hfree]
        refine ⟨_, _, hresult, (filter_rowOfNode hread n).mpr hmem, ?_,
          Database.rows_setRows_of_ne _ _ _ (by decide)⟩
        rw [Database.rows_setRows_self, hassigned]
      · rw [if_pos (fun h => hfree ((apart_written hread n).mp h hmem))] at hresult
        rw [dif_neg hfree]
        exact hresult
    · rw [if_pos (by simp [hstorable])]
      rw [if_pos (fun h => hstorable ((filled_written hread n).mp h hmem))] at hresult
      exact hresult
  · rw [if_pos hmem]
    have hnone : ((s.nodes.rows.map (rowOfNode D N)).filter
        (whereText .id (D.uuid.print n.id))).length = 0 :=
      not_not.mp fun hne => hmem ((filter_rowOfNode hread n).mp hne)
    rw [if_neg (not_not.mpr ((filled_written hread n).mpr fun h => absurd h hmem)),
      if_neg (not_not.mpr ((apart_written hread n).mpr fun h => absurd h hmem)), hnone] at hresult
    rw [hresult, Database.update_none hresult]

theorem Represents.delete (id : Uuid) : ∃ db',
    db.delete true .nodes (whereText .id (D.uuid.print id)) = .ok db' ∧
      NodesWritten D N db db' (s.nodes.delete id) := by
  have hunreferenced : db.rows .subnetAllocations = [] :=
    List.eq_nil_iff_forall_not_mem.mpr (h.state.written .subnetAllocations)
  have hgone : ∀ r ∈ db.rows .nodes,
      db.Doomed .nodes (whereText .id (D.uuid.print id)) .nodes r ↔
        whereText .id (D.uuid.print id) r = true := by
    intro r _
    rw [h.state.inv.doomed_iff]
    simp
  have hkept : ∀ r ∈ db.rows .clusterConfig,
      db.Doomed .nodes (whereText .id (D.uuid.print id)) .clusterConfig r ↔ False := by
    intro r _
    rw [h.state.inv.doomed_iff]
    simp
  refine ⟨_, h.state.inv.delete_eq rfl (.inr hunreferenced) _, ?_, ?_⟩
  · rw [h.state.inv.rows_deleted hgone, h.rows, List.filter_map, NodeTable.delete]
    congr 1
    refine List.filter_congr fun m _ => ?_
    simp only [Function.comp_apply, decide_not, whereText_rowOfNode hread]
  · rw [h.state.inv.rows_deleted hkept]
    simp

end Statements

/-! ## Calls -/

section Calls

variable {s : Shared D} (hread : ReadsBack D N) (h : Represents D N db s)

include hread h

/-- `insert_node` ends on the rows as it does on the nodes. -/
theorem insertNode_refines (n : Node) : ∃ db',
    insertNode D N db n = (db', ((StoreCall.insertNode n).run s).1.mapError .error) ∧
      Represents D N db' ((StoreCall.insertNode n).run s).2 := by
  have hinsert := h.insert hread n
  simp only [StoreCall.run]
  cases hresult : s.nodes.insert n with
  | ok t' =>
    rw [hresult] at hinsert
    obtain ⟨db', hdb', hwritten⟩ := hinsert
    have hdone : insertNode D N db n = (db', .ok ()) := by
      rw [insertNode, ← nodeValues, hdb']
    exact ⟨db', hdone, h.written (h.state.clusterRan (.insertNode n) (congrArg Prod.fst hdone)) hwritten⟩
  | error e =>
    rw [hresult] at hinsert
    refine ⟨db, ?_, ?_⟩
    · rw [insertNode, ← nodeValues, hinsert]
      cases e <;> rfl
    · cases e <;> exact h

/-- `update_node` ends on the rows as it does on the nodes. -/
theorem updateNode_refines (n : Node) : ∃ db',
    updateNode D N db n = (db', ((StoreCall.updateNode n).run s).1.mapError .error) ∧
      Represents D N db' ((StoreCall.updateNode n).run s).2 := by
  have hupdate := h.update hread n
  simp only [StoreCall.run]
  cases hresult : s.nodes.update n with
  | ok found =>
    cases found with
    | none =>
      rw [hresult] at hupdate
      refine ⟨db, ?_, h⟩
      rw [updateNode, hupdate]
      rfl
    | some t' =>
      rw [hresult] at hupdate
      obtain ⟨db', k, hdb', hk, hwritten⟩ := hupdate
      have hdone : updateNode D N db n = (db', .ok ()) := by
        rw [updateNode, hdb', affected, if_neg hk]
      exact ⟨db', hdone,
        h.written (h.state.clusterRan (.updateNode n) (congrArg Prod.fst hdone)) hwritten⟩
  | error e =>
    rw [hresult] at hupdate
    refine ⟨db, ?_, h⟩
    rw [updateNode, hupdate]
    rfl

/-- `delete_node` ends on the rows as it does on the nodes. -/
theorem deleteNode_refines (id : Uuid) : ∃ db',
    deleteNode D db id = (db', ((StoreCall.deleteNode id).run s).1.mapError .error) ∧
      Represents D N db' ((StoreCall.deleteNode id).run s).2 := by
  obtain ⟨db', hdb', hwritten⟩ := h.delete hread id
  have hdone : deleteNode D db id = (db', .ok ()) := by
    rw [deleteNode, hdb']
    rfl
  exact ⟨db', hdone, h.written (h.state.clusterRan (.deleteNode id) (congrArg Prod.fst hdone)) hwritten⟩

/-- A row of a node is read as it keeps the node. -/
theorem rowToNode_of_mem {n : Node} (hn : n ∈ s.nodes.rows) :
    rowToNode D N (recordOf nodeColumns (rowOfNode D N n)) = .ok n.stored := by
  have hr : rowOfNode D N n ∈ db.rows .nodes := by
    rw [h.rows]
    exact List.mem_map_of_mem hn
  obtain ⟨hcores, havailable⟩ := h.state.node_isNaN hr
  exact rowToNode_rowOf hread hcores havailable

/-- A query for one node finds the first with the property. -/
theorem fetchNode_refines {p : DbRow → Bool} {q : Node → Bool} (hpq : ∀ m, p (rowOfNode D N m) = q m) :
    fetchOptional D (rowToNode D N) (db.select nodeColumns .nodes p none) =
      .ok ((s.nodes.rows.find? q).map Node.stored) := by
  have hsame : p ∘ rowOfNode D N = q := funext hpq
  rw [h.state.inv.fetchOptional_eq (t := .nodes) rfl
    (by simp [Schema.Covers, nodeColumns, nodesSchema]), Database.first, h.rows, List.find?_map, hsame]
  cases hfound : s.nodes.rows.find? q with
  | none => rfl
  | some n =>
    rw [Option.map_some, Option.mapM_some,
      rowToNode_of_mem hread h (List.mem_of_find?_eq_some hfound)]
    rfl

/-- `get_node` reads the row of the node with the id. -/
theorem getNode_refines (id : Uuid) :
    getNode D N db id = .ok ((s.nodes.get id).map Node.stored) := by
  refine fetchNode_refines hread h fun m => ?_
  rw [Bool.eq_iff_iff, whereText_rowOfNode hread, decide_eq_true_iff]

/-- `get_node_by_name` reads the row of the node with the name. -/
theorem getNodeByName_refines (name : String) :
    getNodeByName D N db name = .ok ((s.nodes.getByName name).map Node.stored) := by
  refine fetchNode_refines hread h fun m => ?_
  rw [Bool.eq_iff_iff, whereText, decide_eq_true_iff, decide_eq_true_iff]
  exact ⟨Value.text.inj, congrArg Value.text⟩

omit hread h in
theorem names_trans (a b c : Node) (hab : decide (a.name ≤ b.name) = true)
    (hbc : decide (b.name ≤ c.name) = true) : decide (a.name ≤ c.name) = true :=
  decide_eq_true (Std.le_trans (of_decide_eq_true hab) (of_decide_eq_true hbc))

omit hread h in
theorem names_total (a b : Node) : (decide (a.name ≤ b.name) || decide (b.name ≤ a.name)) = true := by
  rw [Bool.or_eq_true, decide_eq_true_iff, decide_eq_true_iff]
  exact Std.le_total

omit hread h in
/-- What is in the order of the names is the list: no two are the same. -/
theorem eq_list {t : NodeTable} {listed : List Node} (hperm : listed.Perm t.rows)
    (hordered : listed.Pairwise fun r r' => decide (r.name ≤ r'.name) = true) : listed = t.list := by
  have hsorted : t.list.Pairwise fun r r' => decide (r.name ≤ r'.name) = true :=
    List.pairwise_mergeSort names_trans names_total _
  have hlist : t.list.Perm t.rows := List.mergeSort_perm _ _
  refine List.Perm.eq_of_pairwise (fun r r' hr hr' hle hle' => ?_) hordered hsorted (hperm.trans hlist.symm)
  refine List.inj_on_of_nodup_map t.names (hperm.subset hr) (hlist.subset hr') ?_
  exact String.le_antisymm (of_decide_eq_true hle) (of_decide_eq_true hle')

/-- `list_nodes` reads the rows in the order of the names. -/
theorem listNodes_refines (scan : Scan Column) :
    listNodes D N scan db = .ok (s.nodes.list.map Node.stored) := by
  obtain ⟨tbl, ht, hschema, -, hrows⟩ := h.table
  have hcovers : tbl.schema.Covers nodeColumns := by
    rw [hschema]
    simp [Schema.Covers, nodeColumns, nodesSchema]
  have hle : ∀ a b : Node, (rowOfNode D N a .name).le (rowOfNode D N b .name) =
      decide (a.name ≤ b.name) := fun _ _ => rfl
  obtain ⟨listed, hperm, hordered, hselect⟩ := Database.select_mapped (p := fun _ => true)
    (q := fun _ => true) ht hcovers h.rows (fun _ _ => rfl) scan hle names_trans names_total
  rw [List.filter_true] at hperm
  rw [eq_list hperm hordered] at hselect
  have hdecode : ∀ n ∈ s.nodes.list,
      (rowToNode D N ∘ fun n => recordOf nodeColumns (rowOfNode D N n)) n = .ok n.stored := fun n hn =>
    rowToNode_of_mem hread h (List.mem_mergeSort.mp hn)
  rw [listNodes, hselect, fetchAll, Except.mapError]
  show (s.nodes.list.map fun n => recordOf nodeColumns (rowOfNode D N n)).mapM (rowToNode D N) = _
  rw [List.mapM_map]
  exact mapM_eq_ok hdecode

omit hread

/-- `get_cluster_config` reads the row of the key. -/
theorem getClusterConfig_refines (key : String) :
    getClusterConfig D db key = .ok (s.config key) := by
  have hconfig := h.config key
  rw [getClusterConfig, h.state.inv.fetchOptional_eq (t := TableName.clusterConfig) rfl
    (by simp [Schema.Covers, clusterConfigSchema])]
  cases hfirst : db.first .clusterConfig (whereText .key key) with
  | none =>
    rw [hfirst, Option.map_none] at hconfig
    rw [Option.map_eq_none_iff.mp hconfig.symm]
    rfl
  | some r =>
    rw [hfirst, Option.map_some] at hconfig
    obtain ⟨value, hvalue, htext⟩ := Option.map_eq_some_iff.mp hconfig.symm
    have hread : getString (recordOf [.value] r) .value = .ok value :=
      getString_text (congrArg some htext.symm)
    rw [hvalue, Option.mapM_some, hread]
    rfl

omit h in
/-- The row of an upsert is looked for by its key. -/
theorem withKey_config (key value : String) :
    (Row.ofList [(Column.key, .text key), (Column.value, .text value)]).withKey [.key] =
      whereText .key key := by
  funext r
  rw [Bool.eq_iff_iff, Row.withKey_iff, whereText, decide_eq_true_iff]
  constructor
  · intro hagrees
    exact (hagrees .key (List.mem_singleton_self _)).2
  · intro hkey c hc
    rw [List.mem_singleton.mp hc, hkey]
    exact ⟨fun hnull => (by cases hnull), rfl⟩

/-- `set_cluster_config` writes the row of the key. -/
theorem setClusterConfig_refines (key value : String) : ∃ db',
    setClusterConfig D db key value = (db', .ok ()) ∧
      Represents D N db' ((StoreCall.setClusterConfig key value).run s).2 := by
  obtain ⟨tbl, ht, hschema⟩ := h.state.inv.table (t := .clusterConfig) rfl
  have hchildren : ∀ t', ∀ fk ∈ db.foreignKeys t', fk.parent ≠ .clusterConfig := by
    intro t' fk hfk
    rw [h.state.inv.foreignKeys] at hfk
    cases t' with
    | deployments | pods | subnetAllocations =>
      rw [List.mem_singleton.mp hfk]
      decide
    | _ => cases hfk
  have hfilled : tbl.schema.Filled (Row.ofList [(.key, .text key), (.value, .text value)]) := by
    rw [hschema]
    intro c hc
    rw [List.mem_singleton.mp hc]
    exact fun hnull => by cases hnull
  have hapart : ∀ c ∈ [Column.key], c ∉ [Column.value] := by decide
  obtain ⟨db', hdb'⟩ : ∃ db', db.upsert true .clusterConfig
      [(.key, .text key), (.value, .text value)] [.key] [.value] = .ok db' :=
    Database.upsert_eq_ok h.state.inv.integrity ht (by rw [hschema]; rfl) (by rw [hschema]; rfl)
      hchildren (by rw [hschema]; simp [Schema.Covers, clusterConfigSchema]) hfilled
      (by rw [hschema]; simp [Schema.Covers, clusterConfigSchema]) hapart
  have hdone : setClusterConfig D db key value = (db', .ok ()) := by
    rw [setClusterConfig, hdb']
    rfl
  have hself : Row.Agrees [.key] (Row.ofList [(Column.key, .text key), (Column.value, .text value)])
      (Row.ofList [(Column.key, .text key), (Column.value, .text value)]) := by
    rw [← Row.withKey_iff, withKey_config]
    exact decide_eq_true rfl
  refine ⟨db', hdone,
    h.state.clusterRan (.setClusterConfig key value) (congrArg Prod.fst hdone), ?_, fun key' => ?_⟩
  · rw [Database.upsert_rows_of_ne (by decide) hdb', h.rows]
    rfl
  · show _ = (Function.update s.config key (some value) key').map Value.text
    by_cases hkey : key' = key
    · subst hkey
      obtain ⟨r, hr, hset⟩ := Database.first_upsert_self hself hapart hdb'
      rw [withKey_config] at hr
      rw [hr, Function.update_self, Option.map_some, hset .value (List.mem_singleton_self _)]
      rfl
    · have hother : ∀ r : DbRow, r .key = .text key → whereText .key key' r = false := by
        intro r hr
        refine decide_eq_false fun hsame => hkey ?_
        exact Value.text.inj (hsame.symm.trans hr)
      rw [Function.update_of_ne hkey, ← h.config key']
      refine congrArg _ (Database.first_upsert_of_apart (fun r => ?_) (fun r hr => ?_)
        (hother _ rfl) hdb')
      · rw [whereText, Row.assign_of_unset _ _ (by decide)]
        rfl
      · exact hother r (hr .key (List.mem_singleton_self _)).2

end Calls

/-! ## Runs -/

/-- The cluster's call. -/
def ClusterOp.call : ClusterOp → StoreCall
  | .insertNode node => .insertNode node
  | .getNode id => .getNode id
  | .getNodeByName name => .getNodeByName name
  | .listNodes => .listNodes
  | .updateNode node => .updateNode node
  | .deleteNode id => .deleteNode id
  | .getClusterConfig key => .getClusterConfig key
  | .setClusterConfig key value => .setClusterConfig key value

/-- Its answer, with the nodes as rows keep them. -/
def ClusterOp.reply : (op : ClusterOp) → op.call.Res D → ClusterReply
  | .getNode _, found | .getNodeByName _, found => .node (Option.map Node.stored found)
  | .listNodes, found => .nodes (List.map Node.stored found)
  | .getClusterConfig _, found => .config found
  | .insertNode _, _ | .updateNode _, _ | .deleteNode _, _ | .setClusterConfig .., _ => .unit

/-- The call on the cluster's model of the store. -/
def ClusterOp.runShared (s : Shared D) (op : ClusterOp) : Shared D × ClusterOutcome :=
  ((op.call.run s).2, ((op.call.run s).1.map op.reply).mapError .error)

/-- A call answers on the rows as it does on what they represent. -/
theorem ClusterOp.run_refines {s : Shared D} (hread : ReadsBack D N) (h : Represents D N db s)
    (scan : Scan Column) (op : ClusterOp) : (op.run D N scan db).2 = (op.runShared s).2 ∧
      Represents D N (op.run D N scan db).1 (op.runShared s).1 := by
  cases op with
  | insertNode n =>
    obtain ⟨db', hrun, hafter⟩ := insertNode_refines hread h n
    have hwrote : (ClusterOp.insertNode n).run D N scan db =
        (db', (((StoreCall.insertNode n).run s).1.mapError .error).map fun _ => .unit) :=
      congrArg clusterWrote hrun
    rw [hwrote, map_mapError]
    exact ⟨rfl, hafter⟩
  | updateNode n =>
    obtain ⟨db', hrun, hafter⟩ := updateNode_refines hread h n
    have hwrote : (ClusterOp.updateNode n).run D N scan db =
        (db', (((StoreCall.updateNode n).run s).1.mapError .error).map fun _ => .unit) :=
      congrArg clusterWrote hrun
    rw [hwrote, map_mapError]
    exact ⟨rfl, hafter⟩
  | deleteNode id =>
    obtain ⟨db', hrun, hafter⟩ := deleteNode_refines hread h id
    have hwrote : (ClusterOp.deleteNode id).run D N scan db = (db', .ok .unit) := congrArg clusterWrote hrun
    rw [hwrote]
    exact ⟨rfl, hafter⟩
  | setClusterConfig key value =>
    obtain ⟨db', hrun, hafter⟩ := setClusterConfig_refines h key value
    have hwrote : (ClusterOp.setClusterConfig key value).run D N scan db = (db', .ok .unit) :=
      congrArg clusterWrote hrun
    rw [hwrote]
    exact ⟨rfl, hafter⟩
  | getNode id => exact ⟨congrArg (Except.map ClusterReply.node) (getNode_refines hread h id), h⟩
  | getNodeByName name =>
    exact ⟨congrArg (Except.map ClusterReply.node) (getNodeByName_refines hread h name), h⟩
  | listNodes => exact ⟨congrArg (Except.map ClusterReply.nodes) (listNodes_refines hread h scan), h⟩
  | getClusterConfig key =>
    exact ⟨congrArg (Except.map ClusterReply.config) (getClusterConfig_refines h key), h⟩

/-- So does every run of calls, each with a scan of its own. -/
theorem run_refines {s : Shared D} (hread : ReadsBack D N) (h : Represents D N db s)
    (ops : List (Scan Column × ClusterOp)) :
    (Runs.answers (fun db op => op.2.run D N op.1 db) db ops).2 =
        (Runs.answers (fun s op => op.2.runShared s) s ops).2 ∧
      Represents D N (Runs.answers (fun db op => op.2.run D N op.1 db) db ops).1
        (Runs.answers (fun s op => op.2.runShared s) s ops).1 :=
  Runs.answers_related (fun _ _ op hop => op.2.run_refines hread hop op.1) ops h

end Nexad.State
