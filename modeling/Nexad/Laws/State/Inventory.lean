import Nexad.Laws.Base.ForeignKeys
import Nexad.Laws.State.ReadBack
import Nexad.State.Inventory

/-!
# `SqliteStore` refines the inventory

`Keeps` relates the rows of a database to an inventory: each table is the list
of the rows of its values. An insertion, an update and a query of such a table
come to what they come to on the values (`insert_mapped`, `update_mapped`,
`fetchOptional_mapped`, `fetchAll_mapped`), and so every call ends alike on both sides and leaves them related
(`run_refines_inventory`).
-/

namespace Nexad.State

open Relational Results

variable {D : Domain} {N : NodeText} {db db' : Db} {s : Inventory D}

/-- What `insert_project` writes. -/
def rowOfProject (p : Project D) : DbRow :=
  Row.ofList [(.name, .text p.name), (.status, .text (D.projectStatus.print p.status)),
    (.createdAt, .text (D.time.print p.createdAt))]

/-- The row of a deployment where it is filed. -/
def Filed.row (f : Filed D) : DbRow := rowOfDeployment f.project f.name f.specJson f.deployment

/-- Three tables hold the rows of an inventory. -/
structure Keeps (db : Db) (s : Inventory D) : Prop where
  projects : db.rows .projects = s.projects.map rowOfProject
  deployments : db.rows .deployments = s.deployments.map Filed.row
  pods : db.rows .pods = s.pods.map rowOfPod

/-- A call ends as it does on the inventory, and leaves what it leaves there. -/
structure Alike (result : Db × Outcome D) (abstract : Inventory D × Outcome D) : Prop where
  outcome : result.2 = abstract.2
  keeps : Keeps result.1 abstract.1

/-- A call answers as it may on the inventory, and leaves what it leaves there. -/
structure Refines (result : Db × Outcome D) (s : Inventory D) (op : StoreOp D) : Prop where
  answers : s.Answers op result.2
  keeps : Keeps result.1 (s.does op)

/-- The table of the pods, as it has become. -/
abbrev podsTable : Schema TableName Column :=
  { podsSchema with columns := podsSchema.columns ++ [.containerIp, .nodeId] }

theorem schemaAt_pods : schemaAt .cascade .pods = some podsTable := rfl

/-! ## Statements on a table of values -/

section Statements

variable {α : Type} {t : TableName} {schema : Schema TableName Column} {rowOf : α → DbRow} {l : List α}

/-- Every other table is as it was. -/
def Elsewhere (t : TableName) (db db' : Db) : Prop := ∀ t', t' ≠ t → db'.rows t' = db.rows t'

/-- An insertion is refused for what is taken, then for a parent that is
missing, and else appends. -/
theorem insert_mapped (hinv : StoreInv db) (hs : schemaAt .cascade t = some schema)
    (hrows : db.rows t = l.map rowOf) {values : List (Column × Value)} {a : α}
    (hvalues : Row.ofList values = rowOf a) (hcovers : schema.Covers (values.map Prod.fst))
    (hfilled : schema.Filled (rowOf a)) (hself : ∀ fk ∈ schema.foreignKeys, fk.parent ≠ t)
    {taken orphan : Prop} [Decidable taken] [Decidable orphan]
    (htaken : (∃ b ∈ l, schema.Conflict (rowOf b) (rowOf a)) ↔ taken)
    (horphan : (∃ fk ∈ schema.foreignKeys, ¬ db.HasParent fk (rowOf a)) ↔ orphan) :
    ∃ db', Elsewhere t db db' ∧ db'.rows t = (l ++ [a]).map rowOf ∧
      db.insert true t values =
        if taken then .error .unique else if orphan then .error .foreignKey else .ok db' := by
  obtain ⟨tbl, ht, rfl⟩ := hinv.table hs
  have hconflict : (∃ r ∈ tbl.rows, tbl.schema.Conflict r (rowOf a)) ↔ taken := by
    rw [← htaken, ← Database.rows_of_some ht, hrows]
    simp only [List.mem_map, exists_exists_and_eq_and]
  rw [Database.insert_of_keys ht hcovers (hvalues ▸ hfilled) hself, hvalues]
  refine ⟨db.setRows t tbl (tbl.rows ++ [rowOf a]), fun t' hne => Database.rows_setRows_of_ne _ _ _ hne,
    ?_, ?_⟩
  · rw [Database.rows_setRows_self, ← Database.rows_of_some ht, hrows, List.map_append]
    rfl
  · simp only [hconflict, horphan]

/-- The columns of a statement are outside of all keys, as the schema has them. -/
def Outside (t : TableName) (schema : Schema TableName Column) (columns : List Column) : Prop :=
  (∀ c ∈ columns, c ∈ schema.columns) ∧ (∀ key ∈ schema.unique, ∀ c ∈ key, c ∉ columns) ∧
    (∀ fk ∈ schema.foreignKeys, fk.column ∉ columns) ∧
    ∀ t', ∀ fk ∈ (schemaAt .cascade t').elim [] Schema.foreignKeys, fk.parent = t →
      t' ≠ t ∧ fk.parentColumn ∉ columns

instance (t : TableName) (schema : Schema TableName Column) (columns : List Column) :
    Decidable (Outside t schema columns) :=
  inferInstanceAs (Decidable ((∀ c ∈ columns, c ∈ schema.columns) ∧
    (∀ key ∈ schema.unique, ∀ c ∈ key, c ∉ columns) ∧
    (∀ fk ∈ schema.foreignKeys, fk.column ∉ columns) ∧
    ∀ t', ∀ fk ∈ (schemaAt .cascade t').elim [] Schema.foreignKeys, fk.parent = t →
      t' ≠ t ∧ fk.parentColumn ∉ columns))

/-- An update outside of all keys changes the values it is meant for. -/
theorem update_mapped (hinv : StoreInv db) (hs : schemaAt .cascade t = some schema)
    (hrows : db.rows t = l.map rowOf) {p : DbRow → Bool} {q : α → Prop} [DecidablePred q]
    (hp : ∀ a ∈ l, p (rowOf a) = true ↔ q a) {sets : List (Column × Value)} {g : α → α}
    (hg : ∀ a ∈ l, q a → (rowOf a).assign sets = rowOf (g a))
    (houtside : Outside t schema (sets.map Prod.fst))
    (hfilled : ∀ r : DbRow, schema.Filled r → schema.Filled (r.assign sets)) :
    ∃ db' n, db.update true t p sets = .ok (db', n) ∧ (n = 0 ↔ ¬ ∃ a ∈ l, q a) ∧
      Elsewhere t db db' ∧ db'.rows t = (l.map fun a => if q a then g a else a).map rowOf := by
  obtain ⟨tbl, ht, rfl⟩ := hinv.table hs
  obtain ⟨hcovers, hunique, hown, hreferenced⟩ := houtside
  have hkeys : Database.OutsideKeys db t tbl.schema sets :=
    ⟨hcovers, hunique, hown, fun t' fk hfk => hreferenced t' fk (hinv.foreignKeys t' ▸ hfk)⟩
  refine ⟨_, _, Database.update_outside_keys hinv.integrity ht hkeys hfilled, ?_,
    fun t' hne => Database.rows_setRows_of_ne _ _ _ hne, ?_⟩
  · rw [List.length_eq_zero_iff, List.filter_eq_nil_iff, ← Database.rows_of_some ht, hrows,
      List.forall_mem_map]
    simp only [not_exists, not_and]
    exact forall₂_congr fun a ha => not_congr (hp a ha)
  · rw [Database.rows_setRows_self, Database.assigned, ← Database.rows_of_some ht, hrows, List.map_map,
      List.map_map]
    refine List.map_congr_left fun a ha => ?_
    dsimp only [Function.comp_apply]
    by_cases hq : q a
    · rw [if_pos ((hp a ha).mpr hq), if_pos hq, hg a ha hq]
    · rw [if_neg fun h => hq ((hp a ha).mp h), if_neg hq]

variable {β : Type} {columns : List Column} {decode : DbRecord → Except Failure β} {g : α → β}

/-- A query for one row finds the first value that is meant. -/
theorem fetchOptional_mapped (hinv : StoreInv db) (hs : schemaAt .cascade t = some schema)
    (hrows : db.rows t = l.map rowOf) (hcovers : schema.Covers columns) {p : DbRow → Bool} {q : α → Bool}
    (hp : ∀ a, p (rowOf a) = q a) (hdecode : ∀ a, decode (recordOf columns (rowOf a)) = .ok (g a)) :
    fetchOptional D decode (db.select columns t p none) = .ok ((l.find? q).map g) := by
  have hfirst : db.first t p = (l.find? q).map rowOf := by
    rw [Database.first, hrows, List.find?_map]
    congr 2
    exact funext hp
  rw [hinv.fetchOptional_eq hs hcovers, hfirst]
  cases l.find? q with
  | none => rfl
  | some a =>
    rw [Option.map_some, Option.mapM_some, hdecode]
    rfl

theorem Lists.map {κ : Type} [LE κ] {key : β → κ} {meant found : List α}
    (h : Lists (fun a => key (g a)) meant found) : Lists key (meant.map g) (found.map g) :=
  ⟨h.perm.map g, List.pairwise_map.mpr h.ordered⟩

/-- A query for all rows lists the values that are meant, in the order of its column. -/
theorem fetchAll_mapped (hinv : StoreInv db) (hs : schemaAt .cascade t = some schema)
    (hrows : db.rows t = l.map rowOf) (hcovers : schema.Covers columns) {p : DbRow → Bool} {q : α → Bool}
    (hp : ∀ a, p (rowOf a) = q a) (hdecode : ∀ a, decode (recordOf columns (rowOf a)) = .ok (g a))
    (scan : Scan Column) (c : Column) {κ : Type} [LE κ] [DecidableLE κ] [Std.IsLinearPreorder κ]
    (key : β → κ) (hle : ∀ a b, (rowOf a c).le (rowOf b c) = decide (key (g a) ≤ key (g b))) :
    ∃ found, fetchAll D decode (db.select columns t p (some (c, scan))) = .ok found ∧
      Lists key ((l.filter q).map g) found := by
  obtain ⟨tbl, ht, rfl⟩ := hinv.table hs
  have htrans : ∀ a b c : α, decide (key (g a) ≤ key (g b)) = true →
      decide (key (g b) ≤ key (g c)) = true → decide (key (g a) ≤ key (g c)) = true :=
    fun a b c hab hbc => decide_eq_true (Std.le_trans (of_decide_eq_true hab) (of_decide_eq_true hbc))
  have htotal : ∀ a b : α, (decide (key (g a) ≤ key (g b)) || decide (key (g b) ≤ key (g a))) = true := by
    intro a b
    rw [Bool.or_eq_true, decide_eq_true_iff, decide_eq_true_iff]
    exact Std.le_total
  obtain ⟨listed, hperm, hordered, hselect⟩ := Database.select_mapped ht hcovers hrows
    (fun a _ => hp a) scan hle htrans htotal
  have hlists : Lists (fun a => key (g a)) (l.filter q) listed :=
    ⟨hperm, hordered.imp fun hab => of_decide_eq_true hab⟩
  refine ⟨listed.map g, ?_, hlists.map⟩
  rw [hselect]
  show (List.map (fun a => recordOf columns (rowOf a)) _).mapM decode = _
  rw [List.mapM_map]
  exact mapM_eq_ok fun a _ => hdecode a

end Statements

/-! ## Rows that are selected -/

section Selected

variable {p : Project D} {f : Filed D} {pod : Pod D}

theorem whereName_rowOfProject {name : String} :
    whereText .name name (rowOfProject p) = decide (p.name = name) :=
  decide_eq_decide.mpr ⟨Value.text.inj, congrArg Value.text⟩

theorem whereProject_row {project : String} :
    whereText .project project f.row = decide (f.project = project) :=
  decide_eq_decide.mpr ⟨Value.text.inj, congrArg Value.text⟩

theorem whereName_row {name : String} : whereText .name name f.row = decide (f.name = name) :=
  decide_eq_decide.mpr ⟨Value.text.inj, congrArg Value.text⟩

theorem whereProject_rowOfPod {project : String} :
    whereText .project project (rowOfPod pod) = decide (pod.project = project) :=
  decide_eq_decide.mpr ⟨Value.text.inj, congrArg Value.text⟩

/-- Two ids are one when their texts are. -/
theorem print_inj (huuid : D.uuid.Inverse) {id id' : Uuid} :
    Value.text (D.uuid.print id) = .text (D.uuid.print id') ↔ id = id' :=
  ⟨fun h => huuid.injective (Value.text.inj h), fun h => h ▸ rfl⟩

variable (huuid : D.uuid.Inverse)

include huuid

theorem whereId_row {id : Uuid} :
    whereText .id (D.uuid.print id) f.row = decide (f.deployment.id = id) :=
  decide_eq_decide.mpr (print_inj huuid)

theorem whereId_rowOfPod {id : Uuid} :
    whereText .id (D.uuid.print id) (rowOfPod pod) = decide (pod.id = id) :=
  decide_eq_decide.mpr (print_inj huuid)

theorem whereDeployment_rowOfPod {id : Uuid} :
    whereText .deploymentId (D.uuid.print id) (rowOfPod pod) = decide (pod.deploymentId = id) :=
  decide_eq_decide.mpr (print_inj huuid)

/-- Deployments conflict when they have the same id, or the same place. -/
theorem conflict_row {f g : Filed D} : (deploymentsSchema .cascade).Conflict f.row g.row ↔
    f.deployment.id = g.deployment.id ∨ f.project = g.project ∧ f.name = g.name := by
  have hid : f.row .id = g.row .id ↔ f.deployment.id = g.deployment.id := print_inj huuid
  have hproject : f.row .project = g.row .project ↔ f.project = g.project :=
    ⟨Value.text.inj, congrArg Value.text⟩
  have hname : f.row .name = g.row .name ↔ f.name = g.name := ⟨Value.text.inj, congrArg Value.text⟩
  have hnull : f.row .id ≠ .null ∧ f.row .project ≠ .null ∧ f.row .name ≠ .null :=
    ⟨Value.text_ne_null _, Value.text_ne_null _, Value.text_ne_null _⟩
  simp [Schema.Conflict, deploymentsSchema, hid, hproject, hname, hnull]

end Selected

/-- A project is read as it was written. -/
theorem rowToProject_rowOf (htime : D.time.Inverse) (hstatus : D.projectStatus.Inverse) (p : Project D) :
    rowToProject D (recordOf projectColumns (rowOfProject p)) = .ok p := by
  rw [rowToProject, getParsed_text (a := p.status) hstatus rfl,
    getParsed_text (a := p.createdAt) htime rfl, getString_text (s := p.name) rfl]
  rfl

/-- The order of a column of texts is that of the texts. -/
theorem le_text {α : Type} {rowOf : α → DbRow} {c : Column} (text : α → String)
    (hc : ∀ a, rowOf a c = .text (text a)) (a b : α) :
    (rowOf a c).le (rowOf b c) = decide (text a ≤ text b) := by
  rw [hc, hc]
  rfl

/-! ## Specs that print -/

section Printed

variable {d : Deployment D} {e specJson : String}

theorem Inventory.insertDeployment_unprinted (hjson : D.specToJson d.spec = .error e) :
    s.insertDeployment d = s.refuse (.error (.serialization e)) := by
  unfold insertDeployment
  split
  · next hjson' => rw [Except.error.inj (hjson.symm.trans hjson')]
  · next hjson' => cases hjson.symm.trans hjson'

theorem Inventory.insertDeployment_printed (hjson : D.specToJson d.spec = .ok specJson) :
    s.insertDeployment d =
      if s.Taken d then s.refuse (runtimeError D .unique)
      else if ∃ p ∈ s.projects, p.name = D.project d.spec then
        ({ s with deployments := s.deployments ++
            [⟨D.project d.spec, D.deploymentName d.spec, d, specJson, hjson⟩] }, .ok .unit)
      else s.refuse (runtimeError D .foreignKey) := by
  unfold insertDeployment
  split
  · next hjson' => cases hjson.symm.trans hjson'
  · next hjson' =>
    cases hjson.symm.trans hjson'
    rfl

theorem Inventory.updateDeployment_unprinted (hjson : D.specToJson d.spec = .error e) :
    s.updateDeployment d = s.refuse (.error (.serialization e)) := by
  unfold updateDeployment
  split
  · next hjson' => rw [Except.error.inj (hjson.symm.trans hjson')]
  · next hjson' => cases hjson.symm.trans hjson'

/-- The deployment that an update makes of one. -/
def Filed.updated (d : Deployment D) (hjson : D.specToJson d.spec = .ok specJson) (f : Filed D) :
    Filed D :=
  ⟨f.project, f.name, { d with id := f.deployment.id, createdAt := f.deployment.createdAt }, specJson,
    hjson⟩

theorem Inventory.updateDeployment_printed (hjson : D.specToJson d.spec = .ok specJson) :
    s.updateDeployment d =
      if ∃ f ∈ s.deployments, f.deployment.id = d.id then
        ({ s with deployments := s.deployments.map fun f =>
            if f.deployment.id = d.id then f.updated d hjson else f }, .ok .unit)
      else s.refuse (.error (.deploymentNotFound (D.uuid.print d.id))) := by
  unfold updateDeployment
  split
  · next hjson' => cases hjson.symm.trans hjson'
  · next hjson' =>
    cases hjson.symm.trans hjson'
    rfl

end Printed

/-! ## Projects -/

section Calls

variable (hread : ReadsBack D N) (hinv : StoreInv db) (h : Keeps db s) (scan : Scan Column)

include hinv h

theorem insertProject_alike (project : Project D) :
    Alike ((StoreOp.insertProject project).run scan db) (s.insertProject project) := by
  have hfilled : projectsSchema.Filled (rowOfProject project) := by
    simp only [Schema.Filled, projectsSchema, List.forall_mem_cons]
    exact ⟨Value.text_ne_null _, Value.text_ne_null _, List.forall_mem_nil _⟩
  have hconflict : (∃ p ∈ s.projects, projectsSchema.Conflict (rowOfProject p) (rowOfProject project)) ↔
      ∃ p ∈ s.projects, p.name = project.name := by
    refine exists_congr fun p => and_congr_right fun _ => ?_
    simp [Schema.Conflict, projectsSchema, rowOfProject, Row.ofList, Row.assign]
  have horphan : (∃ fk ∈ projectsSchema.foreignKeys, ¬ db.HasParent fk (rowOfProject project)) ↔
      False := by simp [projectsSchema]
  obtain ⟨db', helsewhere, hrows, hinsert⟩ := insert_mapped (t := .projects) hinv rfl h.projects
    (a := project) rfl (by simp [Schema.Covers, projectsSchema]) hfilled (fun fk hfk => by cases hfk)
    hconflict horphan
  show Alike (wrote (State.insertProject db project)) (s.insertProject project)
  rw [State.insertProject, hinsert, Inventory.insertProject]
  by_cases htaken : ∃ p ∈ s.projects, p.name = project.name
  · rw [if_pos htaken, if_pos htaken]
    exact ⟨rfl, h⟩
  · rw [if_neg htaken, if_neg htaken, if_neg not_false]
    exact ⟨rfl, ⟨hrows, (helsewhere _ (by decide)).trans h.deployments,
      (helsewhere _ (by decide)).trans h.pods⟩⟩

theorem updateProjectStatus_alike (name : String) (status : D.ProjectStatus) :
    Alike ((StoreOp.updateProjectStatus name status).run scan db)
      (s.updateProjectStatus name status) := by
  have hfilled : ∀ r : DbRow, projectsSchema.Filled r →
      projectsSchema.Filled (r.assign [(.status, .text (D.projectStatus.print status))]) := by
    intro r hr
    simp only [Schema.Filled, projectsSchema, List.forall_mem_cons] at hr ⊢
    exact ⟨Value.text_ne_null _, hr.2.1, List.forall_mem_nil _⟩
  have hassign : ∀ p ∈ s.projects, p.name = name →
      (rowOfProject p).assign [(.status, .text (D.projectStatus.print status))] =
        rowOfProject { p with status := status } := by
    intro p _ _
    funext c
    cases c <;> rfl
  obtain ⟨db', n, hupdate, hnone, helsewhere, hrows⟩ := update_mapped (t := .projects)
    (p := whereText .name name) (q := fun p => p.name = name) hinv rfl h.projects
    (fun p _ => by rw [whereName_rowOfProject, decide_eq_true_iff]) hassign
    (show Outside .projects projectsSchema [.status] by decide) hfilled
  show Alike (wrote (State.updateProjectStatus D db name status)) (s.updateProjectStatus name status)
  rw [State.updateProjectStatus, hupdate, Inventory.updateProjectStatus, affected]
  by_cases hthere : ∃ p ∈ s.projects, p.name = name
  · rw [if_neg fun hn => hnone.mp hn hthere, if_pos hthere]
    exact ⟨rfl, ⟨hrows, (helsewhere _ (by decide)).trans h.deployments,
      (helsewhere _ (by decide)).trans h.pods⟩⟩
  · rw [if_pos (hnone.mpr hthere), if_neg hthere]
    have hsame : db' = db := Database.update_none (hnone.mpr hthere ▸ hupdate)
    exact ⟨rfl, hsame ▸ h⟩

theorem deleteProject_alike (huuid : D.uuid.Inverse) (name : String) :
    Alike ((StoreOp.deleteProject name).run scan db) (s.deleteProject name, .ok .unit) := by
  obtain ⟨db', hdb', hremoved⟩ := deleteProject_removes (D := D) hinv scan name
  have hname : ∀ p : Project D, rowOfProject p .name = .text name ↔ p.name = name := fun p =>
    ⟨Value.text.inj, congrArg Value.text⟩
  have hproject : ∀ f : Filed D, f.row .project = .text name ↔ f.project = name := fun f =>
    ⟨Value.text.inj, congrArg Value.text⟩
  have hparent : ∀ (p : Pod D) (f : Filed D), rowOfPod p .deploymentId = f.row .id ↔
      p.deploymentId = f.deployment.id := fun p f => print_inj huuid
  rw [hdb']
  refine ⟨rfl, ?_, ?_, ?_⟩
  · rw [hremoved.projects, h.projects, List.filter_map]
    exact congrArg _ (List.filter_congr fun p _ => decide_eq_decide.mpr (not_congr (hname p)))
  · rw [hremoved.deployments, h.deployments, List.filter_map]
    exact congrArg _ (List.filter_congr fun f _ => decide_eq_decide.mpr (not_congr (hproject f)))
  · rw [hremoved.pods, h.deployments, h.pods, List.filter_map]
    refine congrArg _ (List.filter_congr fun p _ => decide_eq_decide.mpr (not_congr ?_))
    simp only [List.mem_map, exists_exists_and_eq_and, hproject, hparent]

/-! ## Deployments -/

theorem insertDeployment_alike (huuid : D.uuid.Inverse) (d : Deployment D) :
    Alike ((StoreOp.insertDeployment d).run scan db) (s.insertDeployment d) := by
  show Alike (wrote (State.insertDeployment db d)) (s.insertDeployment d)
  cases hjson : D.specToJson d.spec with
  | error e =>
    rw [State.insertDeployment, hjson, s.insertDeployment_unprinted hjson]
    exact ⟨rfl, h⟩
  | ok specJson =>
    let filed : Filed D := ⟨D.project d.spec, D.deploymentName d.spec, d, specJson, hjson⟩
    have hfilled : (deploymentsSchema .cascade).Filled filed.row := by
      simp only [Schema.Filled, deploymentsSchema, List.forall_mem_cons]
      exact ⟨Value.text_ne_null _, Value.text_ne_null _, Value.text_ne_null _, Value.text_ne_null _,
        Value.text_ne_null _, Value.text_ne_null _, List.forall_mem_nil _⟩
    have hconflict : (∃ f ∈ s.deployments, (deploymentsSchema .cascade).Conflict f.row filed.row) ↔
        s.Taken d := exists_congr fun f => and_congr_right fun _ => conflict_row huuid
    have horphan : (∃ fk ∈ (deploymentsSchema .cascade).foreignKeys, ¬ db.HasParent fk filed.row) ↔
        ¬ ∃ p ∈ s.projects, p.name = D.project d.spec := by
      have hparent : ∀ p : Project D, filed.row .project = rowOfProject p .name ↔
          p.name = D.project d.spec := fun p =>
        ⟨fun heq => (Value.text.inj heq).symm, fun heq => congrArg Value.text heq.symm⟩
      have hset : filed.row .project ≠ .null := Value.text_ne_null _
      simp [deploymentsSchema, Database.HasParent, h.projects, hparent, hset]
    obtain ⟨db', helsewhere, hrows, hinsert⟩ := insert_mapped (t := .deployments) hinv rfl
      h.deployments (a := filed) rfl (by simp [Schema.Covers, deploymentsSchema]) hfilled
      (by simp [deploymentsSchema]) hconflict horphan
    rw [State.insertDeployment, hjson, s.insertDeployment_printed hjson]
    dsimp only
    rw [hinsert]
    by_cases htaken : s.Taken d
    · rw [if_pos htaken, if_pos htaken]
      exact ⟨rfl, h⟩
    · by_cases hproject : ∃ p ∈ s.projects, p.name = D.project d.spec
      · rw [if_neg htaken, if_neg (not_not.mpr hproject), if_neg htaken, if_pos hproject]
        exact ⟨rfl, ⟨(helsewhere _ (by decide)).trans h.projects, hrows,
          (helsewhere _ (by decide)).trans h.pods⟩⟩
      · rw [if_neg htaken, if_pos hproject, if_neg htaken, if_neg hproject]
        exact ⟨rfl, h⟩

theorem updateDeployment_alike (huuid : D.uuid.Inverse) (d : Deployment D) :
    Alike ((StoreOp.updateDeployment d).run scan db) (s.updateDeployment d) := by
  show Alike (wrote (State.updateDeployment db d)) (s.updateDeployment d)
  cases hjson : D.specToJson d.spec with
  | error e =>
    rw [State.updateDeployment, hjson, s.updateDeployment_unprinted hjson]
    exact ⟨rfl, h⟩
  | ok specJson =>
    let sets : List (Column × Value) := [(.specJson, .text specJson),
      (.status, .text (D.deploymentStatus.print d.status)),
      (.updatedAt, .text (D.time.print d.updatedAt))]
    have hfilled : ∀ r : DbRow, (deploymentsSchema .cascade).Filled r →
        (deploymentsSchema .cascade).Filled (r.assign sets) := by
      intro r hr
      simp only [Schema.Filled, deploymentsSchema, List.forall_mem_cons] at hr ⊢
      exact ⟨hr.1, hr.2.1, Value.text_ne_null _, Value.text_ne_null _, hr.2.2.2.2.1,
        Value.text_ne_null _, List.forall_mem_nil _⟩
    obtain ⟨db', n, hupdate, hnone, helsewhere, hrows⟩ := update_mapped (t := .deployments)
      (p := whereText .id (D.uuid.print d.id)) (q := fun f => f.deployment.id = d.id)
      hinv rfl h.deployments (fun f _ => by rw [whereId_row huuid, decide_eq_true_iff])
      (fun f _ _ => rowOfDeployment_assign f.project f.name f.specJson specJson d f.deployment)
      (g := Filed.updated d hjson)
      (show Outside .deployments (deploymentsSchema .cascade) [.specJson, .status, .updatedAt] by decide)
      hfilled
    rw [State.updateDeployment, hjson, s.updateDeployment_printed hjson]
    dsimp only
    rw [hupdate, affected]
    by_cases hthere : ∃ f ∈ s.deployments, f.deployment.id = d.id
    · rw [if_neg fun hn => hnone.mp hn hthere, if_pos hthere]
      exact ⟨rfl, ⟨(helsewhere _ (by decide)).trans h.projects, hrows,
        (helsewhere _ (by decide)).trans h.pods⟩⟩
    · rw [if_pos (hnone.mpr hthere), if_neg hthere]
      have hsame : db' = db := Database.update_none (hnone.mpr hthere ▸ hupdate)
      exact ⟨rfl, hsame ▸ h⟩

theorem deleteDeployment_alike (huuid : D.uuid.Inverse) (id : Uuid) :
    Alike ((StoreOp.deleteDeployment id).run scan db) (s.deleteDeployment id, .ok .unit) := by
  obtain ⟨db', hdb', hremoved⟩ := deleteDeployment_removes (D := D) hinv scan id
  rw [hdb']
  refine ⟨rfl, ?_, ?_, ?_⟩
  · exact (hremoved.others _ (by decide) (by decide)).trans h.projects
  · rw [hremoved.deployments, h.deployments, List.filter_map]
    exact congrArg _ (List.filter_congr fun f _ =>
      decide_eq_decide.mpr (not_congr (print_inj huuid)))
  · rw [hremoved.pods, h.pods, List.filter_map]
    exact congrArg _ (List.filter_congr fun p _ =>
      decide_eq_decide.mpr (not_congr (print_inj huuid)))

/-! ## Pods -/

theorem insertPod_alike (huuid : D.uuid.Inverse) (pod : Pod D) :
    Alike ((StoreOp.insertPod pod).run scan db) (s.insertPod pod) := by
  have hfilled : podsTable.Filled (rowOfPod pod) := by
    simp only [Schema.Filled, podsSchema, List.forall_mem_cons]
    exact ⟨Value.text_ne_null _, Value.text_ne_null _, Value.text_ne_null _, Value.integer_ne_null _,
      Value.text_ne_null _, Value.text_ne_null _, Value.integer_ne_null _, Value.text_ne_null _,
      List.forall_mem_nil _⟩
  have hconflict : (∃ p ∈ s.pods, podsTable.Conflict (rowOfPod p) (rowOfPod pod)) ↔
      ∃ p ∈ s.pods, p.id = pod.id := by
    refine exists_congr fun p => and_congr_right fun _ => ?_
    have hid : rowOfPod p .id = rowOfPod pod .id ↔ p.id = pod.id := print_inj huuid
    have hset : rowOfPod p .id ≠ .null := Value.text_ne_null _
    simp [Schema.Conflict, podsSchema, hid, hset]
  have horphan : (∃ fk ∈ podsTable.foreignKeys, ¬ db.HasParent fk (rowOfPod pod)) ↔
      ¬ ∃ f ∈ s.deployments, f.deployment.id = pod.deploymentId := by
    have hparent : ∀ f : Filed D, rowOfPod pod .deploymentId = f.row .id ↔
        f.deployment.id = pod.deploymentId := fun f => (print_inj huuid).trans eq_comm
    have hset : rowOfPod pod .deploymentId ≠ .null := Value.text_ne_null _
    simp [podsSchema, Database.HasParent, h.deployments, hparent, hset]
  obtain ⟨db', helsewhere, hrows, hinsert⟩ := insert_mapped (t := .pods) hinv schemaAt_pods
    h.pods (a := pod) rfl (by simp [Schema.Covers, podsSchema]) hfilled
    (by simp [podsSchema]) hconflict horphan
  show Alike (wrote (State.insertPod db pod)) (s.insertPod pod)
  rw [State.insertPod, hinsert, Inventory.insertPod]
  by_cases htaken : ∃ p ∈ s.pods, p.id = pod.id
  · rw [if_pos htaken, if_pos htaken]
    exact ⟨rfl, h⟩
  · by_cases hdeployment : ∃ f ∈ s.deployments, f.deployment.id = pod.deploymentId
    · rw [if_neg htaken, if_neg (not_not.mpr hdeployment), if_neg htaken, if_pos hdeployment]
      exact ⟨rfl, ⟨(helsewhere _ (by decide)).trans h.projects,
        (helsewhere _ (by decide)).trans h.deployments, hrows⟩⟩
    · rw [if_neg htaken, if_pos hdeployment, if_neg htaken, if_neg hdeployment]
      exact ⟨rfl, h⟩

theorem updatePod_alike (huuid : D.uuid.Inverse) (pod : Pod D) :
    Alike ((StoreOp.updatePod pod).run scan db) (s.updatePod pod) := by
  let sets : List (Column × Value) := [(.nodeId, optText (pod.nodeId.map D.uuid.print)),
    (.containerId, optText pod.containerId), (.containerIp, optText pod.containerIp),
    (.status, .text (D.podStatus.print pod.status)), (.restartCount, u32AsI64 pod.restartCount)]
  have hfilled : ∀ r : DbRow, podsTable.Filled r → podsTable.Filled (r.assign sets) := by
    intro r hr
    simp only [Schema.Filled, podsSchema, List.forall_mem_cons] at hr ⊢
    obtain ⟨hdeployment, hproject, hname, hindex, -, himage, -, hcreated, -⟩ := hr
    exact ⟨hdeployment, hproject, hname, hindex, Value.text_ne_null _, himage,
      Value.integer_ne_null _, hcreated, List.forall_mem_nil _⟩
  obtain ⟨db', n, hupdate, hnone, helsewhere, hrows⟩ := update_mapped (t := .pods)
    (p := whereText .id (D.uuid.print pod.id)) (q := fun p => p.id = pod.id)
    hinv schemaAt_pods h.pods (fun p _ => by rw [whereId_rowOfPod huuid, decide_eq_true_iff])
    (fun p _ _ => rowOfPod_assign pod p)
    (show Outside .pods podsTable [.nodeId, .containerId, .containerIp, .status, .restartCount]
      by decide) hfilled
  show Alike (wrote (State.updatePod db pod)) (s.updatePod pod)
  rw [State.updatePod, hupdate, Inventory.updatePod, affected]
  by_cases hthere : ∃ p ∈ s.pods, p.id = pod.id
  · rw [if_neg fun hn => hnone.mp hn hthere, if_pos hthere]
    exact ⟨rfl, ⟨(helsewhere _ (by decide)).trans h.projects,
      (helsewhere _ (by decide)).trans h.deployments, hrows⟩⟩
  · rw [if_pos (hnone.mpr hthere), if_neg hthere]
    have hsame : db' = db := Database.update_none (hnone.mpr hthere ▸ hupdate)
    exact ⟨rfl, hsame ▸ h⟩

theorem deletePod_alike (huuid : D.uuid.Inverse) (id : Uuid) :
    Alike ((StoreOp.deletePod id).run scan db) (s.does (.deletePod id), .ok .unit) := by
  have hdoomed : ∀ t r, db.Doomed .pods (whereText .id (D.uuid.print id)) t r ↔
      t = .pods ∧ whereText .id (D.uuid.print id) r = true := by
    intro t r
    have hproject : ∀ r, ¬ db.Doomed .pods (whereText .id (D.uuid.print id)) .projects r := by
      intro r
      rw [hinv.doomed_iff]
      simp
    have hdeployment : ∀ r, ¬ db.Doomed .pods (whereText .id (D.uuid.print id)) .deployments r := by
      intro r
      rw [hinv.doomed_iff]
      simp [hproject]
    rw [hinv.doomed_iff]
    simp [hproject, hdeployment]
  have hrows : ∀ t, (db.without (db.gone true .pods (whereText .id (D.uuid.print id)))).rows t =
      (db.rows t).filter fun r => ¬ (t = .pods ∧ whereText .id (D.uuid.print id) r = true) :=
    fun t => hinv.rows_deleted fun r _ => hdoomed t r
  have hsame : ∀ t, t ≠ .pods →
      (db.without (db.gone true .pods (whereText .id (D.uuid.print id)))).rows t = db.rows t :=
    fun t hne => (hrows t).trans (by simp [hne])
  have hthere : (schemaAt .cascade .pods).isSome = true := rfl
  have hdelete := hinv.delete_eq hthere (.inl (by decide)) (whereText .id (D.uuid.print id))
  show Alike (wrote (State.deletePod D db id)) _
  rw [State.deletePod, hdelete]
  refine ⟨rfl, ?_, ?_, ?_⟩
  · exact (hsame .projects (by decide)).trans h.projects
  · exact (hsame .deployments (by decide)).trans h.deployments
  · refine (hrows .pods).trans ?_
    rw [h.pods, List.filter_map]
    refine congrArg _ (List.filter_congr fun p _ => decide_eq_decide.mpr (not_congr ?_))
    rw [whereId_rowOfPod huuid, decide_eq_true_iff, and_iff_right rfl]

/-! ## Queries -/

include hread

theorem getProject_answers (hstatus : D.projectStatus.Inverse) (name : String) :
    s.Answers (.getProject name) ((StoreOp.getProject name).run scan db).2 := by
  have hwhere : ∀ p : Project D, whereText .name name (rowOfProject p) = decide (p.name = name) :=
    fun _ => whereName_rowOfProject
  have hfound := fetchOptional_mapped (D := D) (t := .projects) hinv rfl h.projects (by decide) hwhere
    (g := id) (rowToProject_rowOf hread.time hstatus)
  show (State.getProject D db name).map Reply.project = _
  rw [State.getProject, hfound, Option.map_id]
  rfl

theorem listProjects_answers (hstatus : D.projectStatus.Inverse) :
    s.Answers .listProjects (StoreOp.listProjects.run scan db).2 := by
  obtain ⟨found, hfound, hlists⟩ := fetchAll_mapped (D := D) (t := .projects) hinv rfl h.projects
    (by decide) (p := fun _ => true) (q := fun _ => true) (fun _ => rfl) (g := id)
    (rowToProject_rowOf hread.time hstatus) scan .name Project.name (le_text Project.name fun _ => rfl)
  rw [List.map_id, List.filter_true] at hlists
  refine ⟨found, ?_, hlists⟩
  show (State.listProjects D scan db).map Reply.projects = _
  rw [State.listProjects, hfound]
  rfl

theorem getDeployment_answers (project name : String) :
    s.Answers (.getDeployment project name) ((StoreOp.getDeployment project name).run scan db).2 := by
  have hselected : ∀ f : Filed D, (whereText .project project f.row && whereText .name name f.row) =
      decide (f.project = project ∧ f.name = name) := by
    intro f
    rw [whereProject_row, whereName_row, Bool.decide_and]
  have hfound := fetchOptional_mapped (D := D) (t := .deployments) hinv rfl h.deployments
    (by decide)
    (p := fun r => whereText .project project r && whereText .name name r) hselected
    (g := Filed.deployment) (fun f => rowToDeployment_rowOf hread f.printed)
  show (State.getDeployment D db project name).map Reply.deployment = _
  rw [State.getDeployment, hfound]
  rfl

theorem listDeployments_answers (project : Option String) :
    s.Answers (.listDeployments project) ((StoreOp.listDeployments project).run scan db).2 := by
  have hselected : ∀ f : Filed D, (project.elim (fun _ => true) (whereText .project)) f.row =
      project.all fun p => decide (f.project = p) := by
    intro f
    cases project with
    | none => rfl
    | some p => exact whereProject_row
  obtain ⟨found, hfound, hlists⟩ := fetchAll_mapped (D := D) (t := .deployments) hinv rfl
    h.deployments (by decide) hselected (g := Filed.deployment)
    (fun f => rowToDeployment_rowOf hread f.printed) scan .createdAt
    (fun d : Deployment D => D.time.print d.createdAt)
    (le_text (fun f : Filed D => D.time.print f.deployment.createdAt) fun _ => rfl)
  refine ⟨found, ?_, hlists⟩
  show (State.listDeployments D scan db project).map Reply.deployments = _
  rw [State.listDeployments, hfound]
  rfl

theorem listPods_answers (project : Option String) :
    s.Answers (.listPods project) ((StoreOp.listPods project).run scan db).2 := by
  have hselected : ∀ pod : Pod D, (project.elim (fun _ => true) (whereText .project)) (rowOfPod pod) =
      project.all fun p => decide (pod.project = p) := by
    intro pod
    cases project with
    | none => rfl
    | some p => exact whereProject_rowOfPod
  obtain ⟨found, hfound, hlists⟩ := fetchAll_mapped (D := D) (t := .pods) hinv rfl h.pods
    (by decide) hselected (g := id) (rowToPod_rowOf hread) scan .createdAt
    (fun p : Pod D => D.time.print p.createdAt) (le_text (fun p : Pod D => D.time.print p.createdAt) fun _ => rfl)
  rw [List.map_id] at hlists
  refine ⟨found, ?_, hlists⟩
  show (State.listPods D scan db project).map Reply.pods = _
  rw [State.listPods, hfound]
  rfl

theorem podsByDeployment_answers (deploymentId : Uuid) :
    s.Answers (.podsByDeployment deploymentId)
      ((StoreOp.podsByDeployment deploymentId).run scan db).2 := by
  have hle : ∀ p q : Pod D, (rowOfPod p .replicaIndex).le (rowOfPod q .replicaIndex) =
      decide (p.replicaIndex ≤ q.replicaIndex) := by
    intro p q
    refine decide_eq_decide.mpr ?_
    rw [UInt32.le_iff_toNat_le, Int.ofNat_le]
  have hselected : ∀ p : Pod D, whereText .deploymentId (D.uuid.print deploymentId) (rowOfPod p) =
      decide (p.deploymentId = deploymentId) := fun _ => whereDeployment_rowOfPod hread.uuid
  obtain ⟨found, hfound, hlists⟩ := fetchAll_mapped (D := D) (t := .pods) hinv rfl h.pods
    (by decide) hselected (g := id) (rowToPod_rowOf hread) scan .replicaIndex Pod.replicaIndex hle
  rw [List.map_id] at hlists
  refine ⟨found, ?_, hlists⟩
  show (State.podsByDeployment D scan db deploymentId).map Reply.pods = _
  rw [State.podsByDeployment, hfound]
  rfl

omit hread hinv h in
/-- What writes alike refines. -/
theorem Alike.refines {result : Db × Outcome D} {abstract : Inventory D × Outcome D} {op : StoreOp D}
    (halike : Alike result abstract) (hanswers : s.Answers op abstract.2) (hdoes : s.does op = abstract.1) :
    Refines result s op :=
  ⟨halike.outcome ▸ hanswers, hdoes ▸ halike.keeps⟩

/-- Every call ends on the rows as it may on the inventory. -/
theorem StoreOp.refines (hstatus : D.projectStatus.Inverse) (op : StoreOp D) :
    Refines (op.run scan db) s op := by
  cases op with
  | insertProject project => exact (insertProject_alike hinv h scan project).refines rfl rfl
  | getProject name => exact ⟨getProject_answers hread hinv h scan hstatus name, h⟩
  | listProjects => exact ⟨listProjects_answers hread hinv h scan hstatus, h⟩
  | updateProjectStatus name status =>
    exact (updateProjectStatus_alike hinv h scan name status).refines rfl rfl
  | deleteProject name => exact (deleteProject_alike hinv h scan hread.uuid name).refines rfl rfl
  | insertDeployment d => exact (insertDeployment_alike hinv h scan hread.uuid d).refines rfl rfl
  | getDeployment project name => exact ⟨getDeployment_answers hread hinv h scan project name, h⟩
  | listDeployments project => exact ⟨listDeployments_answers hread hinv h scan project, h⟩
  | updateDeployment d => exact (updateDeployment_alike hinv h scan hread.uuid d).refines rfl rfl
  | deleteDeployment id => exact (deleteDeployment_alike hinv h scan hread.uuid id).refines rfl rfl
  | insertPod pod => exact (insertPod_alike hinv h scan hread.uuid pod).refines rfl rfl
  | listPods project => exact ⟨listPods_answers hread hinv h scan project, h⟩
  | updatePod pod => exact (updatePod_alike hinv h scan hread.uuid pod).refines rfl rfl
  | deletePod id => exact (deletePod_alike hinv h scan hread.uuid id).refines rfl rfl
  | podsByDeployment id => exact ⟨podsByDeployment_answers hread hinv h scan id, h⟩

end Calls

/-! ## Runs -/

section Cluster

/-- The tables of an inventory are as they were. -/
def SameTables (db db' : Db) : Prop :=
  ∀ t, t = .projects ∨ t = .deployments ∨ t = .pods → db'.rows t = db.rows t

theorem SameTables.keeps (hsame : SameTables db db') (h : Keeps db s) : Keeps db' s :=
  ⟨(hsame _ (by simp)).trans h.projects, (hsame _ (by simp)).trans h.deployments,
    (hsame _ (by simp)).trans h.pods⟩

theorem Elsewhere.sameTables {t : TableName} (h : Elsewhere t db db')
    (ht : t = .nodes ∨ t = .clusterConfig) : SameTables db db' := by
  refine fun t' ht' => h t' ?_
  rcases ht with rfl | rfl <;> rcases ht' with rfl | rfl | rfl <;> decide

theorem executed_sameTables {result : Except SqlError Db}
    (h : ∀ db', result = .ok db' → SameTables db db') : SameTables db (executed D db result).1 := by
  cases result with
  | error e => exact fun _ _ => rfl
  | ok db' => exact h db' rfl

/-- A node goes alone: nothing in the three tables references it. -/
theorem delete_sameTables (hinv : StoreInv db) {p : DbRow → Bool}
    (h : db.delete true .nodes p = .ok db') : SameTables db db' := by
  obtain ⟨-, rfl, -⟩ := Database.delete_ok h
  have hproject : ∀ r, ¬ db.Doomed .nodes p .projects r := by
    intro r
    rw [hinv.doomed_iff]
    simp
  have hdeployment : ∀ r, ¬ db.Doomed .nodes p .deployments r := by
    intro r
    rw [hinv.doomed_iff]
    simp [hproject]
  have hpod : ∀ r, ¬ db.Doomed .nodes p .pods r := by
    intro r
    rw [hinv.doomed_iff]
    simp [hproject, hdeployment]
  intro t ht
  have hnone : ∀ r ∈ db.rows t, db.Doomed .nodes p t r ↔ False := by
    rcases ht with rfl | rfl | rfl
    · exact fun r _ => iff_false_intro (hproject r)
    · exact fun r _ => iff_false_intro (hdeployment r)
    · exact fun r _ => iff_false_intro (hpod r)
  rw [hinv.rows_deleted hnone]
  simp

theorem insert_elsewhere {t : TableName} {values : List (Column × Value)}
    (h : db.insert true t values = .ok db') : Elsewhere t db db' := by
  obtain ⟨tbl, -, rfl, -⟩ := Database.insert_ok h
  exact fun t' hne => Database.rows_setRows_of_ne _ _ _ hne

theorem update_elsewhere {t : TableName} {q : DbRow → Bool} {sets : List (Column × Value)} {n : Nat}
    (h : db.update true t q sets = .ok (db', n)) : Elsewhere t db db' := by
  obtain ⟨tbl, -, rfl, -⟩ := Database.update_ok h
  exact fun t' hne => Database.rows_setRows_of_ne _ _ _ hne

/-- The calls that concern the cluster leave the three tables alone. -/
theorem ClusterOp.run_sameTables (hinv : StoreInv db) (scan : Scan Column) (op : ClusterOp) :
    SameTables db (op.run D N scan db).1 := by
  cases op with
  | insertNode node =>
    show SameTables db (State.insertNode D N db node).1
    unfold State.insertNode
    split
    · next hinsert => exact (insert_elsewhere hinsert).sameTables (.inl rfl)
    · exact fun _ _ => rfl
    · exact fun _ _ => rfl
  | updateNode node =>
    show SameTables db (State.updateNode D N db node).1
    unfold State.updateNode affected
    split
    · next hupdate => exact (update_elsewhere hupdate).sameTables (.inl rfl)
    · exact fun _ _ => rfl
  | deleteNode id => exact executed_sameTables fun _ hdelete => delete_sameTables hinv hdelete
  | setClusterConfig key value =>
    exact executed_sameTables fun _ hupsert =>
      Elsewhere.sameTables (fun _ hne => Database.upsert_rows_of_ne hne hupsert) (.inr rfl)
  | getNode | getNodeByName | listNodes | getClusterConfig => exact fun _ _ => rfl

end Cluster

/-- Every run keeps the inventory of the calls that ended well. -/
theorem StoreCalls.keeps (hread : ReadsBack D N) (hstatus : D.projectStatus.Inverse)
    {made : List (StoreOp D × Outcome D)} (h : StoreCalls D N made db) :
    StoreInv db ∧ Keeps db (Inventory.after D made) := by
  induction h with
  | new => exact ⟨(Reachable.new (D := D)).inv, rfl, rfl, rfl⟩
  | @step made db db' op outcome _ hstep ih =>
    obtain ⟨hinv, hkeeps⟩ := ih
    refine ⟨hstep.tidy.inv hinv, ?_⟩
    cases hstep with
    | fault text => exact hkeeps
    | run scan =>
      have hrefines := op.refines hread hinv hkeeps scan hstatus
      cases hreply : (op.run scan db).2 with
      | error e =>
        rw [(op.run_tidy scan db).2 e hreply]
        exact hkeeps
      | ok reply => exact hrefines.keeps
  | clusterStep _ hstep ih =>
    obtain ⟨hinv, hkeeps⟩ := ih
    refine ⟨hstep.tidy.inv hinv, ?_⟩
    cases hstep with
    | run scan => exact (ClusterOp.run_sameTables hinv scan _).keeps hkeeps
    | fault => exact hkeeps

/-- After any run of the store, with statements that fail for reasons of their
own and calls on nodes and the configuration in between, the next call answers,
with values or with an error, as it may on the inventory of the calls that ended
well, whatever the scans of the rows. -/
theorem run_refines_inventory (hread : ReadsBack D N) (hstatus : D.projectStatus.Inverse)
    {made : List (StoreOp D × Outcome D)} (h : StoreCalls D N made db) (scan : Scan Column)
    (op : StoreOp D) : (Inventory.after D made).Answers op (op.run scan db).2 := by
  obtain ⟨hinv, hkeeps⟩ := h.keeps hread hstatus
  exact (op.refines hread hinv hkeeps scan hstatus).answers

/-- A call that ended well is one of those made. -/
theorem StoreCalls.ran {made : List (StoreOp D × Outcome D)} (h : StoreCalls D N made db)
    {scan : Scan Column} {op : StoreOp D} {reply : Reply D} (hreply : (op.run scan db).2 = .ok reply) :
    StoreCalls D N ((op, .ok reply) :: made) (op.run scan db).1 := hreply ▸ h.step (.run scan)

/-- Another deployment of the shop, made at the same time. -/
def shopApi : Deployment Domain.shop := ⟨⟨4⟩, .api, "running", 0, 0⟩

/-- Two deployments of one moment are listed in one order or the other; with their
project they go, and the pod of one of them too. -/
theorem run_refines_inventory_shop : ∃ listing made db, StoreCalls Domain.shop NodeText.shop made db ∧
    made.map Prod.fst = [.deleteProject "shop", .listDeployments (some "shop"), .insertPod shopPod,
      .insertDeployment shopApi, .insertDeployment shopDeployment, .insertProject ⟨"shop", "active", 0⟩] ∧
    (StoreOp.listDeployments (some "shop"), .ok (.deployments listing)) ∈ made ∧
    listing.Perm [shopDeployment, shopApi] ∧
    ∀ scan, ((StoreOp.getDeployment "shop" "web").run scan db).2 =
      .ok (.deployment (none : Option (Deployment Domain.shop))) := by
  have hstatus : Domain.shop.projectStatus.Inverse := fun _ => rfl
  have hnext : ∀ {made db} (_ : StoreCalls Domain.shop NodeText.shop made db) (scan : Scan Column)
      (op : StoreOp Domain.shop), (Inventory.after Domain.shop made).Answers op (op.run scan db).2 :=
    fun h scan op => run_refines_inventory shop_readsBack hstatus h scan op
  have hnew : StoreCalls Domain.shop NodeText.shop [] _ := .new
  have hproject := hnew.ran (Eq.trans (hnext hnew .inserted (.insertProject ⟨"shop", "active", 0⟩)) rfl)
  have hdeployment := hproject.ran (Eq.trans (hnext hproject .inserted (.insertDeployment shopDeployment)) rfl)
  have hapi := hdeployment.ran (Eq.trans (hnext hdeployment .inserted (.insertDeployment shopApi)) rfl)
  have hpod := hapi.ran (Eq.trans (hnext hapi .inserted (.insertPod shopPod)) rfl)
  obtain ⟨listing, hlisted, hlists⟩ := hnext hpod .newest (.listDeployments (some "shop"))
  have hasked := hpod.ran hlisted
  have hgone := hasked.ran (Eq.trans (hnext hasked .newest (.deleteProject "shop")) rfl)
  exact ⟨listing, _, _, hgone, rfl, List.mem_cons_of_mem _ List.mem_cons_self, hlists.perm,
    fun scan => Eq.trans (hnext hgone scan (.getDeployment "shop" "web")) rfl⟩

end Nexad.State
