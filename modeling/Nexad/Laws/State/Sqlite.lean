import Nexad.Laws.State.Migration
import Nexad.State.Sqlite

/-!
# What the store keeps

Every operation either leaves the database alone or is one statement that
does not touch a primary key (`StoreOp.run_tidy`), so the integrity of the
database and the presence of its keys hold in every state of every run. From
that invariant follow the relations between projects, deployments and pods,
and what the two cascading deletions remove (`store_relations`).
-/

namespace Nexad.State

open Relational

/-! ## One statement for each operation -/

/-- The columns of the primary key: SQLite would let them be null. -/
def primaryKey : TableName → List Column
  | .projects => [.name]
  | .deployments | .pods => [.id]
  | _ => []

/-- One statement of the store. -/
inductive Write (db : Db) : Db → Prop
  | insert {t : TableName} {values : List (Column × Value)} {db' : Db}
      (keyed : ∀ c ∈ primaryKey t, Row.ofList values c ≠ .null)
      (done : db.insert true t values = .ok db') : Write db db'
  | update {t : TableName} {p : DbRow → Bool} {sets : List (Column × Value)} {db' : Db} {n : Nat}
      (apart : ∀ c ∈ primaryKey t, c ∉ sets.map Prod.fst)
      (done : db.update true t p sets = .ok (db', n)) : Write db db'
  | delete {t : TableName} {p : DbRow → Bool} {db' : Db}
      (done : db.delete true t p = .ok db') : Write db db'

/-- Nothing happened or one statement did, and nothing did if there was an error. -/
def Tidy {α : Type} (db : Db) (result : Db × Except Failure α) : Prop :=
  (result.1 = db ∨ Write db result.1) ∧ ∀ e, result.2 = .error e → result.1 = db

theorem Tidy.same {α : Type} (db : Db) (answer : Except Failure α) : Tidy db (db, answer) :=
  ⟨.inl rfl, fun _ _ => rfl⟩

variable {D : Domain}

theorem executed_tidy {db : Db} {result : Except SqlError Db}
    (h : ∀ db', result = .ok db' → Write db db') : Tidy db (executed D db result) := by
  cases result with
  | error e => exact .same db _
  | ok db' => exact ⟨.inr (h db' rfl), fun e he => by cases he⟩

theorem affected_tidy {db : Db} {missing : NexaError} {t : TableName} {p : DbRow → Bool}
    {sets : List (Column × Value)} (apart : ∀ c ∈ primaryKey t, c ∉ sets.map Prod.fst) :
    Tidy db (affected D db missing (db.update true t p sets)) := by
  cases hupdate : db.update true t p sets with
  | error e => exact .same db _
  | ok done =>
    obtain ⟨db', n⟩ := done
    refine ⟨.inr (.update apart hupdate), fun e he => ?_⟩
    by_cases hn : n = 0
    · subst hn
      exact Database.update_none hupdate
    · simp [affected, hn] at he

/-- It does not matter what the answer is turned into. -/
theorem Tidy.map {α β : Type} {db : Db} {result : Db × Except Failure α} (h : Tidy db result)
    (f : α → β) : Tidy db (result.1, result.2.map f) := by
  refine ⟨h.1, fun e he => ?_⟩
  cases hanswer : result.2 with
  | error e' => exact h.2 e' hanswer
  | ok _ =>
    rw [hanswer] at he
    cases he

theorem wrote_tidy {db : Db} {result : Db × Except Failure Unit} (h : Tidy db result) :
    Tidy db (wrote result : Db × Outcome D) := h.map _

theorem insertProject_tidy (db : Db) (project : Project D) :
    Tidy db (insertProject db project) := by
  unfold insertProject
  split
  · next db' hinsert =>
    exact ⟨.inr (.insert (t := .projects) (by simp [primaryKey, Row.ofList, Row.assign]) hinsert),
      fun e he => by cases he⟩
  · exact .same db _
  · exact .same db _

theorem insertDeployment_tidy (db : Db) (deployment : Deployment D) :
    Tidy db (insertDeployment db deployment) := by
  unfold insertDeployment
  split
  · exact .same db _
  · exact executed_tidy fun db' hinsert =>
      .insert (t := .deployments) (by simp [primaryKey, Row.ofList, Row.assign]) hinsert

theorem updateDeployment_tidy (db : Db) (deployment : Deployment D) :
    Tidy db (updateDeployment db deployment) := by
  unfold updateDeployment
  split
  · exact .same db _
  · exact affected_tidy (by simp [primaryKey])

theorem insertPod_tidy (db : Db) (pod : Pod D) : Tidy db (insertPod db pod) :=
  executed_tidy fun db' hinsert =>
    .insert (t := .pods) (by simp [primaryKey, Row.ofList, Row.assign]) hinsert

/-- Every operation is tidy. -/
theorem StoreOp.run_tidy (scan : Scan Column) (db : Db) (op : StoreOp D) : Tidy db (op.run scan db) := by
  cases op with
  | insertProject project => exact wrote_tidy (insertProject_tidy db project)
  | updateProjectStatus name status => exact wrote_tidy (affected_tidy (by simp [primaryKey]))
  | deleteProject name => exact wrote_tidy (executed_tidy fun _ hdelete => .delete hdelete)
  | insertDeployment deployment => exact wrote_tidy (insertDeployment_tidy db deployment)
  | updateDeployment deployment => exact wrote_tidy (updateDeployment_tidy db deployment)
  | deleteDeployment id => exact wrote_tidy (executed_tidy fun _ hdelete => .delete hdelete)
  | insertPod pod => exact wrote_tidy (insertPod_tidy db pod)
  | updatePod pod => exact wrote_tidy (affected_tidy (by simp [primaryKey]))
  | deletePod id => exact wrote_tidy (executed_tidy fun _ hdelete => .delete hdelete)
  | getProject name => exact .same db _
  | listProjects => exact .same db _
  | getDeployment project name => exact .same db _
  | listDeployments project => exact .same db _
  | listPods project => exact .same db _
  | podsByDeployment deploymentId => exact .same db _

/-! ## The invariant of every run -/

/-- The final schema, its constraints, and primary keys that are not null. -/
structure StoreInv (db : Db) : Prop where
  schemas : ∀ t, (db t).map Table.schema = schemaAt .cascade t
  integrity : db.Integrity
  keyed : ∀ t, ∀ r ∈ db.rows t, ∀ c ∈ primaryKey t, r c ≠ .null

theorem Write.inv {db db' : Db} (h : Write db db') (hdb : StoreInv db) : StoreInv db' := by
  have hkeyed : db.Every fun t r => ∀ c ∈ primaryKey t, r c ≠ .null := hdb.keyed
  cases h with
  | insert keyed done =>
    obtain ⟨tbl, ht, hdb', -⟩ := Database.insert_ok done
    refine ⟨fun t' => ?_, Database.insert_integrity hdb.integrity done, hkeyed.insert keyed done⟩
    rw [hdb', Database.schema_setRows ht, hdb.schemas]
  | update apart done =>
    obtain ⟨tbl, ht, hdb', -⟩ := Database.update_ok done
    refine ⟨fun t' => ?_, Database.update_integrity hdb.integrity done,
      hkeyed.update (fun r _ _ hold c hc => ?_) done⟩
    · rw [hdb', Database.schema_setRows ht, hdb.schemas]
    · rw [Row.assign_of_notMem _ _ (apart c hc)]
      exact hold c hc
  | delete done =>
    obtain ⟨-, hdb', -⟩ := Database.delete_ok done
    refine ⟨fun t' => ?_, Database.delete_integrity hdb.integrity done, hkeyed.delete done⟩
    rw [hdb', Database.schema_without, hdb.schemas]

theorem Tidy.inv {α : Type} {db db' : Db} {answer : Except Failure α}
    (h : Tidy db (db', answer)) (hdb : StoreInv db) : StoreInv db' := by
  have hchange : db' = db ∨ Write db db' := h.1
  rcases hchange with rfl | hwrite
  · exact hdb
  · exact hwrite.inv hdb

theorem Step.tidy {db db' : Db} {op : StoreOp D} {outcome : Outcome D}
    (h : Step db op outcome db') : Tidy db (db', outcome) := by
  cases h with
  | run scan => exact op.run_tidy scan db
  | fault text => exact .same db _

theorem Reachable.inv {db : Db} (h : Reachable D db) : StoreInv db := by
  induction h with
  | new =>
    refine ⟨fun t => by cases t <;> rfl, integrity_empty .cascade, fun t r hr => ?_⟩
    rw [rows_ofRows, ite_self] at hr
    cases hr
  | step _ hstep ih => exact hstep.tidy.inv ih

/-! ## Relations between the tables -/

namespace StoreInv

variable {db : Db} {t : TableName} {schema : Schema TableName Column}

theorem table (h : StoreInv db) (hs : schemaAt .cascade t = some schema) :
    ∃ tbl, db t = some tbl ∧ tbl.schema = schema :=
  Option.map_eq_some_iff.mp ((h.schemas t).trans hs)

theorem foreignKeys (h : StoreInv db) (t : TableName) :
    db.foreignKeys t = (schemaAt .cascade t).elim [] fun schema => schema.foreignKeys := by
  rw [← h.schemas t]
  unfold Database.foreignKeys
  cases db t <;> rfl

theorem filled (h : StoreInv db) (hs : schemaAt .cascade t = some schema) {c : Column}
    (hc : c ∈ schema.notNull) {r : DbRow} (hr : r ∈ db.rows t) : r c ≠ .null := by
  obtain ⟨tbl, ht, rfl⟩ := h.table hs
  exact (h.integrity.sound t tbl ht).filled r (Database.rows_of_some ht ▸ hr) c hc

/-- Rows differ in every unique key whose columns are not null. -/
theorem distinct (h : StoreInv db) (hs : schemaAt .cascade t = some schema) (key : List Column)
    (hkey : key ∈ schema.unique) (hset : ∀ r ∈ db.rows t, ∀ c ∈ key, r c ≠ .null) :
    (db.rows t).Pairwise fun r r' => ¬ ∀ c ∈ key, r c = r' c := by
  obtain ⟨tbl, ht, rfl⟩ := h.table hs
  rw [Database.rows_of_some ht] at hset ⊢
  refine (h.integrity.sound t tbl ht).distinct.imp_of_mem fun {r r'} hr _ hapart hsame => ?_
  exact hapart ⟨key, hkey, fun c hc => ⟨hset r hr c hc, hsame c hc⟩⟩

theorem parent (h : StoreInv db) (hs : schemaAt .cascade t = some schema)
    (fk : ForeignKey TableName Column) (hfk : fk ∈ schema.foreignKeys)
    (hc : fk.column ∈ schema.notNull) {r : DbRow} (hr : r ∈ db.rows t) :
    ∃ r' ∈ db.rows fk.parent, r fk.column = r' fk.parentColumn := by
  have hkey : fk ∈ db.foreignKeys t := by
    rw [h.foreignKeys, hs]
    exact hfk
  rcases h.integrity.references t fk hkey r hr with hnull | hparent
  · exact absurd hnull (h.filled hs hc hr)
  · exact hparent

end StoreInv

/-- Names and ids are unique, and what is referenced is there. -/
structure Relations (db : Db) : Prop where
  project_names : (db.rows .projects).Pairwise fun r r' => r .name ≠ r' .name
  deployment_ids : (db.rows .deployments).Pairwise fun r r' => r .id ≠ r' .id
  deployment_names : (db.rows .deployments).Pairwise fun r r' =>
    ¬ (r .project = r' .project ∧ r .name = r' .name)
  pod_ids : (db.rows .pods).Pairwise fun r r' => r .id ≠ r' .id
  deployment_project : ∀ d ∈ db.rows .deployments, ∃ p ∈ db.rows .projects, d .project = p .name
  pod_deployment : ∀ p ∈ db.rows .pods, ∃ d ∈ db.rows .deployments, p .deploymentId = d .id

theorem StoreInv.relations {db : Db} (h : StoreInv db) : Relations db where
  project_names := by
    have hdistinct := h.distinct (t := .projects) rfl [.name] (by simp [projectsSchema])
      (h.keyed .projects)
    simpa using hdistinct
  deployment_ids := by
    have hdistinct := h.distinct (t := .deployments) rfl [.id]
      (by simp [deploymentsSchema]) (h.keyed .deployments)
    simpa using hdistinct
  deployment_names := by
    have hdistinct := h.distinct (t := .deployments) rfl [.project, .name]
      (by simp [deploymentsSchema]) ?_
    · simpa using hdistinct
    · intro r hr c hc
      have hc' : c ∈ (deploymentsSchema .cascade).notNull := by
        simp only [List.mem_cons, List.not_mem_nil, or_false] at hc
        rcases hc with rfl | rfl
        · simp [deploymentsSchema]
        · simp [deploymentsSchema]
      exact h.filled rfl hc' hr
  pod_ids := by
    have hdistinct := h.distinct (t := .pods) rfl [.id] (by simp [podsSchema])
      (h.keyed .pods)
    simpa using hdistinct
  deployment_project := fun d hd =>
    h.parent rfl ⟨.project, .projects, .name, .cascade⟩ (by simp [deploymentsSchema])
      (by simp [deploymentsSchema]) hd
  pod_deployment := fun p hp =>
    h.parent rfl ⟨.deploymentId, .deployments, .id, .cascade⟩ (by simp [podsSchema])
      (by simp [podsSchema]) hp

/-! ## What the cascades remove -/

/-- The two keys that cascade. -/
theorem StoreInv.cascades {db : Db} (h : StoreInv db) {t : TableName}
    {fk : ForeignKey TableName Column} (hkey : fk ∈ db.foreignKeys t)
    (hcascade : fk.onDelete = .cascade) :
    (t = .deployments ∧ fk = ⟨.project, .projects, .name, .cascade⟩) ∨
      (t = .pods ∧ fk = ⟨.deploymentId, .deployments, .id, .cascade⟩) := by
  rw [h.foreignKeys] at hkey
  cases t with
  | deployments => exact .inl ⟨rfl, List.mem_singleton.mp hkey⟩
  | pods => exact .inr ⟨rfl, List.mem_singleton.mp hkey⟩
  | subnetAllocations =>
    rw [List.mem_singleton.mp hkey] at hcascade
    cases hcascade
  | _ => cases hkey

theorem StoreInv.ranked {db : Db} (h : StoreInv db) : db.Ranked cascadeRank := by
  intro t fk hkey hcascade
  rcases h.cascades hkey hcascade with ⟨rfl, rfl⟩ | ⟨rfl, rfl⟩
  · simp [cascadeRank]
  · simp [cascadeRank]

theorem cascadeRank_le (t : TableName) : cascadeRank t ≤ Fintype.card TableName := by
  cases t <;> decide

section Cascade

variable {db : Db} {target t : TableName} {p : DbRow → Bool} {r : DbRow}

/-- One round back from a row that a deletion reaches. -/
theorem StoreInv.doomed_iff (h : StoreInv db) : db.Doomed target p t r ↔
    (t = target ∧ p r = true) ∨
    (t = .deployments ∧ ∃ r' ∈ db.rows .projects, db.Doomed target p .projects r' ∧
      r .project ≠ .null ∧ r .project = r' .name) ∨
    (t = .pods ∧ ∃ d ∈ db.rows .deployments, db.Doomed target p .deployments d ∧
      r .deploymentId ≠ .null ∧ r .deploymentId = d .id) := by
  constructor
  · intro hdoomed
    cases hdoomed with
    | target holds => exact .inl ⟨rfl, holds⟩
    | cascade key cascades parent reached refers =>
      rcases h.cascades key cascades with ⟨rfl, rfl⟩ | ⟨rfl, rfl⟩
      · exact .inr (.inl ⟨rfl, _, parent, reached, refers⟩)
      · exact .inr (.inr ⟨rfl, _, parent, reached, refers⟩)
  · rintro (⟨rfl, hp⟩ | ⟨rfl, r', hr', hdoomed, hrefers⟩ | ⟨rfl, d, hd, hdoomed, hrefers⟩)
    · exact .target hp
    · have hkey : ⟨.project, .projects, .name, .cascade⟩ ∈ db.foreignKeys .deployments := by
        rw [h.foreignKeys]
        exact List.mem_singleton_self _
      exact .cascade hkey rfl hr' hdoomed hrefers
    · have hkey : ⟨.deploymentId, .deployments, .id, .cascade⟩ ∈ db.foreignKeys .pods := by
        rw [h.foreignKeys]
        exact List.mem_singleton_self _
      exact .cascade hkey rfl hd hdoomed hrefers

/-- A deletion that does not aim at nodes succeeds: only `nodes` is referenced
by a key that does not cascade, that of the subnet allocations, and no cascade
reaches it. -/
theorem StoreInv.delete_eq (h : StoreInv db) (htable : (schemaAt .cascade target).isSome)
    (hnodes : target ≠ .nodes ∨ db.rows .subnetAllocations = []) (p : DbRow → Bool) :
    db.delete true target p = .ok (db.without (db.gone true target p)) := by
  have hsome : (db target).isSome := by
    rw [← Option.isSome_map, h.schemas]
    exact htable
  refine Database.delete_eq_ok h.ranked cascadeRank_le hsome fun t fk hkey => ?_
  have hparent : fk.onDelete = .cascade ∨ (t = .subnetAllocations ∧ fk.parent = .nodes) := by
    rw [h.foreignKeys] at hkey
    cases t with
    | deployments | pods =>
      rw [List.mem_singleton.mp hkey]
      exact .inl rfl
    | subnetAllocations =>
      rw [List.mem_singleton.mp hkey]
      exact .inr ⟨rfl, rfl⟩
    | _ => cases hkey
  refine hparent.imp_right ?_
  rintro ⟨rfl, hnode⟩ c hc r -
  rcases hnodes with hnodes | hnone
  · rw [hnode, h.doomed_iff]
    simp [hnodes.symm]
  · rw [hnone] at hc
    cases hc

/-- The rows of a table after a deletion. -/
theorem StoreInv.rows_deleted (h : StoreInv db) {q : DbRow → Prop} [DecidablePred q]
    (hq : ∀ r ∈ db.rows t, db.Doomed target p t r ↔ q r) :
    (db.without (db.gone true target p)).rows t = (db.rows t).filter fun r => ¬ q r := by
  rw [Database.rows_without]
  refine List.filter_congr fun r hr => ?_
  have hgone : db.gone true target p t r = true ↔ q r :=
    (Database.gone_iff h.ranked cascadeRank_le).trans (hq r hr)
  by_cases hqr : q r
  · simp [hqr, hgone.mpr hqr]
  · simp [hqr, Bool.eq_false_iff.mpr (hgone.not.mpr hqr)]

end Cascade

/-- The project is gone, with its deployments and their pods, and nothing else. -/
structure ProjectRemoved (db db' : Db) (name : String) : Prop where
  projects : db'.rows .projects = (db.rows .projects).filter fun r => ¬ r .name = .text name
  deployments : db'.rows .deployments =
    (db.rows .deployments).filter fun r => ¬ r .project = .text name
  pods : db'.rows .pods = (db.rows .pods).filter fun r =>
    ¬ ∃ d ∈ db.rows .deployments, d .project = .text name ∧ r .deploymentId = d .id
  others : ∀ t, t ≠ .projects → t ≠ .deployments → t ≠ .pods → db'.rows t = db.rows t

/-- The deployment is gone, with its pods, and nothing else. -/
structure DeploymentRemoved (db db' : Db) (id : String) : Prop where
  deployments : db'.rows .deployments = (db.rows .deployments).filter fun r => ¬ r .id = .text id
  pods : db'.rows .pods = (db.rows .pods).filter fun r => ¬ r .deploymentId = .text id
  others : ∀ t, t ≠ .deployments → t ≠ .pods → db'.rows t = db.rows t

section Removed

variable {db : Db}

private theorem rows_untouched (h : StoreInv db) {target t : TableName} {p : DbRow → Bool}
    (htarget : t ≠ target) (hdeployments : t ≠ .deployments) (hpods : t ≠ .pods) :
    (db.without (db.gone true target p)).rows t = db.rows t := by
  have hrows : (db.without (db.gone true target p)).rows t = (db.rows t).filter fun _ => ¬ False :=
    h.rows_deleted fun r _ => by
      rw [h.doomed_iff]
      simp [htarget, hdeployments, hpods]
  simpa using hrows

theorem deleteProject_removes (h : StoreInv db) (scan : Scan Column) (name : String) :
    ∃ db', (StoreOp.deleteProject name).run scan db = (db', (.ok .unit : Outcome D)) ∧
      ProjectRemoved db db' name := by
  have hproject : ∀ r, db.Doomed .projects (whereText .name name) .projects r ↔
      r .name = .text name := by
    intro r
    rw [h.doomed_iff]
    simp [whereText]
  have hdeployment : ∀ r ∈ db.rows .deployments,
      db.Doomed .projects (whereText .name name) .deployments r ↔ r .project = .text name := by
    intro r hr
    obtain ⟨r', hr', hparent⟩ := h.relations.deployment_project r hr
    rw [h.doomed_iff]
    simp only [hproject]
    constructor
    · rintro (⟨ht, -⟩ | ⟨-, r', -, hname, -, heq⟩ | ⟨ht, -⟩)
      · cases ht
      · rw [heq, hname]
      · cases ht
    · intro heq
      exact .inr (.inl ⟨trivial, r', hr', hparent ▸ heq, heq ▸ nofun, hparent⟩)
  have hpod : ∀ r ∈ db.rows .pods, db.Doomed .projects (whereText .name name) .pods r ↔
      ∃ d ∈ db.rows .deployments, d .project = .text name ∧ r .deploymentId = d .id := by
    intro r hr
    have hnull : r .deploymentId ≠ .null :=
      h.filled (t := .pods) rfl (by simp [podsSchema]) hr
    rw [h.doomed_iff]
    constructor
    · rintro (⟨ht, -⟩ | ⟨ht, -⟩ | ⟨-, d, hd, hdoomed, -, heq⟩)
      · cases ht
      · cases ht
      · exact ⟨d, hd, (hdeployment d hd).mp hdoomed, heq⟩
    · rintro ⟨d, hd, hname, heq⟩
      exact .inr (.inr ⟨rfl, d, hd, (hdeployment d hd).mpr hname, hnull, heq⟩)
  refine ⟨_, ?_, h.rows_deleted fun r _ => hproject r, h.rows_deleted hdeployment,
    h.rows_deleted hpod, fun t h₁ h₂ h₃ => rows_untouched h h₁ h₂ h₃⟩
  show wrote (deleteProject D db name) = _
  rw [deleteProject, h.delete_eq rfl (.inl (by decide))]
  rfl

theorem deleteDeployment_removes (h : StoreInv db) (scan : Scan Column) (id : Uuid) :
    ∃ db', (StoreOp.deleteDeployment id).run scan db = (db', (.ok .unit : Outcome D)) ∧
      DeploymentRemoved db db' (D.uuid.print id) := by
  have hproject : ∀ r, ¬ db.Doomed .deployments (whereText .id (D.uuid.print id)) .projects r := by
    intro r
    rw [h.doomed_iff]
    simp
  have hdeployment : ∀ r, db.Doomed .deployments (whereText .id (D.uuid.print id)) .deployments r ↔
      r .id = .text (D.uuid.print id) := by
    intro r
    rw [h.doomed_iff]
    simp [whereText, hproject]
  have hpod : ∀ r ∈ db.rows .pods,
      db.Doomed .deployments (whereText .id (D.uuid.print id)) .pods r ↔
        r .deploymentId = .text (D.uuid.print id) := by
    intro r hr
    obtain ⟨d, hd, hparent⟩ := h.relations.pod_deployment r hr
    rw [h.doomed_iff]
    simp only [hdeployment]
    constructor
    · rintro (⟨ht, -⟩ | ⟨ht, -⟩ | ⟨-, d, -, hid, -, heq⟩)
      · cases ht
      · cases ht
      · rw [heq, hid]
    · intro heq
      exact .inr (.inr ⟨trivial, d, hd, hparent ▸ heq, heq ▸ nofun, hparent⟩)
  refine ⟨_, ?_, h.rows_deleted fun r _ => hdeployment r, h.rows_deleted hpod,
    fun t h₁ h₂ => rows_untouched h h₁ h₁ h₂⟩
  show wrote (deleteDeployment D db id) = _
  rw [deleteDeployment, h.delete_eq rfl (.inl (by decide))]
  rfl

end Removed

/-- In every state of every run: the tables are related as they should be,
the two deletions remove their target with what depends on it and nothing
else, and a call that ends in an error has changed nothing. -/
theorem store_relations {db : Db} (h : Reachable D db) : Relations db ∧
    (∀ scan name, ∃ db', (StoreOp.deleteProject name).run scan db = (db', (.ok .unit : Outcome D)) ∧
      ProjectRemoved db db' name) ∧
    (∀ scan id, ∃ db', (StoreOp.deleteDeployment id).run scan db = (db', (.ok .unit : Outcome D)) ∧
      DeploymentRemoved db db' (D.uuid.print id)) ∧
    ∀ (op : StoreOp D) (e : Failure) (db' : Db), Step db op (.error e) db' → db' = db :=
  ⟨h.inv.relations, deleteProject_removes h.inv, deleteDeployment_removes h.inv,
    fun _ e _ hstep => hstep.tidy.2 e rfl⟩

section Shop

/-- Insert a project, a deployment of it, and a pod of that. -/
def stocking : List (StoreOp Domain.plain) :=
  [.insertProject ⟨"shop", "active", 0⟩, .insertDeployment ⟨⟨1⟩, ("shop", "web"), "running", 0, 0⟩,
    .insertPod ⟨⟨2⟩, ⟨1⟩, "shop", "web", 0, none, some "c1", none, "running", "web:1", 0, 0⟩]

/-- The database after these calls. -/
def stocked : Db := stocking.foldl (fun db op => (op.run .inserted db).1) (ofRows .cascade fun _ => [])

private theorem stocked_reachable : Reachable Domain.plain stocked :=
  ((Reachable.new.step (.run _)).step (.run _)).step (.run _)

theorem store_relations_stocked : (stocked.rows .pods).length = 1 ∧ Relations stocked ∧
    ∃ db', (StoreOp.deleteProject "shop").run .newest stocked = (db', (.ok .unit : Outcome Domain.plain)) ∧
      ProjectRemoved stocked db' "shop" := by
  obtain ⟨hrelations, hproject, -⟩ := store_relations stocked_reachable
  exact ⟨by decide, hrelations, hproject .newest "shop"⟩

end Shop

end Nexad.State
