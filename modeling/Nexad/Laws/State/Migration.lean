import Nexad.Base.BigEndian
import Nexad.Laws.Base.Migration
import Nexad.State.Schema

/-!
# What the fifth migration does to the rows

The fifth file switches foreign keys off, copies `deployments` into a table
with the new clause, drops the old table, renames the copy, and switches
foreign keys on. Its text begins with another comment than the one that would
keep the migrator from opening a transaction, so it runs inside one, where the
pragma does nothing: dropping `deployments` deletes its rows first, and every
pod cascades. The upgrade keeps all rows exactly when there are no pods
(`keepsRows_iff`).
-/

namespace Nexad.State

open Relational

/-! ## Databases by their rows -/

@[simp] theorem rows_ofRows (onDelete : OnDelete) (rows : TableName → List DbRow) (t : TableName) :
    (ofRows onDelete rows).rows t = if t = .deploymentsNew then [] else rows t := by
  cases t <;> rfl

/-- A database with these schemas is made of its rows. -/
theorem eq_ofRows {onDelete : OnDelete} {db : Db}
    (h : ∀ t, (db t).map Table.schema = schemaAt onDelete t) : db = ofRows onDelete db.rows := by
  funext t
  have ht := h t
  unfold ofRows Database.rows
  rw [← ht]
  cases db t <;> rfl

section Connect

variable {sha384 : MigrationFile → List UInt8}

/-- Nothing is wrong with files that have all succeeded and are known. -/
theorem checkApplied_iff {files : List MigrationFile} {applied : List AppliedMigration} :
    checkApplied files applied = .ok () ↔
      ∀ a ∈ applied, a.success = true ∧ a.version ∈ files.map MigrationFile.version := by
  have hnone : ∀ {p : AppliedMigration → Bool}, leastVersion (applied.filter p) = none ↔
      ∀ a ∈ applied, ¬ p a = true := by
    intro p
    rw [leastVersion, List.min?_eq_none_iff, List.map_eq_nil_iff, List.filter_eq_nil_iff]
  rw [forall₂_and]
  unfold checkApplied
  constructor
  · intro h
    split at h
    · cases h
    next hsuccess =>
      split at h
      · cases h
      next hknown =>
        rw [hnone] at hsuccess hknown
        exact ⟨fun a ha => by simpa using hsuccess a ha, fun a ha => by simpa using hknown a ha⟩
  · rintro ⟨hsuccess, hknown⟩
    have hsucceeded : leastVersion (applied.filter fun a => !a.success) = none :=
      hnone.mpr fun a ha => by simp [hsuccess a ha]
    have hall : leastVersion (applied.filter fun a => a.version ∉ files.map MigrationFile.version) = none :=
      hnone.mpr fun a ha => by simpa using hknown a ha
    rw [hsucceeded, hall]

/-- Where nothing is wrong, connecting runs the files. -/
theorem connect_of_checked {file : StoreFile} (h : checkApplied migrations file.applied = .ok ()) :
    connect sha384 file = Prod.map id (Except.mapError ConnectError.migrate)
      (runMigrations sha384 ⟨true, false, file.db⟩ file.applied migrations) := by
  unfold connect
  simp only [Connection.exec, h]
  rfl

/-- Connecting to a new database makes all tables. -/
theorem connect_new : connect sha384 ⟨fun _ => none, []⟩ =
    (⟨ofRows .cascade fun _ => [], migrations.map (MigrationFile.noted sha384)⟩, .ok ()) := by
  refine Prod.ext ((StoreFile.mk.injEq ..).mpr ⟨?_, rfl⟩) rfl
  funext t
  cases t <;> rfl

end Connect

/-- The empty tables break no constraint. -/
theorem integrity_empty (onDelete : OnDelete) : (ofRows onDelete fun _ => []).Integrity := by
  refine ⟨fun t tbl ht => ?_, fun t fk _ r hr => ?_⟩
  · obtain ⟨schema, -, rfl⟩ := Option.map_eq_some_iff.mp ht
    exact ⟨by simp, by simp, List.Pairwise.nil⟩
  · rw [rows_ofRows, ite_self] at hr
    cases hr

/-! ## The fifth file -/

/-- Pods cascade from deployments, and the copied deployments from projects. -/
def cascadeRank : TableName → Nat
  | .deployments | .deploymentsNew => 1
  | .pods => 2
  | _ => 0

/-- The tables while the copy exists beside the original. -/
private def withCopy (rows : TableName → List DbRow) (copied : List DbRow) : Db :=
  Function.update (ofRows .noAction rows) .deploymentsNew
    (some ⟨deploymentsSchema .cascade, copied⟩)

/-- The foreign keys while the copy exists. -/
private def copyKeys (t : TableName) : List (ForeignKey TableName Column) :=
  if t = .deploymentsNew then (deploymentsSchema .cascade).foreignKeys
  else (schemaAt .noAction t).elim [] fun schema => schema.foreignKeys

private theorem foreignKeys_withCopy (rows : TableName → List DbRow) (copied : List DbRow)
    (t : TableName) : (withCopy rows copied).foreignKeys t = copyKeys t := by
  cases t <;> rfl

private theorem withCopy_ranked (rows : TableName → List DbRow) (copied : List DbRow) :
    (withCopy rows copied).Ranked cascadeRank := by
  have h : ∀ t, ∀ fk ∈ copyKeys t, fk.onDelete = .cascade → cascadeRank fk.parent < cascadeRank t := by
    decide
  intro t fk hfk
  exact h t fk (foreignKeys_withCopy rows copied t ▸ hfk)

/-- The copy takes every deployment: the constraints are those they met before. -/
private theorem copy_deployments {rows : TableName → List DbRow}
    (h : (ofRows .noAction rows).Integrity) :
    (withCopy rows []).insertAll true .deploymentsNew
        [.id, .project, .name, .specJson, .status, .createdAt, .updatedAt] (rows .deployments) =
      .ok (withCopy rows (rows .deployments)) := by
  have hold := h.sound .deployments ⟨deploymentsSchema .noAction, rows .deployments⟩ rfl
  have hnew : withCopy rows [] .deploymentsNew = some ⟨deploymentsSchema .cascade, []⟩ :=
    Function.update_self ..
  have hparents : ∀ fk ∈ (deploymentsSchema .cascade).foreignKeys,
      fk.parent ≠ .deploymentsNew ∧ ∀ r ∈ rows .deployments, (withCopy rows []).HasParent fk r := by
    intro fk hfk
    rw [List.mem_singleton.mp hfk]
    refine ⟨by decide, fun r hr => ?_⟩
    exact h.references .deployments ⟨.project, .projects, .name, .noAction⟩
      List.mem_cons_self r hr
  have hcopy := @Database.insertAll_eq_ok _ _ _ _ true _ _ _ _ hnew hold.within hold.filled
    hold.distinct hparents
  rw [Database.setRows, withCopy, Function.update_idem] at hcopy
  exact hcopy

/-- Deleting all deployments reaches deployments and pods only. -/
private theorem doomed_table {rows : TableName → List DbRow} {copied : List DbRow}
    {p : DbRow → Bool} {t : TableName} {r : DbRow}
    (h : (withCopy rows copied).Doomed .deployments p t r) : t = .deployments ∨ t = .pods := by
  have hkeys : ∀ t, ∀ fk ∈ copyKeys t, fk.onDelete = .cascade →
      fk.parent = .deployments ∨ fk.parent = .pods → t = .pods := by
    decide
  induction h with
  | target => exact .inl rfl
  | cascade key cascades _ _ _ ih =>
    rw [foreignKeys_withCopy] at key
    exact .inr (hkeys _ _ key cascades ih)

/-- It reaches every pod: each one references a deployment. -/
private theorem doomed_pod {rows : TableName → List DbRow} {copied : List DbRow}
    (h : (ofRows .noAction rows).Integrity) {r : DbRow} (hr : r ∈ rows .pods) :
    (withCopy rows copied).Doomed .deployments (fun _ => true) .pods r := by
  have hfilled := (h.sound .pods _ rfl).filled r hr
  have hkey : (⟨.deploymentId, .deployments, .id, .cascade⟩ : ForeignKey TableName Column) ∈
      copyKeys .pods := by decide
  have hnull : r .deploymentId ≠ .null := hfilled .deploymentId (show _ ∈ podsSchema.notNull by decide)
  rcases h.references .pods _ hkey r hr with hn | hparent
  · exact absurd hn hnull
  · obtain ⟨d, hd, heq⟩ := hparent
    exact .cascade (foreignKeys_withCopy rows copied .pods ▸ hkey) rfl hd (.target rfl)
      ⟨hnull, heq⟩

/-- Dropping the old table empties `pods` and leaves the other tables. -/
private theorem drop_deployments {rows : TableName → List DbRow} {copied : List DbRow}
    (h : (ofRows .noAction rows).Integrity) :
    (withCopy rows copied).dropTable true .deployments =
      .ok (Function.update (withCopy (Function.update rows .pods []) copied) .deployments none) := by
  have hcard : ∀ t, cascadeRank t ≤ Fintype.card TableName := by decide
  have hrank := withCopy_ranked rows copied
  have hkeys : ∀ t, ∀ fk ∈ copyKeys t, fk.onDelete = .cascade ∨
      fk.parent ≠ .deployments ∧ fk.parent ≠ .pods := by
    decide
  have hdelete := Database.delete_eq_ok (p := fun _ => true) hrank hcard (t := .deployments) rfl
    fun t fk hfk => (hkeys t fk (foreignKeys_withCopy rows copied t ▸ hfk)).imp_right
      fun hne _ _ r _ hdoomed => (doomed_table hdoomed).elim hne.1 hne.2
  have hstays : ∀ t, t ≠ .deployments → t ≠ .pods → ∀ r,
      Database.gone (withCopy rows copied) true .deployments (fun _ => true) t r = false := by
    intro t hd hp r
    rw [← Bool.not_eq_true, Database.gone_iff hrank hcard]
    exact fun hdoomed => (doomed_table hdoomed).elim hd hp
  have hpods : ∀ r ∈ rows .pods,
      Database.gone (withCopy rows copied) true .deployments (fun _ => true) .pods r = true :=
    fun r hr => (Database.gone_iff hrank hcard).mpr (doomed_pod h hr)
  have hsome : withCopy rows copied .deployments =
      some ⟨deploymentsSchema .noAction, rows .deployments⟩ := rfl
  unfold Database.dropTable
  simp only [hsome, hdelete, if_true]
  congr 1
  funext t
  by_cases hd : t = .deployments
  · rw [hd, Function.update_self, Function.update_self]
  · rw [Function.update_of_ne hd, Function.update_of_ne hd]
    by_cases hp : t = .pods
    · have hsome : withCopy rows copied .pods = some
          ⟨{ podsSchema with columns := podsSchema.columns ++ [.containerIp, .nodeId] },
            rows .pods⟩ := rfl
      rw [hp, Database.without_of_gone hsome hpods]
      rfl
    · rw [Database.without_of_stays fun r _ => hstays t hd hp r]
      cases t <;> first | rfl | exact absurd rfl hp

/-- Renaming the copy makes the schema that all five files make. -/
private theorem rename_copy {rows : TableName → List DbRow} {copied : List DbRow}
    (h : rows .deployments = copied) :
    Database.renameTable (Function.update (withCopy rows copied) .deployments none)
      .deploymentsNew .deployments = .ok (ofRows .cascade rows) := by
  subst h
  have hnew : Function.update (withCopy rows (rows .deployments)) .deployments none
      .deploymentsNew = some ⟨deploymentsSchema .cascade, rows .deployments⟩ := rfl
  have hold : Function.update (withCopy rows (rows .deployments)) .deployments none
      .deployments = none := rfl
  unfold Database.renameTable
  simp only [hnew, hold]
  congr 1
  funext t
  cases t <;> rfl

/-- The fifth file on a database of the first four: the constraint is there,
and the pods are gone. -/
theorem run_cascadeDeleteProject {rows : TableName → List DbRow}
    (h : (ofRows .noAction rows).Integrity) :
    cascadeDeleteProject.run ⟨true, false, ofRows .noAction rows⟩ =
      .ok ⟨true, false, ofRows .cascade (Function.update rows .pods [])⟩ := by
  have htx : cascadeDeleteProject.noTx = false := by decide
  have hpragma : ∀ (on : Bool) (db : Db), Connection.exec ⟨true, true, db⟩ (.pragmaForeignKeys on) =
      .ok ⟨true, true, db⟩ := fun _ _ => rfl
  have hcreate : Connection.exec ⟨true, true, ofRows .noAction rows⟩
      (.createTable false .deploymentsNew (deploymentsSchema .cascade)) =
        .ok ⟨true, true, withCopy rows []⟩ := rfl
  have hcopy : Connection.exec ⟨true, true, withCopy rows []⟩ (.insertSelect .deploymentsNew
      [.id, .project, .name, .specJson, .status, .createdAt, .updatedAt] .deployments) =
        .ok ⟨true, true, withCopy rows (rows .deployments)⟩ := by
    show Connection.withDb ⟨true, true, withCopy rows []⟩ ((withCopy rows []).insertAll true
      .deploymentsNew _ (rows .deployments)) = _
    rw [copy_deployments h]
    rfl
  have hdrop : Connection.exec ⟨true, true, withCopy rows (rows .deployments)⟩
      (.dropTable .deployments) = .ok ⟨true, true, Function.update
        (withCopy (Function.update rows .pods []) (rows .deployments)) .deployments none⟩ := by
    show Connection.withDb _ ((withCopy rows (rows .deployments)).dropTable true .deployments) = _
    rw [drop_deployments h]
    rfl
  have hrename : Connection.exec ⟨true, true, Function.update
      (withCopy (Function.update rows .pods []) (rows .deployments)) .deployments none⟩
        (.renameTable .deploymentsNew .deployments) =
          .ok ⟨true, true, ofRows .cascade (Function.update rows .pods [])⟩ := by
    show Connection.withDb _ (Database.renameTable _ _ _) = _
    rw [rename_copy (Function.update_of_ne (by decide) _ _)]
    rfl
  rw [MigrationFile.run, htx, if_neg Bool.false_ne_true, Connection.transaction]
  simp only [cascadeDeleteProject, Connection.execAll, hpragma, hcreate, hcopy, hdrop, hrename]
  rfl

section Upgrade

variable (sha384 : MigrationFile → List UInt8)

/-- A database file that satisfies the schema of the first four files. -/
structure AtVersionFour (file : StoreFile) : Prop where
  applied : file.applied = (migrations.take 4).map (MigrationFile.noted sha384)
  schemas : ∀ t, (file.db t).map Table.schema = schemaAt .noAction t
  integrity : file.db.Integrity

/-- Connecting succeeds, applies the fifth file, leaves every row of every
table where it was, and changes the schema by the one clause. -/
def KeepsRows (file : StoreFile) : Prop :=
  ∃ db, connect sha384 file = (⟨db, migrations.map (MigrationFile.noted sha384)⟩, .ok ()) ∧
    (∀ t, db.rows t = file.db.rows t) ∧ ∀ t, (db t).map Table.schema = schemaAt .cascade t

variable {sha384}

/-- What connecting does to a file of the first four versions. -/
theorem connect_atVersionFour {file : StoreFile} (h : AtVersionFour sha384 file) :
    connect sha384 file = (⟨ofRows .cascade (Function.update file.db.rows .pods []),
      migrations.map (MigrationFile.noted sha384)⟩, .ok ()) := by
  obtain ⟨happlied, hschemas, hintegrity⟩ := h
  have hrows := eq_ofRows hschemas
  rw [hrows] at hintegrity
  have hrun := run_cascadeDeleteProject hintegrity
  rw [← hrows] at hrun
  have hchecked : checkApplied migrations file.applied = .ok () := by
    rw [happlied, checkApplied_iff]
    intro a ha
    obtain ⟨m, hm, rfl⟩ := List.mem_map.mp ha
    exact ⟨rfl, List.mem_map_of_mem (List.mem_of_mem_take hm)⟩
  have hskip : runMigrations sha384 ⟨true, false, file.db⟩ file.applied migrations =
      runMigrations sha384 ⟨true, false, file.db⟩ file.applied [cascadeDeleteProject] := by
    rw [happlied]
    simp [runMigrations, migrations, MigrationFile.noted, initialSchema, addContainerIp,
      addNodesAndClusterConfig, networking]
  have hnew : (file.applied.find? fun a => a.version = cascadeDeleteProject.version) = none := by
    rw [happlied]
    rfl
  rw [connect_of_checked hchecked, hskip, runMigrations, hnew, happlied]
  simp only [hrun]
  rfl

/-- The upgrade keeps the data exactly when there are no pods to lose. -/
theorem keepsRows_iff {file : StoreFile} (h : AtVersionFour sha384 file) :
    KeepsRows sha384 file ↔ file.db.rows .pods = [] := by
  have hconnect := connect_atVersionFour h
  constructor
  · intro hkeeps
    obtain ⟨db, hdb, hrows, -⟩ := hkeeps
    rw [hconnect] at hdb
    cases hdb
    rw [← hrows .pods]
    rfl
  · intro hpods
    have hsame : Function.update file.db.rows .pods [] = file.db.rows := by
      rw [← hpods, Function.update_eq_self]
    rw [hsame] at hconnect
    refine ⟨_, hconnect, fun t => ?_, fun t => ?_⟩
    · calc (ofRows .cascade file.db.rows).rows t
          = (ofRows .noAction file.db.rows).rows t := by rw [rows_ofRows, rows_ofRows]
        _ = file.db.rows t := by rw [← eq_ofRows h.schemas]
    · cases t <;> rfl

end Upgrade

section Shop

/-- The digests of the five files. -/
def digests (m : MigrationFile) : List UInt8 :=
  BigEndian.bytes 48 <|
    if m.version = 20260521000001 then
      0xca6225a6335859ea73547e43b1545fd7d222fa485b0ac28d9406af4a386b15c5952a7044e68d8c79460fae60a731d6af
    else if m.version = 20260521000002 then
      0x5d4a98af0db4b43e19329ab40ce812505c2e852f4644e73264e632b0766317b093e39738b9e75bd011355bfb6b8a0023
    else if m.version = 20260521000003 then
      0x37f66eca7f7d8b5e4baee9c3c1ea284fd22bbe77ff785ec7d768655c70196dff8010e756ae57dd93172025bc2382df6d
    else if m.version = 20260521000004 then
      0x7c86818ebca971bf829efa3103fbc5a64f9ee538f437ce3b55d8639b795d6537093f0c4738bf5b7111aeb0c4a4c02b7d
    else
      0xe80678510f15593cfc9d81a8d6aa5a5e9ea555cbaaa10f0d1e11e1ab212ed2d90e00d1f63f4504ea84576d232537e3a2

/-- A file that the first four files made. -/
def fileOf (db : Db) : StoreFile := ⟨db, (migrations.take 4).map (MigrationFile.noted digests)⟩

/-- The database after an insertion, or as it was if that was refused. -/
def inserted (db : Db) (t : TableName) (values : List (Column × Value)) : Db :=
  (db.insert true t values).toOption.getD db

private theorem inserted_atVersionFour {db : Db} (h : AtVersionFour digests (fileOf db)) (t : TableName)
    (values : List (Column × Value)) : AtVersionFour digests (fileOf (inserted db t values)) := by
  unfold inserted
  cases hinsert : db.insert true t values with
  | error e => exact h
  | ok db' =>
    obtain ⟨tbl, ht, hdb', -⟩ := Database.insert_ok hinsert
    have hschemas : ∀ t', (db' t').map Table.schema = (db t').map Table.schema := by
      intro t'
      rw [hdb', Database.schema_setRows ht]
    exact ⟨rfl, fun t' => (hschemas t').trans (h.schemas t'),
      Database.insert_integrity h.integrity hinsert⟩

/-- A project with one deployment that has not been started. -/
def shop : Db :=
  inserted
    (inserted (ofRows .noAction fun _ => []) .projects
      [(.name, .text "shop"), (.status, .text "active"), (.createdAt, .text "2026-05-21")])
    .deployments
    [(.id, .text "d1"), (.project, .text "shop"), (.name, .text "web"), (.specJson, .text "spec"),
      (.status, .text "running"), (.createdAt, .text "2026-05-21"), (.updatedAt, .text "2026-05-21")]

/-- The pod of a replica. -/
def podRow : List (Column × Value) :=
  [(.id, .text "p1"), (.deploymentId, .text "d1"), (.project, .text "shop"),
    (.deploymentName, .text "web"), (.replicaIndex, .integer 0), (.containerId, .text "c1"),
    (.status, .text "running"), (.image, .text "web:1"), (.restartCount, .integer 0),
    (.createdAt, .text "2026-05-21"), (.containerIp, .null), (.nodeId, .null)]

private theorem shop_atVersionFour : AtVersionFour digests (fileOf shop) := by
  have hempty : AtVersionFour digests (fileOf (ofRows .noAction fun _ => [])) :=
    ⟨rfl, fun t => by cases t <;> rfl, integrity_empty .noAction⟩
  exact inserted_atVersionFour (inserted_atVersionFour hempty _ _) _ _

/-- Without pods the deployment survives the upgrade. -/
theorem keepsRows_shop : (shop.rows .deployments).length = 1 ∧ KeepsRows digests (fileOf shop) :=
  ⟨by decide, (keepsRows_iff shop_atVersionFour).mpr (by decide)⟩

/-- With a pod the upgrade reports success, and the pod is gone. -/
theorem upgrade_loses_pod : AtVersionFour digests (fileOf (inserted shop .pods podRow)) ∧
    ((inserted shop .pods podRow).rows .pods).length = 1 ∧
    (connect digests (fileOf (inserted shop .pods podRow))).2 = .ok () ∧
    ¬ KeepsRows digests (fileOf (inserted shop .pods podRow)) := by
  have hfour := inserted_atVersionFour shop_atVersionFour .pods podRow
  have hlength : ((inserted shop .pods podRow).rows .pods).length = 1 := by decide
  have hconnect := connect_atVersionFour hfour
  refine ⟨hfour, hlength, congrArg Prod.snd hconnect, fun hkeeps => ?_⟩
  obtain ⟨db, hdb, hrows, -⟩ := hkeeps
  rw [hconnect] at hdb
  cases hdb
  have hnone : (inserted shop .pods podRow).rows .pods = [] := (hrows .pods).symm
  rw [hnone] at hlength
  cases hlength

end Shop

end Nexad.State
