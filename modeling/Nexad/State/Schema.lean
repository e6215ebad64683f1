import Nexad.Base.Migration

/-!
# The store's migrations

The five migration files as statements, and the connection that runs them.
`SqlitePool::connect` opens a connection that enforces foreign keys, `connect`
asks for that once more, and the migrator runs every file that has not been
applied. A file runs in a transaction of its own unless its text BEGINS with
`-- no-transaction`; what its name says does not count. Before it runs any file
the migrator looks at what has been applied: it refuses a database with a file
that did not succeed, or that it does not know, and stops at one whose text has
changed since, which it tells by the digest of the text.

Column defaults are left out: every statement of the store gives a value to
every column of the row it inserts.
-/

namespace Nexad.State

open Relational

/-- The tables of the migrations. -/
inductive TableName where
  | projects
  | deployments
  | pods
  | secrets
  | nodes
  | clusterConfig
  | routes
  | certificates
  | subnetAllocations
  | deploymentsNew
  deriving DecidableEq, Repr

instance : Fintype TableName where
  elems := {.projects, .deployments, .pods, .secrets, .nodes, .clusterConfig, .routes,
    .certificates, .subnetAllocations, .deploymentsNew}
  complete t := by cases t <;> decide

/-- The columns of all tables, one name for the same name. -/
inductive Column where
  | name | status | createdAt
  | id | project | specJson | updatedAt
  | deploymentId | deploymentName | replicaIndex | containerId | image | restartCount
  | containerIp | nodeId
  | valueEnc | nonce
  | address | role | cpuCores | memoryBytes | cpuAvailable | memoryAvailable | runningPods
  | lastHeartbeat | joinedAt
  | key | value
  | domain | deployment | tlsMode
  | certPem | keyPemEnc | keyNonce | issuedAt | expiresAt | acmeAccount
  | subnet
  deriving DecidableEq, Repr

open Column

/-- A statement of a migration file. -/
abbrev Statement := Stmt TableName Column

/-- A database of the store. -/
abbrev Db := Database TableName Column

/-- A row of any of the store's tables. -/
abbrev DbRow := Row Column

/-- `projects`. -/
def projectsSchema : Schema TableName Column where
  columns := [name, status, createdAt]
  notNull := [status, createdAt]
  unique := [[name]]
  foreignKeys := []

/-- `deployments`, by what becomes of them when their project is deleted. -/
def deploymentsSchema (onDelete : OnDelete) : Schema TableName Column where
  columns := [id, project, name, specJson, status, createdAt, updatedAt]
  notNull := [project, name, specJson, status, createdAt, updatedAt]
  unique := [[id], [project, name]]
  foreignKeys := [⟨project, .projects, name, onDelete⟩]

/-- `pods`, as first created. -/
def podsSchema : Schema TableName Column where
  columns := [id, deploymentId, project, deploymentName, replicaIndex, containerId, status, image,
    restartCount, createdAt]
  notNull := [deploymentId, project, deploymentName, replicaIndex, status, image, restartCount,
    createdAt]
  unique := [[id]]
  foreignKeys := [⟨deploymentId, .deployments, id, .cascade⟩]

/-- `secrets`. -/
def secretsSchema : Schema TableName Column where
  columns := [project, name, valueEnc, nonce, createdAt, updatedAt]
  notNull := [project, name, valueEnc, nonce, createdAt, updatedAt]
  unique := [[project, name]]
  foreignKeys := []

/-- `nodes`. -/
def nodesSchema : Schema TableName Column where
  columns := [id, name, address, role, status, cpuCores, memoryBytes, cpuAvailable,
    memoryAvailable, runningPods, lastHeartbeat, joinedAt]
  notNull := [name, address, role, status, cpuCores, memoryBytes, cpuAvailable, memoryAvailable,
    runningPods, lastHeartbeat, joinedAt]
  unique := [[id], [name]]
  foreignKeys := []

/-- `cluster_config`. -/
def clusterConfigSchema : Schema TableName Column where
  columns := [key, value]
  notNull := [value]
  unique := [[key]]
  foreignKeys := []

/-- `routes`. -/
def routesSchema : Schema TableName Column where
  columns := [domain, project, deployment, tlsMode, createdAt]
  notNull := [project, deployment, tlsMode, createdAt]
  unique := [[domain]]
  foreignKeys := []

/-- `certificates`. -/
def certificatesSchema : Schema TableName Column where
  columns := [domain, certPem, keyPemEnc, keyNonce, issuedAt, expiresAt, acmeAccount]
  notNull := [certPem, keyPemEnc, keyNonce, issuedAt, expiresAt]
  unique := [[domain]]
  foreignKeys := []

/-- `subnet_allocations`. -/
def subnetAllocationsSchema : Schema TableName Column where
  columns := [nodeId, project, subnet]
  notNull := [nodeId, project, subnet]
  unique := [[subnet], [nodeId, project]]
  foreignKeys := [⟨nodeId, .nodes, id, .noAction⟩]

/-- The tables there are once the first four files have run (`noAction`), and
once all five have (`cascade`): the fifth changes one clause of `deployments`. -/
def schemaAt (onDelete : OnDelete) : TableName → Option (Schema TableName Column)
  | .projects => some projectsSchema
  | .deployments => some (deploymentsSchema onDelete)
  | .pods => some { podsSchema with columns := podsSchema.columns ++ [containerIp, nodeId] }
  | .secrets => some secretsSchema
  | .nodes => some nodesSchema
  | .clusterConfig => some clusterConfigSchema
  | .routes => some routesSchema
  | .certificates => some certificatesSchema
  | .subnetAllocations => some subnetAllocationsSchema
  | .deploymentsNew => none

/-- The database with these tables and the given rows. -/
def ofRows (onDelete : OnDelete) (rows : TableName → List DbRow) : Db :=
  fun t => (schemaAt onDelete t).map fun schema => ⟨schema, rows t⟩

/-- A migration file: its version, how its text begins, and its statements. -/
structure MigrationFile where
  version : Int
  beginning : String
  statements : List Statement

/-- `20260521000001_initial_schema.sql`. -/
def initialSchema : MigrationFile where
  version := 20260521000001
  beginning := "CREATE TABLE IF NOT EXISTS projects ("
  statements := [
    .createTable true .projects projectsSchema,
    .createTable true .deployments (deploymentsSchema .noAction),
    .createTable true .pods podsSchema,
    .createTable true .secrets secretsSchema]

/-- `20260521000002_add_container_ip.sql`. -/
def addContainerIp : MigrationFile where
  version := 20260521000002
  beginning := "ALTER TABLE pods ADD COLUMN container_ip TEXT;"
  statements := [.addColumn .pods containerIp]

/-- `20260521000003_add_nodes_and_cluster_config.sql`. -/
def addNodesAndClusterConfig : MigrationFile where
  version := 20260521000003
  beginning := "ALTER TABLE pods ADD COLUMN node_id TEXT;"
  statements := [
    .addColumn .pods nodeId,
    .createTable true .nodes nodesSchema,
    .createTable true .clusterConfig clusterConfigSchema]

/-- `20260521000004_networking.sql`. -/
def networking : MigrationFile where
  version := 20260521000004
  beginning := "CREATE TABLE IF NOT EXISTS routes ("
  statements := [
    .createTable true .routes routesSchema,
    .createTable true .certificates certificatesSchema,
    .createTable true .subnetAllocations subnetAllocationsSchema,
    .createIndex .routes [project],
    .createIndex .certificates [expiresAt],
    .createIndex .subnetAllocations [subnet]]

/-- `20260522000005_cascade_delete_project.no_tx.sql`. -/
def cascadeDeleteProject : MigrationFile where
  version := 20260522000005
  beginning := "-- Recreate deployments table with ON DELETE CASCADE on the project FK"
  statements := [
    .pragmaForeignKeys false,
    .createTable false .deploymentsNew (deploymentsSchema .cascade),
    .insertSelect .deploymentsNew [id, project, name, specJson, status, createdAt, updatedAt]
      .deployments,
    .dropTable .deployments,
    .renameTable .deploymentsNew .deployments,
    .pragmaForeignKeys true]

/-- The files under `migrations/`, in the order of their versions. -/
def migrations : List MigrationFile :=
  [initialSchema, addContainerIp, addNodesAndClusterConfig, networking, cascadeDeleteProject]

/-- Whether a file runs outside a transaction: its text says so first. -/
def MigrationFile.noTx (m : MigrationFile) : Bool :=
  "-- no-transaction".toList.isPrefixOf m.beginning.toList

/-- Run a file. -/
def MigrationFile.run (m : MigrationFile) (c : Connection TableName Column) :
    Except SqlError (Connection TableName Column) :=
  if m.noTx then c.execAll m.statements else c.transaction m.statements

/-- A row of `_sqlx_migrations`, as far as it is read. Its key is the version. -/
structure AppliedMigration where
  version : Int
  checksum : List UInt8
  success : Bool
  deriving DecidableEq, Repr

/-- A database file: its tables, and the migrations it has had. -/
structure StoreFile where
  db : Db
  applied : List AppliedMigration

/-- Why a migrator stopped. -/
inductive MigrateError where
  | executeMigration (e : SqlError) (version : Int)
  | dirty (version : Int)
  | versionMissing (version : Int)
  | versionMismatch (version : Int)
  deriving DecidableEq, Repr

/-- The least version of some rows. -/
def leastVersion (rows : List AppliedMigration) : Option Int :=
  (rows.map AppliedMigration.version).min?

/-- What a migrator looks at before it runs its files. -/
def checkApplied (files : List MigrationFile) (applied : List AppliedMigration) :
    Except MigrateError Unit :=
  match leastVersion (applied.filter fun a => !a.success) with
  | some version => .error (.dirty version)
  | none =>
    match leastVersion (applied.filter fun a => a.version ∉ files.map MigrationFile.version) with
    | some version => .error (.versionMissing version)
    | none => .ok ()

section Migrate

-- the digest of a file's text
variable (sha384 : MigrationFile → List UInt8)

/-- The row of a file that has run. -/
def MigrationFile.noted (m : MigrationFile) : AppliedMigration := ⟨m.version, sha384 m, true⟩

/-- Run the files that have not been applied, up to the first that fails or has
changed. -/
def runMigrations (c : Connection TableName Column) (applied : List AppliedMigration) :
    List MigrationFile → StoreFile × Except MigrateError Unit
  | [] => (⟨c.db, applied⟩, .ok ())
  | m :: ms =>
    match applied.find? fun a => a.version = m.version with
    | some a =>
      if a.checksum ≠ sha384 m then (⟨c.db, applied⟩, .error (.versionMismatch m.version))
      else runMigrations c applied ms
    | none =>
      match m.run c with
      | .error e => (⟨c.db, applied⟩, .error (.executeMigration e m.version))
      | .ok c' => runMigrations c' (applied ++ [m.noted sha384]) ms

/-- Why a database could not be connected to. -/
inductive ConnectError where
  | statement (e : SqlError)
  | migrate (e : MigrateError)
  deriving DecidableEq, Repr

/-- `SqliteStore::connect`: open the file, ask for foreign keys, migrate. -/
def connect (file : StoreFile) : StoreFile × Except ConnectError Unit :=
  let c : Connection TableName Column := ⟨true, false, file.db⟩
  match c.exec (.pragmaForeignKeys true) with
  | .error e => (file, .error (.statement e))
  | .ok c =>
    match checkApplied migrations file.applied with
    | .error e => (file, .error (.migrate e))
    | .ok () =>
      let (file', result) := runMigrations sha384 c file.applied migrations
      (file', result.mapError .migrate)

end Migrate

end Nexad.State
