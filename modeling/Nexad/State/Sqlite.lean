import Nexad.Core.Models
import Nexad.State.Schema

/-!
# `SqliteStore`: projects, deployments and pods

Each operation is one statement on a database that enforces foreign keys, with
values written as text on the way in and parsed on the way out. Reading a
column as something it does not hold panics; a text that does not parse is an
error. A statement may also fail for reasons of its own (a locked file, a full
disk): `Step` lets any operation end in such an error with nothing changed.
-/

namespace Nexad.State

open Relational

/-- How an operation of the store ends other than well. -/
inductive Failure where
  | error (e : NexaError)
  | panic
  deriving DecidableEq, Repr

/-- `NexaError::Runtime`. -/
def Failure.runtime (text : String) : Failure := .error (.runtime text)

/-- A row of a query's result. -/
abbrev DbRecord := Record Column

/-! ## Reading a row -/

/-- `row.get::<String>(c)`. -/
def getString (row : DbRecord) (c : Column) : Except Failure String :=
  match row c with
  | some (.text s) => .ok s
  | _ => .error .panic

/-- `row.get::<Option<String>>(c)`. -/
def getOptString (row : DbRecord) (c : Column) : Except Failure (Option String) :=
  match row c with
  | some .null => .ok none
  | some (.text s) => .ok (some s)
  | _ => .error .panic

/-- `row.get::<i64>(c)`. -/
def getI64 (row : DbRecord) (c : Column) : Except Failure Int :=
  match row c with
  | some (.integer n) => .ok n
  | _ => .error .panic

/-- Parse a text; `what` is how the error names it. -/
def parse {α : Type} (form : TextForm α) (what : String) (s : String) : Except Failure α :=
  match form.parse s with
  | .ok a => .ok a
  | .error e => .error (.runtime s!"invalid {what}: {e}")

/-- Read a column as text and parse it. -/
def getParsed {α : Type} (form : TextForm α) (what : String) (row : DbRecord) (c : Column) :
    Except Failure α := do
  parse form what (← getString row c)

variable (D : Domain)

/-- The decoding of `get_project` and `list_projects`. -/
def rowToProject (row : DbRecord) : Except Failure (Project D) := do
  let status ← getParsed D.projectStatus "project status" row .status
  let createdAt ← getParsed D.time "created_at" row .createdAt
  return { name := ← getString row .name, status, createdAt }

/-- `row_to_deployment`. -/
def rowToDeployment (row : DbRecord) : Except Failure (Deployment D) := do
  let id ← getParsed D.uuid "deployment id" row .id
  let specJson ← getString row .specJson
  let spec ← (D.specFromJson specJson).mapError fun e => .error (.serialization e)
  let status ← getParsed D.deploymentStatus "deployment status" row .status
  let createdAt ← getParsed D.time "created_at" row .createdAt
  let updatedAt ← getParsed D.time "updated_at" row .updatedAt
  return { id, spec, status, createdAt, updatedAt }

/-- `row_to_pod`. -/
def rowToPod (row : DbRecord) : Except Failure (Pod D) := do
  let id ← getParsed D.uuid "pod id" row .id
  let deploymentId ← getParsed D.uuid "deployment_id" row .deploymentId
  let status ← getParsed D.podStatus "pod status" row .status
  let createdAt ← getParsed D.time "created_at" row .createdAt
  let replicaIndex ← getI64 row .replicaIndex
  let restartCount ← getI64 row .restartCount
  let nodeId ← (← getOptString row .nodeId).mapM (parse D.uuid "node_id")
  return {
    id, deploymentId
    project := ← getString row .project
    deploymentName := ← getString row .deploymentName
    replicaIndex := UInt32.ofInt replicaIndex
    nodeId
    containerId := ← getOptString row .containerId
    containerIp := ← getOptString row .containerIp
    status
    image := ← getString row .image
    restartCount := UInt32.ofInt restartCount
    createdAt }

/-! ## Statements -/

/-- A bound `Option<String>`. -/
def optText : Option String → Value
  | none => .null
  | some s => .text s

/-- A bound `u32 as i64`. -/
def u32AsI64 (n : UInt32) : Value := .integer n.toNat

/-- The rows where a column is a text. -/
def whereText (c : Column) (s : String) (r : DbRow) : Bool := r c = .text s

/-- The `map_err` of every statement. -/
def runtimeError (e : SqlError) : Failure := .runtime (D.sqlError e)

/-- An operation that is one insertion or deletion. -/
def executed (db : Db) : Except SqlError Db → Db × Except Failure Unit
  | .ok db' => (db', .ok ())
  | .error e => (db, .error (runtimeError D e))

/-- An operation that is one update, `missing` if it touched no row. -/
def affected (db : Db) (missing : NexaError) : Except SqlError (Db × Nat) → Db × Except Failure Unit
  | .ok (db', n) => (db', if n = 0 then .error (.error missing) else .ok ())
  | .error e => (db, .error (runtimeError D e))

/-- Query, then decode every row up to the first that fails. -/
def fetchAll {α : Type} (decode : DbRecord → Except Failure α)
    (rows : Except SqlError (List DbRecord)) : Except Failure (List α) := do
  (← rows.mapError (runtimeError D)).mapM decode

/-- Query, then decode the first row if there is one. -/
def fetchOptional {α : Type} (decode : DbRecord → Except Failure α)
    (rows : Except SqlError (List DbRecord)) : Except Failure (Option α) := do
  (← rows.mapError (runtimeError D)).head?.mapM decode

section Projects

def projectColumns : List Column := [.name, .status, .createdAt]

variable {D}

/-- `insert_project`. -/
def insertProject (db : Db) (project : Project D) : Db × Except Failure Unit :=
  match db.insert true .projects
    [(.name, .text project.name), (.status, .text (D.projectStatus.print project.status)),
      (.createdAt, .text (D.time.print project.createdAt))] with
  | .ok db' => (db', .ok ())
  | .error .unique =>
    (db, .error (.error (.invalidSpec s!"project '{project.name}' already exists")))
  | .error e => (db, .error (runtimeError D e))

variable (D) (scan : Scan Column)

/-- `get_project`. -/
def getProject (db : Db) (name : String) : Except Failure (Option (Project D)) :=
  fetchOptional D (rowToProject D) (db.select projectColumns .projects (whereText .name name) none)

/-- `list_projects`. -/
def listProjects (db : Db) : Except Failure (List (Project D)) :=
  fetchAll D (rowToProject D)
    (db.select projectColumns .projects (fun _ => true) (some (.name, scan)))

/-- `update_project_status`. -/
def updateProjectStatus (db : Db) (name : String) (status : D.ProjectStatus) :
    Db × Except Failure Unit :=
  affected D db (.projectNotFound name)
    (db.update true .projects (whereText .name name)
      [(.status, .text (D.projectStatus.print status))])

/-- `delete_project`. -/
def deleteProject (db : Db) (name : String) : Db × Except Failure Unit :=
  executed D db (db.delete true .projects (whereText .name name))

end Projects

section Deployments

def deploymentColumns : List Column := [.id, .specJson, .status, .createdAt, .updatedAt]

variable {D}

/-- `insert_deployment`. -/
def insertDeployment (db : Db) (deployment : Deployment D) : Db × Except Failure Unit :=
  match D.specToJson deployment.spec with
  | .error e => (db, .error (.error (.serialization e)))
  | .ok specJson =>
    executed D db (db.insert true .deployments
      [(.id, .text (D.uuid.print deployment.id)), (.project, .text (D.project deployment.spec)),
        (.name, .text (D.deploymentName deployment.spec)), (.specJson, .text specJson),
        (.status, .text (D.deploymentStatus.print deployment.status)),
        (.createdAt, .text (D.time.print deployment.createdAt)),
        (.updatedAt, .text (D.time.print deployment.updatedAt))])

/-- `update_deployment`. -/
def updateDeployment (db : Db) (deployment : Deployment D) : Db × Except Failure Unit :=
  match D.specToJson deployment.spec with
  | .error e => (db, .error (.error (.serialization e)))
  | .ok specJson =>
    affected D db (.deploymentNotFound (D.uuid.print deployment.id))
      (db.update true .deployments (whereText .id (D.uuid.print deployment.id))
        [(.specJson, .text specJson),
          (.status, .text (D.deploymentStatus.print deployment.status)),
          (.updatedAt, .text (D.time.print deployment.updatedAt))])

variable (D) (scan : Scan Column)

/-- `get_deployment`. -/
def getDeployment (db : Db) (project name : String) : Except Failure (Option (Deployment D)) :=
  fetchOptional D (rowToDeployment D) (db.select deploymentColumns .deployments
    (fun r => whereText .project project r && whereText .name name r) none)

/-- `list_deployments`. -/
def listDeployments (db : Db) (project : Option String) : Except Failure (List (Deployment D)) :=
  fetchAll D (rowToDeployment D) (db.select deploymentColumns .deployments
    (project.elim (fun _ => true) (whereText .project)) (some (.createdAt, scan)))

/-- `delete_deployment`. -/
def deleteDeployment (db : Db) (id : Uuid) : Db × Except Failure Unit :=
  executed D db (db.delete true .deployments (whereText .id (D.uuid.print id)))

end Deployments

section Pods

def podColumns : List Column :=
  [.id, .deploymentId, .project, .deploymentName, .replicaIndex, .nodeId, .containerId,
    .containerIp, .status, .image, .restartCount, .createdAt]

variable {D}

/-- `insert_pod`. -/
def insertPod (db : Db) (pod : Pod D) : Db × Except Failure Unit :=
  executed D db (db.insert true .pods
    [(.id, .text (D.uuid.print pod.id)), (.deploymentId, .text (D.uuid.print pod.deploymentId)),
      (.project, .text pod.project), (.deploymentName, .text pod.deploymentName),
      (.replicaIndex, u32AsI64 pod.replicaIndex),
      (.nodeId, optText (pod.nodeId.map D.uuid.print)),
      (.containerId, optText pod.containerId), (.containerIp, optText pod.containerIp),
      (.status, .text (D.podStatus.print pod.status)), (.image, .text pod.image),
      (.restartCount, u32AsI64 pod.restartCount),
      (.createdAt, .text (D.time.print pod.createdAt))])

/-- `update_pod`. -/
def updatePod (db : Db) (pod : Pod D) : Db × Except Failure Unit :=
  affected D db (.podNotFound (D.uuid.print pod.id))
    (db.update true .pods (whereText .id (D.uuid.print pod.id))
      [(.nodeId, optText (pod.nodeId.map D.uuid.print)),
        (.containerId, optText pod.containerId), (.containerIp, optText pod.containerIp),
        (.status, .text (D.podStatus.print pod.status)),
        (.restartCount, u32AsI64 pod.restartCount)])

variable (D) (scan : Scan Column)

/-- `list_pods`. -/
def listPods (db : Db) (project : Option String) : Except Failure (List (Pod D)) :=
  fetchAll D (rowToPod D) (db.select podColumns .pods
    (project.elim (fun _ => true) (whereText .project)) (some (.createdAt, scan)))

/-- `delete_pod`. -/
def deletePod (db : Db) (id : Uuid) : Db × Except Failure Unit :=
  executed D db (db.delete true .pods (whereText .id (D.uuid.print id)))

/-- `pods_by_deployment`. -/
def podsByDeployment (db : Db) (deploymentId : Uuid) : Except Failure (List (Pod D)) :=
  fetchAll D (rowToPod D) (db.select podColumns .pods
    (whereText .deploymentId (D.uuid.print deploymentId)) (some (.replicaIndex, scan)))

end Pods

/-! ## Runs of the store -/

/-- A call of the store. -/
inductive StoreOp where
  | insertProject (project : Project D)
  | getProject (name : String)
  | listProjects
  | updateProjectStatus (name : String) (status : D.ProjectStatus)
  | deleteProject (name : String)
  | insertDeployment (deployment : Deployment D)
  | getDeployment (project name : String)
  | listDeployments (project : Option String)
  | updateDeployment (deployment : Deployment D)
  | deleteDeployment (id : Uuid)
  | insertPod (pod : Pod D)
  | listPods (project : Option String)
  | updatePod (pod : Pod D)
  | deletePod (id : Uuid)
  | podsByDeployment (deploymentId : Uuid)

/-- What a call answers when all is well. -/
inductive Reply where
  | unit
  | project (found : Option (Project D))
  | projects (found : List (Project D))
  | deployment (found : Option (Deployment D))
  | deployments (found : List (Deployment D))
  | pods (found : List (Pod D))

/-- How a call ends. -/
abbrev Outcome := Except Failure (Reply D)

variable {D}

/-- A call that answers nothing. -/
def wrote (result : Db × Except Failure Unit) : Db × Outcome D :=
  (result.1, result.2.map fun _ => .unit)

/-- Run a call. -/
def StoreOp.run (scan : Scan Column) (db : Db) : StoreOp D → Db × Outcome D
  | .insertProject project => wrote (State.insertProject db project)
  | .getProject name => (db, (State.getProject D db name).map .project)
  | .listProjects => (db, (State.listProjects D scan db).map .projects)
  | .updateProjectStatus name status => wrote (State.updateProjectStatus D db name status)
  | .deleteProject name => wrote (State.deleteProject D db name)
  | .insertDeployment deployment => wrote (State.insertDeployment db deployment)
  | .getDeployment project name => (db, (State.getDeployment D db project name).map .deployment)
  | .listDeployments project => (db, (State.listDeployments D scan db project).map .deployments)
  | .updateDeployment deployment => wrote (State.updateDeployment db deployment)
  | .deleteDeployment id => wrote (State.deleteDeployment D db id)
  | .insertPod pod => wrote (State.insertPod db pod)
  | .listPods project => (db, (State.listPods D scan db project).map .pods)
  | .updatePod pod => wrote (State.updatePod db pod)
  | .deletePod id => wrote (State.deletePod D db id)
  | .podsByDeployment deploymentId => (db, (State.podsByDeployment D scan db deploymentId).map .pods)

/-- One call: it runs, with any scan of the rows, or its statement fails for a reason
of its own. -/
inductive Step (db : Db) (op : StoreOp D) : Outcome D → Db → Prop
  | run (scan : Scan Column) : Step db op (op.run scan db).2 (op.run scan db).1
  | fault (text : String) : Step db op (.error (.runtime text)) db

variable (D)

/-- The states of a store that was new once. -/
inductive Reachable : Db → Prop
  | new : Reachable (ofRows .cascade fun _ => [])
  | step {db db' : Db} {op : StoreOp D} {outcome : Outcome D} :
      Reachable db → Step db op outcome db' → Reachable db'

end Nexad.State
