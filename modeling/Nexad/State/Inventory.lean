import Nexad.State.Nodes

/-!
# What the store is for

An inventory is what a client of the store has in mind: lists of projects, of
deployments and of pods, whole values in the order they came. It has neither
rows nor texts nor statements. `Inventory.does` says what each call should do to
it, and `Inventory.Answers` what the call may answer: where values are listed in
the order of a key, those with the same key come in any order. `StoreCalls` are
the runs of `SqliteStore` it is compared with.

A deployment is filed under the project and the name it came with. An update
may give it a spec that names others, and it stays where it is.
-/

namespace Nexad.State

variable (D : Domain)

/-- A deployment where it is filed, with its spec as JSON. -/
structure Filed where
  project : String
  name : String
  deployment : Deployment D
  specJson : String
  printed : D.specToJson deployment.spec = .ok specJson

/-- A list of what is meant, in the order of a key. What has the same key comes in
any order. -/
structure Lists {α β : Type} [LE β] (key : α → β) (meant found : List α) : Prop where
  perm : found.Perm meant
  ordered : found.Pairwise fun a b => key a ≤ key b

/-- The projects, deployments and pods there are. -/
structure Inventory where
  projects : List (Project D)
  deployments : List (Filed D)
  pods : List (Pod D)

namespace Inventory

/-- Nothing. -/
def empty : Inventory D := ⟨[], [], []⟩

variable {D} (s : Inventory D)

/-- A call that is refused changes nothing. -/
def refuse (e : Failure) : Inventory D × Outcome D := (s, .error e)

/-- One project more, if its name is free. -/
def insertProject (project : Project D) : Inventory D × Outcome D :=
  if ∃ p ∈ s.projects, p.name = project.name then
    s.refuse (.error (.invalidSpec s!"project '{project.name}' already exists"))
  else ({ s with projects := s.projects ++ [project] }, .ok .unit)

/-- Another status for a project. -/
def updateProjectStatus (name : String) (status : D.ProjectStatus) : Inventory D × Outcome D :=
  if ∃ p ∈ s.projects, p.name = name then
    ({ s with projects := s.projects.map fun p =>
        if p.name = name then { p with status := status } else p }, .ok .unit)
  else s.refuse (.error (.projectNotFound name))

/-- A project goes with its deployments, and they with their pods. -/
def deleteProject (name : String) : Inventory D where
  projects := s.projects.filter fun p => p.name ≠ name
  deployments := s.deployments.filter fun f => f.project ≠ name
  pods := s.pods.filter fun p =>
    ¬ ∃ f ∈ s.deployments, f.project = name ∧ p.deploymentId = f.deployment.id

/-- The deployment may not be filed: its id is taken, or its place is. -/
def Taken (d : Deployment D) : Prop :=
  ∃ f ∈ s.deployments, f.deployment.id = d.id ∨
    f.project = D.project d.spec ∧ f.name = D.deploymentName d.spec

instance (d : Deployment D) : Decidable (s.Taken d) :=
  inferInstanceAs (Decidable (∃ f ∈ s.deployments, f.deployment.id = d.id ∨
    f.project = D.project d.spec ∧ f.name = D.deploymentName d.spec))

/-- One deployment more, for a project that is there. -/
def insertDeployment (d : Deployment D) : Inventory D × Outcome D :=
  match h : D.specToJson d.spec with
  | .error e => s.refuse (.error (.serialization e))
  | .ok specJson =>
    if s.Taken d then s.refuse (runtimeError D .unique)
    else if ∃ p ∈ s.projects, p.name = D.project d.spec then
      ({ s with deployments := s.deployments ++
          [⟨D.project d.spec, D.deploymentName d.spec, d, specJson, h⟩] }, .ok .unit)
    else s.refuse (runtimeError D .foreignKey)

/-- Another spec, status and time of update for a deployment. -/
def updateDeployment (d : Deployment D) : Inventory D × Outcome D :=
  match h : D.specToJson d.spec with
  | .error e => s.refuse (.error (.serialization e))
  | .ok specJson =>
    if ∃ f ∈ s.deployments, f.deployment.id = d.id then
      ({ s with deployments := s.deployments.map fun f =>
          if f.deployment.id = d.id then
            ⟨f.project, f.name, { d with id := f.deployment.id, createdAt := f.deployment.createdAt },
              specJson, h⟩
          else f }, .ok .unit)
    else s.refuse (.error (.deploymentNotFound (D.uuid.print d.id)))

/-- A deployment goes with its pods. -/
def deleteDeployment (id : Uuid) : Inventory D where
  projects := s.projects
  deployments := s.deployments.filter fun f => f.deployment.id ≠ id
  pods := s.pods.filter fun p => p.deploymentId ≠ id

/-- One pod more, for a deployment that is there. -/
def insertPod (pod : Pod D) : Inventory D × Outcome D :=
  if ∃ p ∈ s.pods, p.id = pod.id then s.refuse (runtimeError D .unique)
  else if ∃ f ∈ s.deployments, f.deployment.id = pod.deploymentId then
    ({ s with pods := s.pods ++ [pod] }, .ok .unit)
  else s.refuse (runtimeError D .foreignKey)

/-- Another node, container, status and count of restarts for a pod. -/
def updatePod (pod : Pod D) : Inventory D × Outcome D :=
  if ∃ p ∈ s.pods, p.id = pod.id then
    ({ s with pods := s.pods.map fun p =>
        if p.id = pod.id then
          { p with
            nodeId := pod.nodeId, containerId := pod.containerId, containerIp := pod.containerIp
            status := pod.status, restartCount := pod.restartCount }
        else p }, .ok .unit)
  else s.refuse (.error (.podNotFound (D.uuid.print pod.id)))

/-- The deployments that are filed under a project, or all. -/
def deploymentsIn (project : Option String) : List (Deployment D) :=
  (s.deployments.filter fun f => project.all (f.project = ·)).map Filed.deployment

/-- The pods of a project, or all. -/
def podsIn (project : Option String) : List (Pod D) :=
  s.pods.filter fun p => project.all (p.project = ·)

/-- What there is after a call. -/
def does : StoreOp D → Inventory D
  | .insertProject project => (s.insertProject project).1
  | .updateProjectStatus name status => (s.updateProjectStatus name status).1
  | .deleteProject name => s.deleteProject name
  | .insertDeployment d => (s.insertDeployment d).1
  | .updateDeployment d => (s.updateDeployment d).1
  | .deleteDeployment id => s.deleteDeployment id
  | .insertPod pod => (s.insertPod pod).1
  | .updatePod pod => (s.updatePod pod).1
  | .deletePod id => { s with pods := s.pods.filter fun p => p.id ≠ id }
  | .getProject _ | .listProjects | .getDeployment .. | .listDeployments _ | .listPods _
  | .podsByDeployment _ => s

/-- What a call may answer. -/
def Answers : StoreOp D → Outcome D → Prop
  | .insertProject project, outcome => outcome = (s.insertProject project).2
  | .getProject name, outcome => outcome = .ok (.project (s.projects.find? fun p => p.name = name))
  | .listProjects, outcome =>
    ∃ found, outcome = .ok (.projects found) ∧ Lists Project.name s.projects found
  | .updateProjectStatus name status, outcome => outcome = (s.updateProjectStatus name status).2
  | .insertDeployment d, outcome => outcome = (s.insertDeployment d).2
  | .getDeployment project name, outcome => outcome = .ok (.deployment
      ((s.deployments.find? fun f => f.project = project ∧ f.name = name).map Filed.deployment))
  | .listDeployments project, outcome => ∃ found, outcome = .ok (.deployments found) ∧
      Lists (fun d => D.time.print d.createdAt) (s.deploymentsIn project) found
  | .updateDeployment d, outcome => outcome = (s.updateDeployment d).2
  | .insertPod pod, outcome => outcome = (s.insertPod pod).2
  | .listPods project, outcome => ∃ found, outcome = .ok (.pods found) ∧
      Lists (fun p => D.time.print p.createdAt) (s.podsIn project) found
  | .updatePod pod, outcome => outcome = (s.updatePod pod).2
  | .podsByDeployment id, outcome => ∃ found, outcome = .ok (.pods found) ∧
      Lists Pod.replicaIndex (s.pods.filter fun p => p.deploymentId = id) found
  | .deleteProject _, outcome | .deleteDeployment _, outcome | .deletePod _, outcome =>
    outcome = .ok .unit

variable (D) in
/-- What there is after some calls, newest first: those that ended well were done. -/
def after : List (StoreOp D × Outcome D) → Inventory D
  | [] => empty D
  | (op, .ok _) :: made => (after made).does op
  | (_, .error _) :: made => after made

end Inventory

/-- The calls on projects, deployments and pods of a store that was new once,
newest first, each with its end. Other calls may come in between. -/
inductive StoreCalls (D : Domain) (N : NodeText) : List (StoreOp D × Outcome D) → Db → Prop
  | new : StoreCalls D N [] (ofRows .cascade fun _ => [])
  | step {made : List (StoreOp D × Outcome D)} {db db' : Db} {op : StoreOp D} {outcome : Outcome D} :
      StoreCalls D N made db → Step db op outcome db' → StoreCalls D N ((op, outcome) :: made) db'
  | clusterStep {made : List (StoreOp D × Outcome D)} {db db' : Db} {op : ClusterOp}
      {outcome : ClusterOutcome} :
      StoreCalls D N made db → ClusterStep D N db op outcome db' → StoreCalls D N made db'

end Nexad.State
