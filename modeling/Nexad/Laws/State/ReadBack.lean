import Nexad.Laws.Core.Uuid
import Nexad.Laws.State.Rows

/-!
# What an update leaves to be read

An update that is acknowledged has found the row of its id and written the
columns that its statement names. The others keep what the insertion gave
them: the project, the name and `created_at` of a deployment, the origin of a
pod (`Pod.SameOrigin`) and the `joined_at` of a node. So the value that is read
back is the value passed with those fields as they were, and it is the value
passed exactly when they agree (`updates_read_back`).
-/

namespace Nexad

/-- What `update_pod` does not write. -/
structure Pod.SameOrigin {D : Domain} (p p' : Pod D) : Prop where
  deploymentId : p.deploymentId = p'.deploymentId
  project : p.project = p'.project
  deploymentName : p.deploymentName = p'.deploymentName
  replicaIndex : p.replicaIndex = p'.replicaIndex
  image : p.image = p'.image
  createdAt : p.createdAt = p'.createdAt

/-- The pod with the origin of another. -/
def Pod.withOrigin {D : Domain} (p origin : Pod D) : Pod D :=
  { p with
    deploymentId := origin.deploymentId
    project := origin.project
    deploymentName := origin.deploymentName
    replicaIndex := origin.replicaIndex
    image := origin.image
    createdAt := origin.createdAt }

theorem Pod.withOrigin_eq_iff {D : Domain} {p origin : Pod D} :
    p.withOrigin origin = p ↔ origin.SameOrigin p := by
  constructor
  · intro h
    rw [← h]
    exact ⟨rfl, rfl, rfl, rfl, rfl, rfl⟩
  · rintro ⟨hdeployment, hproject, hname, hindex, himage, hcreated⟩
    rw [withOrigin, hdeployment, hproject, hname, hindex, himage, hcreated]

/-- Every field is equal, numbers as numbers. -/
structure Node.Equals (n n' : Node) : Prop where
  id : n.id = n'.id
  name : n.name = n'.name
  address : n.address = n'.address
  role : n.role = n'.role
  status : n.status = n'.status
  cpuCores : n.resources.cpuCores.equals n'.resources.cpuCores = true
  memoryBytes : n.resources.memoryBytes = n'.resources.memoryBytes
  cpuAvailable : n.resources.cpuAvailable.equals n'.resources.cpuAvailable = true
  memoryAvailable : n.resources.memoryAvailable = n'.resources.memoryAvailable
  runningPods : n.resources.runningPods = n'.resources.runningPods
  lastHeartbeat : n.lastHeartbeat = n'.lastHeartbeat
  joinedAt : n.joinedAt = n'.joinedAt

theorem F64.stored_equals {x : F64} (h : x.isNaN = false) : x.stored.equals x = true := by
  unfold stored
  by_cases hzero : x.isZero = true
  · have hpositive : F64.isNaN ⟨0⟩ = false ∧ F64.isZero ⟨0⟩ = true := by decide
    simp [equals, hzero, hpositive]
  · simp [equals, hzero, h]

theorem Node.stored_equals {n : Node} (hcores : n.resources.cpuCores.isNaN = false)
    (havailable : n.resources.cpuAvailable.isNaN = false) : n.stored.Equals n :=
  ⟨rfl, rfl, rfl, rfl, rfl, F64.stored_equals hcores, rfl, F64.stored_equals havailable, rfl, rfl,
    rfl, rfl⟩

namespace State

open Relational

variable {D : Domain} {N : NodeText} {db db' : Db}

/-! ## Reading a value back -/

/-- `get_deployment` answers with the deployment. -/
def GetsDeployment (db : Db) (d : Deployment D) : Prop :=
  getDeployment D db (D.project d.spec) (D.deploymentName d.spec) = .ok (some d)

/-- `pods_by_deployment` lists the pod. -/
def ListsPod (scan : Scan Column) (db : Db) (p : Pod D) : Prop :=
  ∃ pods, podsByDeployment D scan db p.deploymentId = .ok pods ∧ p ∈ pods

variable (D N) in
/-- `get_node` answers with the node. -/
def GetsNode (db : Db) (n : Node) : Prop :=
  ∃ found, getNode D N db n.id = .ok (some found) ∧ found.Equals n

section Queries

variable (hread : ReadsBack D N) (h : StoreState D N db)

include hread h

theorem listsPod_iff {scan : Scan Column} {p : Pod D} :
    ListsPod scan db p ↔ rowOfPod p ∈ db.rows .pods := by
  obtain ⟨pods, hpods, hmem⟩ := podsByDeployment_eq hread h scan p.deploymentId
  constructor
  · rintro ⟨pods', hpods', hp⟩
    rw [hpods] at hpods'
    cases hpods'
    exact ((hmem p).mp hp).2
  · exact fun hp => ⟨pods, hpods, (hmem p).mpr ⟨rfl, hp⟩⟩

theorem getsNode_of_mem {n : Node} (hn : rowOfNode D N n ∈ db.rows .nodes) : GetsNode D N db n := by
  obtain ⟨hcores, havailable⟩ := h.node_isNaN hn
  exact ⟨n.stored, (getNode_iff hread h).mpr ⟨n, rfl, rfl, hn⟩,
    Node.stored_equals hcores havailable⟩

end Queries

/-! ## Acknowledged updates -/

/-- An acknowledged update has written a row. -/
theorem affected_row {missing : NexaError} {t : TableName} {p : DbRow → Bool}
    {sets : List (Column × Value)}
    (h : affected D db missing (db.update true t p sets) = (db', .ok ())) :
    ∃ r ∈ db.rows t, p r = true ∧ r.assign sets ∈ db'.rows t := by
  cases hupdate : db.update true t p sets with
  | error e =>
    rw [hupdate] at h
    cases (congrArg Prod.snd h : Except.error (runtimeError D e) = Except.ok ())
  | ok done =>
    obtain ⟨db₁, n⟩ := done
    rw [hupdate] at h
    obtain ⟨rfl, hn⟩ := Prod.mk.inj h
    refine Database.update_mem hupdate fun hzero => ?_
    rw [if_pos hzero] at hn
    cases hn

/-- The deployment with this id was there, and is there with what was passed. -/
structure DeploymentUpdated (db db' : Db) (d : Deployment D) (project name : String)
    (old : Deployment D) : Prop where
  id : old.id = d.id
  before : getDeployment D db project name = .ok (some old)
  after : getDeployment D db' project name = .ok (some { d with createdAt := old.createdAt })
  whole : GetsDeployment db' d ↔
    project = D.project d.spec ∧ name = D.deploymentName d.spec ∧ old.createdAt = d.createdAt

/-- The pod with this id was there, and is there with what was passed. -/
structure PodUpdated (db db' : Db) (p old : Pod D) : Prop where
  id : old.id = p.id
  before : ∀ scan, ListsPod scan db old
  after : ∀ scan, ListsPod scan db' (p.withOrigin old)
  whole : ∀ scan, ListsPod scan db' p ↔ old.SameOrigin p

variable (D N) in
/-- The node with this id was there, and is there with what was passed. -/
structure NodeUpdated (db db' : Db) (n old : Node) : Prop where
  id : old.id = n.id
  before : GetsNode D N db old
  after : GetsNode D N db' { n with joinedAt := old.joinedAt }
  whole : GetsNode D N db' n ↔ old.joinedAt = n.joinedAt

section Updates

variable (hread : ReadsBack D N) (h : StoreState D N db)

include hread h

theorem updateDeployment_reads_back {d : Deployment D} (hd : updateDeployment db d = (db', .ok ())) :
    ∃ project name old, DeploymentUpdated db db' d project name old := by
  have h' : StoreState D N db' := h.ran (.updateDeployment d) (congrArg Prod.fst hd)
  cases hjson : D.specToJson d.spec with
  | error e =>
    rw [updateDeployment, hjson] at hd
    cases (congrArg Prod.snd hd : Except.error (Failure.error (.serialization e)) = Except.ok ())
  | ok specJson =>
    rw [updateDeployment, hjson] at hd
    obtain ⟨r, hr, hselected, hwritten⟩ := affected_row hd
    obtain ⟨project, name, oldJson, old, hold, rfl⟩ := h.written .deployments r hr
    have hid : old.id = d.id := hread.uuid.injective (Value.text.inj (decide_eq_true_iff.mp hselected))
    rw [rowOfDeployment_assign, hid] at hwritten
    refine ⟨project, name, old, hid, (getDeployment_iff hread h).mpr ⟨oldJson, hold, hr⟩,
      (getDeployment_iff hread h').mpr ⟨specJson, hjson, hwritten⟩, ?_⟩
    rw [GetsDeployment, getDeployment_iff hread h']
    constructor
    · -- the row of the passed value would have the same id, so it is the row written
      rintro ⟨specJson', -, hr'⟩
      have hsame := h'.inv.deployment_eq hwritten hr' rfl
      have hcreated := Value.text.inj (congrFun hsame .createdAt)
      exact ⟨Value.text.inj (congrFun hsame .project), Value.text.inj (congrFun hsame .name),
        hread.time.injective hcreated⟩
    · rintro ⟨rfl, rfl, hcreated⟩
      rw [hcreated] at hwritten
      exact ⟨specJson, hjson, hwritten⟩

theorem updatePod_reads_back {p : Pod D} (hp : updatePod db p = (db', .ok ())) :
    ∃ old, PodUpdated db db' p old := by
  have h' : StoreState D N db' := h.ran (.updatePod p) (congrArg Prod.fst hp)
  obtain ⟨r, hr, hselected, hwritten⟩ := affected_row hp
  obtain ⟨old, rfl⟩ := h.written .pods r hr
  have hid : old.id = p.id := hread.uuid.injective (Value.text.inj (decide_eq_true_iff.mp hselected))
  have horigin : rowOfPod (p.withOrigin old) ∈ db'.rows .pods := by
    rw [rowOfPod_assign, hid] at hwritten
    exact hwritten
  refine ⟨old, hid, fun _ => (listsPod_iff hread h).mpr hr, fun _ => (listsPod_iff hread h').mpr horigin,
    fun scan => ?_⟩
  rw [listsPod_iff hread h', ← Pod.withOrigin_eq_iff]
  constructor
  · intro hr'
    have hsame := h'.inv.pod_eq horigin hr' rfl
    have hdecoded := rowToPod_rowOf hread (p.withOrigin old)
    rw [hsame, rowToPod_rowOf hread p] at hdecoded
    exact (Except.ok.inj hdecoded).symm
  · intro hsame
    rw [hsame] at horigin
    exact horigin

theorem updateNode_reads_back {n : Node} (hn : updateNode D N db n = (db', .ok ())) :
    ∃ old, NodeUpdated D N db db' n old := by
  have h' : StoreState D N db' := h.clusterRan (.updateNode n) (congrArg Prod.fst hn)
  obtain ⟨r, hr, hselected, hwritten⟩ := affected_row hn
  obtain ⟨old, rfl⟩ := h.written .nodes r hr
  have hid : old.id = n.id := hread.uuid.injective (Value.text.inj (decide_eq_true_iff.mp hselected))
  rw [rowOfNode_assign, hid] at hwritten
  refine ⟨old, hid, getsNode_of_mem hread h hr, getsNode_of_mem hread h' hwritten, ?_⟩
  constructor
  · rintro ⟨found, hfound, hequals⟩
    obtain ⟨n', hid', hstored, hr'⟩ := (getNode_iff hread h').mp hfound
    have hsame := h'.node_eq hwritten hr' (congrArg (fun id => Value.text (D.uuid.print id)) hid'.symm)
    have hjoined := hread.time.injective (Value.text.inj (congrFun hsame .joinedAt))
    rw [hjoined, ← hequals.joinedAt, ← hstored]
    rfl
  · intro hjoined
    rw [hjoined] at hwritten
    exact getsNode_of_mem hread h' hwritten

end Updates

/-- What an update acknowledges is what is then read, except in the columns it
does not write: those stay as they were, and the value passed is read back
whole exactly when it agrees with them. -/
theorem updates_read_back (hread : ReadsBack D N) (h : StoreState D N db) (db' : Db) :
    (∀ d : Deployment D, updateDeployment db d = (db', .ok ()) →
      ∃ project name old, DeploymentUpdated db db' d project name old) ∧
    (∀ p : Pod D, updatePod db p = (db', .ok ()) → ∃ old, PodUpdated db db' p old) ∧
    ∀ n : Node, updateNode D N db n = (db', .ok ()) → ∃ old, NodeUpdated D N db db' n old :=
  ⟨fun _ hd => updateDeployment_reads_back hread h hd, fun _ hp => updatePod_reads_back hread h hp,
    fun _ hn => updateNode_reads_back hread h hn⟩

/-! ## A shop -/

section Shop

/-- The specs of a shop. -/
inductive ShopSpec where
  | web
  | api
  deriving DecidableEq, Repr

namespace ShopSpec

def name : ShopSpec → String
  | web => "web"
  | api => "api"

def json : ShopSpec → String
  | web => "[\"shop\",\"web\"]"
  | api => "[\"shop\",\"api\"]"

def ofJson (s : String) : Except String ShopSpec :=
  if s = web.json then .ok web else if s = api.json then .ok api else .error "invalid spec"

theorem ofJson_json (spec : ShopSpec) : ofJson spec.json = .ok spec := by
  cases spec with
  | web => exact if_pos rfl
  | api =>
    have hne : api.json ≠ web.json := by decide
    rw [ofJson, if_neg hne, if_pos rfl]

end ShopSpec

/-- The first seconds of the epoch in their usual spelling, other times in strokes. -/
def shopTime : TextForm DateTime where
  print t :=
    if t = 0 then "1970-01-01T00:00:00+00:00"
    else if t = 1000000000 then "1970-01-01T00:00:01+00:00"
    else String.ofList ((if t < 0 then '-' else '+') :: List.replicate t.natAbs '|')
  parse s :=
    if s = "1970-01-01T00:00:00+00:00" then .ok 0
    else if s = "1970-01-01T00:00:01+00:00" then .ok 1000000000
    else match s.toList with
      | '-' :: strokes => .ok (-(strokes.length : Int))
      | '+' :: strokes => .ok strokes.length
      | _ => .error "input contains invalid characters"

theorem shopTime_inverse : shopTime.Inverse := by
  intro t
  have hstart : ∀ (c : Char) (cs : List Char) (s : String), s.toList.head? ≠ some c →
      String.ofList (c :: cs) ≠ s := by
    rintro c cs _ hhead rfl
    rw [String.toList_ofList] at hhead
    exact hhead rfl
  simp only [shopTime]
  by_cases hzero : t = 0
  · rw [if_pos hzero, if_pos rfl, hzero]
  · by_cases hsecond : t = 1000000000
    · rw [if_neg hzero, if_pos hsecond, if_neg (by decide), if_pos rfl, hsecond]
    · rw [if_neg hzero, if_neg hsecond]
      by_cases hneg : t < 0
      · rw [if_pos hneg, if_neg (hstart _ _ _ (by decide)), if_neg (hstart _ _ _ (by decide)),
          String.toList_ofList]
        have hvalue : -((List.replicate t.natAbs '|').length : Int) = t := by
          rw [List.length_replicate, Int.ofNat_natAbs_of_nonpos (Int.le_of_lt hneg), Int.neg_neg]
        exact congrArg Except.ok hvalue
      · rw [if_neg hneg, if_neg (hstart _ _ _ (by decide)), if_neg (hstart _ _ _ (by decide)),
          String.toList_ofList]
        have hvalue : ((List.replicate t.natAbs '|').length : Int) = t := by
          rw [List.length_replicate, Int.natAbs_of_nonneg (Int.not_lt.mp hneg)]
        exact congrArg Except.ok hvalue

/-- The crate of the shop. -/
def Domain.shop : Domain where
  ProjectStatus := String
  DeploymentStatus := String
  PodStatus := String
  DeploymentSpec := ShopSpec
  projectStatus := .verbatim
  deploymentStatus := .verbatim
  podStatus := .verbatim
  uuid := Domain.plain.uuid
  time := shopTime
  specToJson := fun spec => .ok spec.json
  specFromJson := ShopSpec.ofJson
  project := fun _ => "shop"
  deploymentName := ShopSpec.name
  zeroResources := Domain.plain.zeroResources
  nodeStatusText := Domain.plain.nodeStatusText
  errorText := Domain.plain.errorText
  sqlError := Domain.plain.sqlError

/-- The texts of its nodes. -/
def NodeText.shop : NodeText where
  role := {
    print := fun role => match role with
      | .master => "master"
      | .worker => "worker"
    parse := fun s =>
      if s = "master" then .ok .master
      else if s = "worker" then .ok .worker
      else .error "unknown node role" }
  parseStatus := fun s =>
    if s = "ready" then .ok .ready
    else if s = "not_ready" then .ok .notReady
    else if s = "draining" then .ok .draining
    else .error "unknown node status"

theorem shop_readsBack : ReadsBack Domain.shop NodeText.shop where
  uuid := Domain.plain_uuid.parse_print
  time := shopTime_inverse
  deploymentStatus := fun _ => rfl
  podStatus := fun _ => rfl
  role := fun role => by cases role <;> decide
  nodeStatus := fun status => by cases status <;> decide
  spec := fun spec json hjson => by
    cases hjson
    exact ShopSpec.ofJson_json spec

def shopDeployment : Deployment Domain.shop := ⟨⟨1⟩, .web, "running", 0, 0⟩

def shopPod : Pod Domain.shop :=
  ⟨⟨2⟩, ⟨1⟩, "shop", "web", 0, none, some "c1", none, "running", "web:1", 0, 0⟩

/-- With four cores and 8 GiB. -/
def shopNode : Node :=
  ⟨⟨3⟩, "worker-1", "10.0.0.1:9000", .worker, .ready,
    ⟨⟨0x4010000000000000⟩, 8589934592, ⟨0x4010000000000000⟩, 8589934592, 1⟩, 0, 0⟩

/-- The store with a project, a deployment, its pod, and a node. -/
def usedShop : Db :=
  ((ClusterOp.insertNode shopNode).run Domain.shop NodeText.shop .inserted
    ([.insertProject ⟨"shop", "active", 0⟩, .insertDeployment shopDeployment, .insertPod shopPod].foldl
      (fun db (op : StoreOp Domain.shop) => (op.run .inserted db).1) (ofRows .cascade fun _ => []))).1

theorem usedShop_state : StoreState Domain.shop NodeText.shop usedShop :=
  (((StoreState.new.step (.run _)).step (.run _)).step (.run _)).clusterStep (.run _)

/-- The deployment, stopped. -/
def stoppedDeployment : Deployment Domain.shop := { shopDeployment with status := "stopped" }

/-- The pod, restarted. -/
def restartedPod : Pod Domain.shop := { shopPod with restartCount := 1 }

/-- The node, draining. -/
def drainingNode : Node := { shopNode with status := .draining }

theorem updates_read_back_shop :
    (∃ project name old, DeploymentUpdated usedShop (updateDeployment usedShop stoppedDeployment).1
      stoppedDeployment project name old) ∧
    (∃ old, PodUpdated usedShop (updatePod usedShop restartedPod).1 restartedPod old) ∧
    ∃ old, NodeUpdated Domain.shop NodeText.shop usedShop
      (updateNode Domain.shop NodeText.shop usedShop drainingNode).1 drainingNode old :=
  ⟨(updates_read_back shop_readsBack usedShop_state _).1 _ (Prod.ext rfl (by decide)),
    (updates_read_back shop_readsBack usedShop_state _).2.1 _ (Prod.ext rfl (by decide)),
    (updates_read_back shop_readsBack usedShop_state _).2.2 _ (Prod.ext rfl (by decide))⟩

/-- The deployment under another name. -/
def renamedDeployment : Deployment Domain.shop := { shopDeployment with spec := ShopSpec.api }

/-- The pod with another image. -/
def upgradedPod : Pod Domain.shop := { shopPod with image := "web:2" }

/-- The node, joined a second later. -/
def rejoinedNode : Node := { shopNode with joinedAt := 1000000000 }

/-- All three updates are acknowledged, and none of the values is read back. -/
theorem updates_keep_columns :
    StoreState Domain.shop NodeText.shop usedShop ∧
    ((updateDeployment usedShop renamedDeployment).2 = .ok () ∧
      ¬ GetsDeployment (updateDeployment usedShop renamedDeployment).1 renamedDeployment) ∧
    ((updatePod usedShop upgradedPod).2 = .ok () ∧
      ∀ scan, ¬ ListsPod scan (updatePod usedShop upgradedPod).1 upgradedPod) ∧
    ((updateNode Domain.shop NodeText.shop usedShop rejoinedNode).2 = .ok () ∧
      ¬ GetsNode Domain.shop NodeText.shop
        (updateNode Domain.shop NodeText.shop usedShop rejoinedNode).1 rejoinedNode) := by
  have hdeployment := usedShop_state.ran (.updateDeployment renamedDeployment) rfl
  have hpod := usedShop_state.ran (.updatePod upgradedPod) rfl
  have hnode := usedShop_state.clusterRan (.updateNode rejoinedNode) rfl
  refine ⟨usedShop_state, ⟨by decide, fun hgets => ?_⟩, ⟨by decide, fun scan hlists => ?_⟩, by decide,
    fun hgets => ?_⟩
  · obtain ⟨_, -, hr⟩ := (getDeployment_iff shop_readsBack hdeployment).mp hgets
    have hname : ∀ r ∈ (updateDeployment usedShop renamedDeployment).1.rows .deployments,
        r .name ≠ .text "api" := by decide
    exact hname _ hr rfl
  · have hr := (listsPod_iff shop_readsBack hpod).mp hlists
    have himage : ∀ r ∈ (updatePod usedShop upgradedPod).1.rows .pods,
        r .image ≠ .text "web:2" := by decide
    exact himage _ hr rfl
  · obtain ⟨found, hfound, hequals⟩ := hgets
    obtain ⟨n, -, rfl, hr⟩ := (getNode_iff shop_readsBack hnode).mp hfound
    have hjoined : n.joinedAt = 1000000000 := hequals.joinedAt
    have hcolumn : ∀ r ∈ (updateNode Domain.shop NodeText.shop usedShop rejoinedNode).1.rows .nodes,
        r .joinedAt ≠ .text (shopTime.print 1000000000) := by decide
    exact hcolumn _ hr (congrArg (fun t => Value.text (shopTime.print t)) hjoined)

end Shop

end State

end Nexad
