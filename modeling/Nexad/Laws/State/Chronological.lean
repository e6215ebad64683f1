import Nexad.Base.Rfc3339
import Nexad.Laws.State.RowEncoding

/-!
# Lists in the order of their times

The lists of deployments and of pods are ordered by a column of text. In the
years 0 to 9999 the texts of times are in the order of the times
(`Rfc3339.text_le_text_iff`), fractions of a second or not, so that what is
listed is in the order in which it was created (`lists_chronological`).
-/

namespace Nexad.State

open Relational Results

variable {D : Domain} {N : NodeText} {db : Db}

/-- Times are written as RFC 3339 has it. -/
def WritesRfc3339 (D : Domain) : Prop :=
  ∀ t : DateTime, Rfc3339.InYears t → D.time.print t = Rfc3339.text t

/-- A query that orders by a column of times answers in their order. -/
theorem StoreInv.fetchAll_sorted {α : Type} {t : TableName} {schema : Schema TableName Column}
    {columns : List Column} (h : StoreInv db) (hs : schemaAt .cascade t = some schema)
    (hcovers : schema.Covers columns) (p : DbRow → Bool) (c : Column) (scan : Scan Column)
    (decode : DbRecord → Except Failure α) (time : α → DateTime)
    (hrow : ∀ r ∈ db.rows t, p r = true → ∃ a, decode (recordOf columns r) = .ok a ∧
      r c = .text (Rfc3339.text (time a)) ∧ Rfc3339.InYears (time a))
    {found : List α} (hfound : fetchAll D decode (db.select columns t p (some (c, scan))) = .ok found) :
    found.Pairwise fun a b => time a ≤ time b := by
  obtain ⟨tbl, ht, rfl⟩ := h.table hs
  rw [Database.rows_of_some ht] at hrow
  let timeOf (r : DbRow) : DateTime :=
    match decode (recordOf columns r) with
    | .ok a => time a
    | .error _ => 0
  -- on these rows the order of the texts is that of the times
  have hsort : scan.sorted c (tbl.rows.filter p) =
      (scan.order (tbl.rows.filter p)).mergeSort fun r r' => decide (timeOf r ≤ timeOf r') := by
    have hle : ∀ r ∈ scan.order (tbl.rows.filter p), ∀ r' ∈ scan.order (tbl.rows.filter p),
        (r c).le (r' c) = decide (timeOf (id r) ≤ timeOf (id r')) := by
      intro r hr r' hr'
      rw [(scan.perm _).mem_iff] at hr hr'
      obtain ⟨a, ha, htext, hyears⟩ := hrow r (List.mem_of_mem_filter hr) (List.of_mem_filter hr)
      obtain ⟨a', ha', htext', hyears'⟩ :=
        hrow r' (List.mem_of_mem_filter hr') (List.of_mem_filter hr')
      simp only [htext, htext', Value.le, timeOf, id, ha, ha',
        Rfc3339.text_le_text_iff hyears hyears']
    have hmap := List.map_mergeSort (r := fun r r' => (r c).le (r' c))
      (s := fun r r' => decide (timeOf r ≤ timeOf r')) (f := id) hle
    rwa [List.map_id, List.map_id] at hmap
  have hsorted : ((scan.order (tbl.rows.filter p)).mergeSort fun r r' =>
      decide (timeOf r ≤ timeOf r')).Pairwise fun r r' => timeOf r ≤ timeOf r' := by
    refine (List.pairwise_mergeSort (fun a b c hab hbc => ?_) (fun a b => ?_) _).imp
      fun hle => of_decide_eq_true hle
    · exact decide_eq_true (Int.le_trans (of_decide_eq_true hab) (of_decide_eq_true hbc))
    · rw [Bool.or_eq_true, decide_eq_true_iff, decide_eq_true_iff]
      exact Int.le_total _ _
  have hloop : ((scan.order (tbl.rows.filter p)).mergeSort fun r r' =>
      decide (timeOf r ≤ timeOf r')).mapM
      (fun r => decode (recordOf columns r)) = .ok found := by
    rw [← hsort, ← hfound, fetchAll, Database.select, ht]
    simp only [if_neg (not_not.mpr hcovers), Option.elim_some]
    show _ = ((_ : List DbRow).map (recordOf columns)).mapM decode
    rw [List.mapM_map]
    rfl
  have hkey : ∀ r a, decode (recordOf columns r) = .ok a → time a = timeOf r := by
    intro r a ha
    simp only [timeOf, ha]
  have hmap := map_of_mapM_eq_ok hloop fun r _ a => hkey r a
  rw [← List.pairwise_map (f := time) (R := fun t t' : Int => t ≤ t'), hmap]
  exact List.pairwise_map.mpr hsorted

/-- A row is that of the deployment, in the project if one is named. -/
def HoldsDeploymentIn (db : Db) (project : Option String) (d : Deployment D) : Prop :=
  ∃ project' name specJson, (∀ named ∈ project, project' = named) ∧
    D.specToJson d.spec = .ok specJson ∧
    rowOfDeployment project' name specJson d ∈ db.rows .deployments

theorem HoldsDeploymentIn.holds {project : Option String} {d : Deployment D}
    (h : HoldsDeploymentIn db project d) : HoldsDeployment db d := by
  obtain ⟨project', name, specJson, -, hjson, hd⟩ := h
  exact ⟨project', name, specJson, hjson, hd⟩

section Lists

variable (hread : ReadsBack D N) (h : StoreState D N db)

include hread h

/-- Every deployment of a project, or of all, is listed. -/
theorem listDeployments_eq (scan : Scan Column) (project : Option String) : ∃ deployments,
    listDeployments D scan db project = .ok deployments ∧
    ∀ d, d ∈ deployments ↔ HoldsDeploymentIn db project d := by
  have hwritten : ∀ r ∈ db.rows .deployments, ∃ (d : Deployment D) (project name specJson : String),
      D.specToJson d.spec = .ok specJson ∧ r = rowOfDeployment project name specJson d := by
    intro r hr
    obtain ⟨project', name, specJson, d, hjson, hd⟩ := h.written .deployments r hr
    exact ⟨d, project', name, specJson, hjson, hd⟩
  have hdecode : ∀ r ∈ db.rows .deployments, ∀ d : Deployment D, (∃ project name specJson : String,
      D.specToJson d.spec = .ok specJson ∧ r = rowOfDeployment project name specJson d) →
      rowToDeployment D (recordOf deploymentColumns r) = .ok d := by
    rintro _ - d ⟨project', name, specJson, hjson, rfl⟩
    exact rowToDeployment_rowOf hread hjson
  obtain ⟨deployments, hdeployments, hmem⟩ := h.inv.fetchAll_eq (D := D) (t := .deployments) rfl
    (by simp [Schema.Covers, deploymentColumns, deploymentsSchema])
    (project.elim (fun _ => true) (whereText .project)) (some (.createdAt, scan)) _ hwritten hdecode
  refine ⟨deployments, hdeployments, fun d => (hmem d).trans ?_⟩
  constructor
  · rintro ⟨_, hr, hp, project', name, specJson, hjson, rfl⟩
    exact ⟨project', name, specJson, (selected_iff rfl project).mp hp, hjson, hr⟩
  · rintro ⟨project', name, specJson, hproject, hjson, hr⟩
    exact ⟨_, hr, (selected_iff rfl project).mpr hproject, project', name, specJson, hjson, rfl⟩

variable (hwrites : WritesRfc3339 D)

include hwrites

theorem listDeployments_sorted
    (hyears : ∀ d : Deployment D, HoldsDeployment db d → Rfc3339.InYears d.createdAt)
    {scan : Scan Column} {project : Option String} {deployments : List (Deployment D)}
    (hlist : listDeployments D scan db project = .ok deployments) :
    deployments.Pairwise fun d d' => d.createdAt ≤ d'.createdAt := by
  refine h.inv.fetchAll_sorted (t := .deployments) rfl
    (by simp [Schema.Covers, deploymentColumns, deploymentsSchema]) _ _ _ _ Deployment.createdAt
    (fun r hr _ => ?_) hlist
  obtain ⟨project', name, specJson, d, hjson, rfl⟩ := h.written .deployments r hr
  have hcreated := hyears d ⟨project', name, specJson, hjson, hr⟩
  exact ⟨d, rowToDeployment_rowOf hread hjson, congrArg Value.text (hwrites _ hcreated), hcreated⟩

theorem listPods_sorted (hyears : ∀ p : Pod D, HoldsPod db p → Rfc3339.InYears p.createdAt)
    {scan : Scan Column} {project : Option String} {pods : List (Pod D)}
    (hlist : listPods D scan db project = .ok pods) :
    pods.Pairwise fun p p' => p.createdAt ≤ p'.createdAt := by
  refine h.inv.fetchAll_sorted (t := .pods) rfl
    (by simp [Schema.Covers, podColumns, podsSchema]) _ _ _ _ Pod.createdAt (fun r hr _ => ?_) hlist
  obtain ⟨p, rfl⟩ := h.written .pods r hr
  have hcreated := hyears p hr
  exact ⟨p, rowToPod_rowOf hread p, congrArg Value.text (hwrites _ hcreated), hcreated⟩

end Lists

/-- Whatever the scan of the rows, the lists answer with what is stored in the order
of its times, the order of the column being that of the times in every year from
0 to 9999. -/
theorem lists_chronological (hread : ReadsBack D N) (hwrites : WritesRfc3339 D)
    (h : StoreState D N db)
    (hdeployments : ∀ d : Deployment D, HoldsDeployment db d → Rfc3339.InYears d.createdAt)
    (hpods : ∀ p : Pod D, HoldsPod db p → Rfc3339.InYears p.createdAt) :
    (∀ scan project, ∃ deployments, listDeployments D scan db project = .ok deployments ∧
      (∀ d, d ∈ deployments ↔ HoldsDeploymentIn db project d) ∧
      deployments.Pairwise fun d d' => d.createdAt ≤ d'.createdAt) ∧
    (∀ (scan : Scan Column) (project : Option String), ∃ pods, listPods D scan db project = .ok pods ∧
      (∀ p, p ∈ pods ↔ HoldsPod db p ∧ ∀ name ∈ project, p.project = name) ∧
      pods.Pairwise fun p p' => p.createdAt ≤ p'.createdAt) ∧
    ∀ t t' : DateTime, Rfc3339.InYears t → Rfc3339.InYears t' →
      ((Value.text (D.time.print t)).le (.text (D.time.print t')) = true ↔ t ≤ t') := by
  refine ⟨fun scan project => ?_, fun scan project => ?_, fun t t' ht ht' => ?_⟩
  · obtain ⟨deployments, hlist, hmem⟩ := listDeployments_eq hread h scan project
    exact ⟨deployments, hlist, hmem, listDeployments_sorted hread h hwrites hdeployments hlist⟩
  · obtain ⟨pods, hlist, hmem⟩ := listPods_eq hread h scan project
    exact ⟨pods, hlist, hmem, listPods_sorted hread h hwrites hpods hlist⟩
  · rw [hwrites t ht, hwrites t' ht', Value.le, decide_eq_true_iff]
    exact Rfc3339.text_le_text_iff ht ht'

section Shop

/-- RFC 3339 in the years 0 to 9999, strokes outside them. -/
def datedTime : TextForm DateTime where
  print t := if Rfc3339.InYears t then Rfc3339.text t else shopTime.print t
  parse s :=
    match s.toList.head? with
    | some c => if c.isDigit then .ok (Rfc3339.ofText s) else shopTime.parse s
    | none => shopTime.parse s

theorem datedTime_inverse : datedTime.Inverse := by
  intro t
  by_cases ht : Rfc3339.InYears t
  · obtain ⟨c, hhead, hdigit⟩ := Rfc3339.head_text t
    simp only [datedTime, if_pos ht, hhead, hdigit, Rfc3339.ofText_text ht]
    rfl
  · have hzero : t ≠ 0 := by
      rintro rfl
      exact ht (by decide)
    have hsecond : t ≠ 1000000000 := by
      rintro rfl
      exact ht (by decide)
    have hparse := shopTime_inverse t
    have hhead : (shopTime.print t).toList.head? = some '-' ∨
        (shopTime.print t).toList.head? = some '+' := by
      simp only [shopTime, if_neg hzero, if_neg hsecond, String.toList_ofList]
      by_cases hneg : t < 0
      · exact .inl (by rw [if_pos hneg]; rfl)
      · exact .inr (by rw [if_neg hneg]; rfl)
    simp only [datedTime, if_neg ht]
    rcases hhead with hhead | hhead
    · rw [hhead]
      exact hparse
    · rw [hhead]
      exact hparse

/-- The crate of the shop, with times as they are. -/
def Domain.dated : Domain := { Domain.shop with time := datedTime }

theorem dated_readsBack : ReadsBack Domain.dated NodeText.shop where
  uuid := shop_readsBack.uuid
  time := datedTime_inverse
  deploymentStatus := shop_readsBack.deploymentStatus
  podStatus := shop_readsBack.podStatus
  role := shop_readsBack.role
  nodeStatus := shop_readsBack.nodeStatus
  spec := shop_readsBack.spec

/-- A store with the later deployment first, half a second after the other, and
a pod. -/
def datedShop : Db :=
  [.insertProject ⟨"shop", "active", 0⟩,
    .insertDeployment ⟨⟨1⟩, ShopSpec.web, "running", 1500000000, 0⟩,
    .insertDeployment ⟨⟨2⟩, ShopSpec.api, "running", 1000000000, 0⟩,
    .insertPod ⟨⟨3⟩, ⟨1⟩, "shop", "web", 0, none, none, none, "running", "web:1", 0, 1500000001⟩].foldl
      (fun db (op : StoreOp Domain.dated) => (op.run .inserted db).1) (ofRows .cascade fun _ => [])

theorem datedShop_state : StoreState Domain.dated NodeText.shop datedShop :=
  (((StoreState.new.step (.run _)).step (.run _)).step (.run _)).step (.run _)

theorem datedShop_deployments (d : Deployment Domain.dated) (h : HoldsDeployment datedShop d) :
    Rfc3339.InYears d.createdAt := by
  obtain ⟨project, name, specJson, -, hd⟩ := h
  have hrows : ∀ r ∈ datedShop.rows .deployments, r .createdAt = .text (datedTime.print 1500000000) ∨
      r .createdAt = .text (datedTime.print 1000000000) := by decide
  rcases hrows _ hd with htext | htext
  · rw [datedTime_inverse.injective (Value.text.inj htext)]
    decide
  · rw [datedTime_inverse.injective (Value.text.inj htext)]
    decide

theorem datedShop_pods (p : Pod Domain.dated) (h : HoldsPod datedShop p) :
    Rfc3339.InYears p.createdAt := by
  have hrows : ∀ r ∈ datedShop.rows .pods,
      r .createdAt = .text (datedTime.print 1500000001) := by decide
  rw [datedTime_inverse.injective (Value.text.inj (hrows _ h))]
  decide

theorem lists_chronological_dated :
    (∃ deployments, listDeployments Domain.dated .newest datedShop none = .ok deployments ∧
      (∀ d, d ∈ deployments ↔ HoldsDeploymentIn datedShop none d) ∧
      deployments.Pairwise fun d d' => d.createdAt ≤ d'.createdAt) ∧
    ∃ pods, listPods Domain.dated .newest datedShop none = .ok pods ∧
      (∀ p, p ∈ pods ↔ HoldsPod datedShop p ∧ ∀ name ∈ (none : Option String), p.project = name) ∧
      pods.Pairwise fun p p' => p.createdAt ≤ p'.createdAt := by
  obtain ⟨hdeployments, hpods, -⟩ := lists_chronological dated_readsBack (fun _ ht => if_pos ht)
    datedShop_state datedShop_deployments datedShop_pods
  exact ⟨hdeployments .newest none, hpods .newest none⟩

end Shop

end Nexad.State
