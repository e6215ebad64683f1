import Nexad.Cluster.Placement
import Nexad.Laws.Cluster.Removal

/-!
# Pods whose node is gone

`remove_node` deletes the row of a node and looks at no pod. A pod that is
still assigned to it is then on a node that no pass of the monitor lists, so
it is never handed over. Every other step keeps pods on nodes that exist, so
no pod is ever stranded exactly when each deletion finds no pod on its node
(`pods_placed_iff`).
-/

namespace Nexad.Cluster

open Interleave

variable {D : Domain} {sha256 : List UInt8 → List UInt8} {server : ClusterServer}

/-- Every pod is on a node that exists. -/
def PodsPlaced (s : Shared D) : Prop := ∀ pod ∈ s.pods, Placed s pod

/-- The pod is among those that a monitor pass collects for a node it lists. -/
def Monitored (s : Shared D) (pod : Pod D) : Prop :=
  ∃ r ∈ s.nodes.list, pod ∈ s.pods.filter fun p => p.nodeId = some r.id

/-- The deletion of a node that a pod is on. -/
def Strands (s : Shared D) (e : Event (clusterSig D) Request) : Prop :=
  ∃ id, Deletes id e ∧ ∃ pod ∈ s.pods, pod.nodeId = some id

/-- A pod that is placed on a node is one that the monitor sees. -/
theorem PodsPlaced.monitored {s : Shared D} (h : PodsPlaced s) {pod : Pod D} {id : Uuid}
    (hpod : pod ∈ s.pods) (hid : pod.nodeId = some id) : Monitored s pod := by
  obtain ⟨r, hr, rfl⟩ := h pod hpod id hid
  exact ⟨r, List.mem_mergeSort.mpr hr, List.mem_filter.mpr ⟨hpod, decide_eq_true hid⟩⟩

/-- A step that keeps the pods and loses no id keeps them placed. -/
theorem PodsPlaced.step {s s' : Shared D} (h : PodsPlaced s) (hpods : s'.pods = s.pods)
    (hids : ∀ pod ∈ s.pods, ∀ r ∈ s.nodes.rows, pod.nodeId = some r.id →
      ∃ r' ∈ s'.nodes.rows, r'.id = r.id) : PodsPlaced s' := by
  intro pod hpod id hid
  rw [hpods] at hpod
  obtain ⟨r, hr, rfl⟩ := h pod hpod id hid
  exact hids pod hpod r hr hid

/-- The orchestrator's own writes keep pods placed. -/
theorem PodsPlaced.writesPod {s s' : Shared D} (h : PodsPlaced s) (hwrites : WritesPod s s') :
    PodsPlaced s' := by
  cases hwrites with
  | @insert pod pods placed inserted =>
    intro p hp
    rcases List.mem_cons.mp (inserted.subset hp) with rfl | hp
    · exact placed
    · exact h p hp
  | @update pod placed =>
    intro p hp
    obtain ⟨p', hp', rfl⟩ := List.mem_map.mp hp
    split
    · exact placed
    · exact h p' hp'
  | delete => exact fun p hp => h p (List.mem_filter.mp hp).1

section Run

variable {arrives : Request → Prop} {s₀ : Shared D} {l : MasterHistory D} {p : MasterPool D}

/-- Any step that deletes no node with a pod on it keeps pods placed. -/
theorem PodsPlaced.of_step {q q' : MasterPool D} {e : Event (clusterSig D) Request}
    (hstep : Step (orchestrated D sha256 server arrives) q e q') (hstrands : ¬ Strands q.state e)
    (h : PodsPlaced q.state) : PodsPlaced q'.state := by
  cases hstep with
  | arrive => exact h
  | env moves =>
    rcases moves with hticks | hwrites
    · cases hticks
      exact h
    · exact h.writesPod hwrites
  | @call k req op cont ans s' _ answered =>
    show PodsPlaced s'
    refine PodsPlaced.step h (Answered.pods answered) fun pod hpod r hr hid => ?_
    cases Answered.nodes answered with
    | same kept => exact ⟨r, kept ▸ hr, rfl⟩
    | insert done =>
      refine ⟨r, ?_, rfl⟩
      rw [(NodeTable.insert_ok done).1]
      exact List.mem_append_left _ hr
    | @update n done =>
      refine ⟨NodeTable.written n r, ?_, NodeTable.written_id n r⟩
      rw [(NodeTable.update_ok done).2]
      exact List.mem_map.mpr ⟨r, hr, rfl⟩
    | @delete id done =>
      have hne : r.id ≠ id := fun heq => hstrands ⟨id, ⟨k, req, rfl⟩, pod, hpod, heq ▸ hid⟩
      refine ⟨r, ?_, rfl⟩
      rw [done]
      exact List.mem_filter.mpr ⟨hr, decide_eq_true hne⟩

/-- Every pod is on a node that exists, and is seen by the monitor, in every
state of a run exactly when the run deletes no node that a pod is on. -/
theorem pods_placed_iff (h₀ : PodsPlaced s₀)
    (hrun : Run (orchestrated D sha256 server arrives) (.idle s₀) l p) :
    (∀ s, Run.Visited l p s → PodsPlaced s ∧
        ∀ pod ∈ s.pods, ∀ id, pod.nodeId = some id → Monitored s pod) ↔
      ∀ s e, (s, e) ∈ l → ¬ Strands s e := by
  constructor
  · rintro hplaced s e hmem ⟨id, hdeletes, pod, hpod, hid⟩
    obtain ⟨q, q', rfl, hstep, hvisited⟩ := hrun.visited_after hmem
    obtain ⟨k, req, rfl⟩ := hdeletes
    cases hstep with
    | @call _ _ _ _ _ s' _ answered =>
      have hpod : pod ∈ s'.pods := by
        rw [Answered.pods answered]
        exact hpod
      obtain ⟨r, hr, hrid⟩ := (hplaced s' hvisited).1 pod hpod id hid
      rw [Answered.delete answered] at hr
      exact of_decide_eq_true (List.mem_filter.mp hr).2 hrid
  · intro hstrands s hs
    have hplaced : PodsPlaced s := Run.visited h₀
      (fun q e q' hstep hkept hbefore => PodsPlaced.of_step hstep hkept hbefore) hrun hstrands hs
    exact ⟨hplaced, fun pod hpod id hid => hplaced.monitored hpod hid⟩

end Run

section Loaded

/-- A pod on the worker. -/
def workerPod : Pod .plain :=
  ⟨⟨7⟩, ⟨5⟩, "shop", "web", 0, some worker.id, none, none, "running", "nginx:1.25", 0, 0⟩

/-- A master whose token hash every token has, with its orchestrator. -/
abbrev openOrchestrated : Machine (clusterSig .plain) (Shared .plain) Request Reply :=
  orchestrated .plain (fun _ => []) ⟨""⟩ fun _ => True

/-- The drained worker with the pod. -/
def loaded : Shared .plain := { oneWorker .draining with pods := [workerPod] }

private theorem placed_workerPod {s : Shared .plain} (h : s.nodes.rows = [drainedWorker]) :
    Placed s workerPod := by
  rintro id hid
  cases hid
  rw [h]
  exact ⟨drainedWorker, List.mem_cons_self, rfl⟩

private theorem podsPlaced_loaded : PodsPlaced loaded := by
  intro pod hpod
  cases List.mem_singleton.mp hpod
  exact placed_workerPod rfl

theorem pods_placed_insert : ∃ (l : MasterHistory .plain) (p : MasterPool .plain),
    Run openOrchestrated (.idle (oneWorker .draining)) l p ∧ workerPod ∈ p.state.pods ∧
    ∀ s, Run.Visited l p s → PodsPlaced s ∧
      ∀ pod ∈ s.pods, ∀ id, pod.nodeId = some id → Monitored s pod := by
  have hwrites : WritesPod (oneWorker .draining) loaded :=
    .insert (placed_workerPod rfl) (.refl [workerPod])
  have hrun := (Run.start openOrchestrated (.idle (oneWorker .draining))).cons
    (.env (.inr hwrites))
  have hnone : PodsPlaced (oneWorker .draining) := fun pod hpod => absurd hpod List.not_mem_nil
  refine ⟨_, _, hrun, List.mem_cons_self, (pods_placed_iff hnone hrun).mpr fun s e hmem => ?_⟩
  rcases List.mem_singleton.mp hmem with heq
  cases heq
  rintro ⟨id, ⟨k, req, he⟩, -⟩
  cases he

/-- The removal of a drained node leaves its pod without a node. -/
theorem removal_strands_pod : ∃ (l : MasterHistory .plain) (p : MasterPool .plain),
    PodsPlaced loaded ∧ Run openOrchestrated (.idle loaded) l p ∧
    p.thread 0 = some (.removeNode "w1", .ret (.http 200 none)) ∧ ¬ PodsPlaced p.state := by
  have hread : (StoreCall.getNodeByName "w1").run loaded = (.ok (some drainedWorker), loaded) := rfl
  have hdelete : (StoreCall.deleteNode worker.id).run loaded =
      (.ok (), { loaded with nodes := loaded.nodes.delete worker.id }) := rfl
  have hrun := (Run.start openOrchestrated (.idle loaded)).arrive 0 (.removeNode "w1")
      rfl trivial
    |>.call 0 rfl (.store hread) |>.call 0 rfl (.store hdelete)
  refine ⟨_, _, podsPlaced_loaded, hrun, rfl, fun hplaced => ?_⟩
  obtain ⟨r, hr, hid⟩ := hplaced workerPod List.mem_cons_self worker.id rfl
  exact of_decide_eq_true (List.mem_filter.mp hr).2 hid

end Loaded

end Nexad.Cluster
