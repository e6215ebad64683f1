import Nexad.Laws.Cluster.System

/-!
# Draining a node

`drain_node` writes `Draining` and returns. The worker goes on sending pings
that say `ready`, and each of them writes the status it reports over the one
that is stored. So a drained node stays drained exactly as long as none of its
pings is written (`stays_drained_iff`).
-/

namespace Nexad.Cluster

open Interleave

variable {D : Domain} {sha256 : List UInt8 → List UInt8} {server : ClusterServer}

/-- Drains, monitor passes, and the pings of `run_heartbeat_sender`. -/
def DrainTraffic : Request → Prop
  | .heartbeat pings => ∀ ping ∈ pings, ping.status = "ready"
  | .checkNodes | .drainNode _ => True
  | _ => False

/-- The node with this id is stored as ready. -/
def IsReady (s : Shared D) (id : Uuid) : Prop := ∃ r ∈ s.nodes.rows, r.id = id ∧ r.status = .ready

/-- `drain_node` returns OK only from a write of `Draining` that succeeded. -/
theorem drainNode_ok {name : String} {op : Op D} {cont : op.Ans D → Code D} {ans : op.Ans D}
    (h : (Api.drainNode D name).Reaches (.call op cont)) (hok : cont ans = .ret (.http 200 none)) :
    ∃ n : Node, (⟨op, ans⟩ : (op : Op D) × op.Ans D) =
      ⟨.store (.updateNode { n with status := .draining }), .ok ()⟩ := by
  unfold Api.drainNode ask at h
  cases h with
  | refl =>
    match ans with
    | .ok (some node) => cases hok
    | .ok none => cases hok
    | .error e => cases hok
  | call found h =>
    match found with
    | .ok none => cases h
    | .error e => cases h
    | .ok (some node) =>
      cases h with
      | refl =>
        match ans with
        | .ok () => exact ⟨node, rfl⟩
        | .error e => cases hok
      | call written h =>
        match written with
        | .ok () => cases h
        | .error e => cases h

section Run

variable {s₀ s : Shared D} {l₀ : MasterHistory D} {p : MasterPool D} {k : Nat} {name : String}
  {op : Op D} {ans : op.Ans D}

/-- What the last step of a drain that returned OK was. -/
theorem drain_last
    (h : Run (master D sha256 server DrainTraffic) (.idle s₀)
      ((s, .call k (.drainNode name) op ans) :: l₀) p)
    (hok : p.thread k = some (.drainNode name, .ret (.http 200 none))) :
    ∃ n : Node, n.status = .draining ∧
      (⟨op, ans⟩ : (op : Op D) × op.Ans D) = ⟨.store (.updateNode n), .ok ()⟩ ∧
      s.nodes.update n = .ok (some p.state.nodes) := by
  cases h with
  | cons hrun hstep =>
    cases hstep with
    | @call _ _ op cont ans s' at_call answered =>
      rw [Pool.set_thread_self, Option.some.injEq, Prod.mk.injEq] at hok
      have hreaches : (Api.drainNode D name).Reaches (.call op cont) := hrun.reaches at_call
      obtain ⟨n, heq⟩ := drainNode_ok hreaches hok.2
      cases heq
      exact ⟨_, rfl, rfl, Answered.update answered⟩

end Run

/-- A written row is ready when it was written so. -/
theorem isReady_update {t : NodeTable} {s' : Shared D} {n : Node} {id : Uuid}
    (h : t.update n = .ok (some s'.nodes)) (hready : IsReady s' id) :
    (n.id = id ∧ n.status = .ready) ∨
      (n.id ≠ id ∧ ∃ r ∈ t.rows, r.id = id ∧ r.status = .ready) := by
  obtain ⟨r, hr, hid, hstatus⟩ := hready
  rcases NodeTable.mem_update h hr with ⟨hne, hold⟩ | ⟨r', -, -, rfl⟩
  · exact .inr ⟨fun h => hne (hid.trans h.symm), r, hold, hid, hstatus⟩
  · exact .inl ⟨hid, hstatus⟩

/-- Nothing but a ping makes a node ready. -/
theorem Step.not_ready {p p' : MasterPool D} {e : Event (clusterSig D) Request} {id : Uuid}
    (h : Step (master D sha256 server DrainTraffic) p e p')
    (hmakes : ∀ k req op ans, e = .call k req op ans → DrainTraffic req ∧ Makes sha256 req op)
    (hping : ¬ WritesPing id e) (hbefore : ¬ IsReady p.state id) : ¬ IsReady p'.state id := by
  cases h with
  | arrive => exact hbefore
  | env moves =>
    cases moves
    exact hbefore
  | @call k req op cont ans s' at_call answered =>
    obtain ⟨htraffic, hmade⟩ := hmakes k req op ans rfl
    cases Answered.nodes answered with
    | same kept =>
      intro hready
      have hready : ∃ r ∈ s'.nodes.rows, r.id = id ∧ r.status = .ready := hready
      rw [kept] at hready
      exact hbefore hready
    | insert => cases hmade with
      | registerInsert => exact htraffic.elim
    | delete => cases hmade with
      | removeDelete => exact htraffic.elim
    | @update n done =>
      intro hready
      rcases isReady_update done hready with ⟨hid, hstatus⟩ | ⟨-, hold⟩
      · cases hmade with
        | pingWrite => exact hping ⟨k, _, _, rfl, hid⟩
        | monitorWrite => cases hstatus
        | drainWrite => cases hstatus
      · exact hbefore hold

/-- Once `drain_node` has returned OK for a node, that node is never ready
again exactly when none of its pings is written any more. -/
theorem stays_drained_iff {s₀ s : Shared D} {l₀ : MasterHistory D} {p : MasterPool D} {k : Nat}
    {name : String} {op : Op D} {ans : op.Ans D}
    (hdrain : Run (master D sha256 server DrainTraffic) (.idle s₀)
      ((s, .call k (.drainNode name) op ans) :: l₀) p)
    (hok : p.thread k = some (.drainNode name, .ret (.http 200 none))) :
    ∃ n : Node, (⟨op, ans⟩ : (op : Op D) × op.Ans D) = ⟨.store (.updateNode n), .ok ()⟩ ∧
      ∀ l p', Run (master D sha256 server DrainTraffic) p l p' →
        ((∀ s', Run.Visited l p' s' → ¬ IsReady s' n.id) ↔
          ∀ s' e, (s', e) ∈ l → ¬ WritesPing n.id e) := by
  obtain ⟨n, hstatus, heq, hupdate⟩ := drain_last hdrain hok
  refine ⟨n, heq, fun l p' hrun => ?_⟩
  have hall := hdrain.trans hrun
  constructor
  · intro hnever s' e hmem hping
    obtain ⟨k', pings, m, rfl, hid⟩ := hping
    obtain ⟨q, q', -, hstep, hvisited⟩ := hrun.visited_after hmem
    refine hnever _ hvisited ?_
    have hmakes := Run.makes hall (List.mem_append_left _ hmem)
    cases hstep with
    | call _ answered =>
      obtain ⟨j, hj⟩ := NodeTable.exists_written (Answered.update answered)
      refine ⟨_, hj, hid, ?_⟩
      obtain ⟨htraffic, hmakes⟩ := hmakes
      cases hmakes with
      | @pingWrite _ ping sent now m =>
        have hready := htraffic ping sent
        simp [pinged, pingStatus, hready]
  · intro hpings s' hvisited
    have hstart : ¬ IsReady p.state n.id := by
      intro hready
      rcases isReady_update hupdate hready with ⟨-, hready⟩ | ⟨hne, -⟩
      · rw [hstatus] at hready
        cases hready
      · exact hne rfl
    have hkinds : ∀ s e, (s, e) ∈ l → (∀ k req op ans, e = .call k req op ans →
        DrainTraffic req ∧ Makes sha256 req op) ∧ ¬ WritesPing n.id e := fun s e hmem =>
      ⟨fun k req op ans heq => Run.makes hall (heq ▸ List.mem_append_left _ hmem),
        hpings s e hmem⟩
    exact Run.visited (I := fun s => ¬ IsReady s n.id) hstart
      (fun q e q' hstep hkind => Step.not_ready hstep hkind.1 hkind.2) hrun hkinds hvisited

section Worker

/-- The store with this worker and nothing else. -/
def oneWorker (status : NodeStatus) : Shared .plain where
  nodes := ⟨[{ worker with status }], by simp, by simp⟩
  config := fun _ => none
  pods := []
  clock := 0
  drawn := [⟨2⟩]

/-- The master that serves it; no token is ever hashed. -/
abbrev drainMaster : Machine (clusterSig .plain) (Shared .plain) Request Reply :=
  master .plain (fun _ => []) ⟨""⟩ DrainTraffic

private theorem read_worker : (StoreCall.getNodeByName "w1").run (oneWorker .ready) =
    (.ok (some worker), oneWorker .ready) := rfl

private theorem write_draining : (StoreCall.updateNode { worker with status := .draining }).run
    (oneWorker .ready) = (.ok (), oneWorker .draining) := rfl

private theorem drainMaster_idle :
    Run drainMaster (.idle (oneWorker .ready)) [] (.idle (oneWorker .ready)) := .nil

private theorem drained_run : ∃ op ans l p, Run drainMaster (.idle (oneWorker .ready))
    ((oneWorker .ready, .call 0 (.drainNode "w1") op ans) :: l) p ∧
    (⟨op, ans⟩ : (op : Op .plain) × op.Ans .plain) =
      ⟨.store (.updateNode { worker with status := .draining }), .ok ()⟩ ∧
    p.thread 0 = some (.drainNode "w1", .ret (.http 200 none)) ∧ p.thread 1 = none ∧
    p.state = oneWorker .draining := by
  have hrun := drainMaster_idle.arrive 0 (.drainNode "w1") rfl trivial |>.call 0 rfl
    (.store read_worker) |>.call 0 rfl (.store write_draining)
  exact ⟨_, _, _, _, hrun, rfl, rfl, rfl, rfl⟩

/-- Another worker. -/
def secondWorker : Node :=
  { worker with id := ⟨3⟩, name := "w2", address := "10.0.0.3:6444" }

/-- The store with both workers, the second last heard of at `beat`. -/
def bothWorkers (status₁ status₂ : NodeStatus) (beat clock : DateTime) : Shared .plain where
  nodes := ⟨[{ worker with status := status₁ },
    { secondWorker with status := status₂, lastHeartbeat := beat }],
      by simp [worker, secondWorker], by simp [worker, secondWorker]⟩
  config := fun _ => none
  pods := []
  clock := clock
  drawn := [⟨3⟩, ⟨2⟩]

private theorem list_bothWorkers (status₁ status₂ : NodeStatus) (beat clock : DateTime) :
    StoreCall.listNodes.run (bothWorkers status₁ status₂ beat clock) =
      (.ok [{ worker with status := status₁ },
        { secondWorker with status := status₂, lastHeartbeat := beat }],
        bothWorkers status₁ status₂ beat clock) := by
  have hsorted : (bothWorkers status₁ status₂ beat clock).nodes.list =
      (bothWorkers status₁ status₂ beat clock).nodes.rows :=
    List.mergeSort_of_pairwise (by simp [bothWorkers, worker, secondWorker])
  rw [StoreCall.run, hsorted]
  rfl

/-- The pool once the first worker is drained. -/
def drained : MasterPool .plain :=
  (Pool.idle (bothWorkers .draining .ready 0 0)).set (bothWorkers .draining .ready 0 0) 0
    (.drainNode "w1", .ret (.http 200 none))

private theorem first_drain : Run drainMaster (.idle (bothWorkers .ready .ready 0 0))
    [(bothWorkers .ready .ready 0 0, .call 0 (.drainNode "w1")
        (.store (.updateNode { worker with status := .draining })) (.ok ())),
      (bothWorkers .ready .ready 0 0, .call 0 (.drainNode "w1") (.store (.getNodeByName "w1"))
        (.ok (some worker))),
      (bothWorkers .ready .ready 0 0, .arrive 0 (.drainNode "w1"))] drained := by
  have hread : (StoreCall.getNodeByName "w1").run (bothWorkers .ready .ready 0 0) =
      (.ok (some worker), bothWorkers .ready .ready 0 0) := rfl
  have hwrite : (StoreCall.updateNode { worker with status := .draining }).run
      (bothWorkers .ready .ready 0 0) = (.ok (), bothWorkers .draining .ready 0 0) := rfl
  have hrun := (Run.start drainMaster (.idle (bothWorkers .ready .ready 0 0))).arrive 0
    (.drainNode "w1") rfl trivial |>.call 0 rfl (.store hread) |>.call 0 rfl (.store hwrite)
  rw [Pool.set_set, Pool.set_set] at hrun
  exact hrun

/-- The ping of the second worker. -/
def secondPing : HeartbeatPing := ⟨Uuid.hyphenated ⟨3⟩, "ready", none⟩

/-- After the drain: half a minute passes and a monitor pass marks both workers,
then the first worker is drained again while the second one's ping is served. -/
def afterDrain : MasterHistory .plain :=
  let later := 35_000_000_000
  [(bothWorkers .draining .ready later later, .call 3 (.heartbeat [secondPing]) .sendPong false),
    (bothWorkers .draining .notReady 0 later, .call 3 (.heartbeat [secondPing])
      (.store (.updateNode { secondWorker with lastHeartbeat := later })) (.ok ())),
    (bothWorkers .notReady .notReady 0 later, .call 2 (.drainNode "w1")
      (.store (.updateNode { worker with status := .draining })) (.ok ())),
    (bothWorkers .notReady .notReady 0 later, .call 3 (.heartbeat [secondPing]) .now later),
    (bothWorkers .notReady .notReady 0 later, .call 3 (.heartbeat [secondPing])
      (.store (.getNode ⟨3⟩)) (.ok (some { secondWorker with status := .notReady }))),
    (bothWorkers .notReady .notReady 0 later, .arrive 3 (.heartbeat [secondPing])),
    (bothWorkers .notReady .notReady 0 later, .call 2 (.drainNode "w1")
      (.store (.getNodeByName "w1")) (.ok (some { worker with status := .notReady }))),
    (bothWorkers .notReady .notReady 0 later, .arrive 2 (.drainNode "w1")),
    (bothWorkers .notReady .ready 0 later, .call 1 .checkNodes
      (.store (.updateNode { secondWorker with status := .notReady })) (.ok ())),
    (bothWorkers .draining .ready 0 later, .call 1 .checkNodes
      (.store (.updateNode { worker with status := .notReady })) (.ok ())),
    (bothWorkers .draining .ready 0 later, .call 1 .checkNodes .now later),
    (bothWorkers .draining .ready 0 later, .call 1 .checkNodes (.store .listNodes)
      (.ok [{ worker with status := .draining }, secondWorker])),
    (bothWorkers .draining .ready 0 later, .arrive 1 .checkNodes),
    (bothWorkers .draining .ready 0 0, .env)]

private theorem afterDrain_run : ∃ p', Run drainMaster drained afterDrain p' ∧
    p'.state = bothWorkers .draining .ready 35_000_000_000 35_000_000_000 := by
  have hlist := list_bothWorkers .draining .ready 0 35_000_000_000
  have hmark₁ : (StoreCall.updateNode { worker with status := .notReady }).run
      (bothWorkers .draining .ready 0 35_000_000_000) =
        (.ok (), bothWorkers .notReady .ready 0 35_000_000_000) := rfl
  have hmark₂ : (StoreCall.updateNode { secondWorker with status := .notReady }).run
      (bothWorkers .notReady .ready 0 35_000_000_000) =
        (.ok (), bothWorkers .notReady .notReady 0 35_000_000_000) := rfl
  have hread : (StoreCall.getNodeByName "w1").run (bothWorkers .notReady .notReady 0 35_000_000_000) =
      (.ok (some { worker with status := .notReady }),
        bothWorkers .notReady .notReady 0 35_000_000_000) := rfl
  have hfound : (StoreCall.getNode ⟨3⟩).run (bothWorkers .notReady .notReady 0 35_000_000_000) =
      (.ok (some { secondWorker with status := .notReady }),
        bothWorkers .notReady .notReady 0 35_000_000_000) := rfl
  have hdrain : (StoreCall.updateNode { worker with status := .draining }).run
      (bothWorkers .notReady .notReady 0 35_000_000_000) =
        (.ok (), bothWorkers .draining .notReady 0 35_000_000_000) := rfl
  have hping : (StoreCall.updateNode { secondWorker with lastHeartbeat := 35_000_000_000 }).run
      (bothWorkers .draining .notReady 0 35_000_000_000) =
        (.ok (), bothWorkers .draining .ready 35_000_000_000 35_000_000_000) := rfl
  have hparse : Domain.plain.uuid.parse secondPing.nodeId = .ok ⟨3⟩ := by decide
  have hcode : drainMaster.code (.heartbeat [secondPing]) =
      ask (.getNode ⟨3⟩) (servePing .plain secondPing (.ret .streamEnd)) := heartbeat_cons hparse
  have hready : DrainTraffic (.heartbeat [secondPing]) := by simp [DrainTraffic, secondPing]
  have hpass := ((Run.start drainMaster drained).cons (.env (.tick (by decide)))).arrive 1
    .checkNodes rfl trivial |>.call 1 rfl (.store hlist) |>.call 1 rfl .now
    |>.call 1 rfl (.store hmark₁) |>.call 1 rfl (.store hmark₂)
  have harrive := hpass.arrive 2 (.drainNode "w1") rfl trivial |>.call 2 rfl (.store hread)
    |>.arrive 3 (.heartbeat [secondPing]) rfl hready
  rw [hcode] at harrive
  have hrun := harrive.call 3 rfl (.store hfound) |>.call 3 rfl .now
    |>.call 2 rfl (.store hdrain) |>.call 3 rfl (.store hping) |>.call 3 rfl (.sendPong false)
  exact ⟨_, hrun, rfl⟩

theorem stays_drained_worker : ∃ p : MasterPool .plain,
    drained.thread 0 = some (.drainNode "w1", .ret (.http 200 none)) ∧
    Run drainMaster drained afterDrain p ∧
    ∀ s, Run.Visited afterDrain p s → ¬ IsReady s worker.id := by
  obtain ⟨p, hafter, -⟩ := afterDrain_run
  obtain ⟨n, heq, hiff⟩ := stays_drained_iff first_drain rfl
  cases heq
  refine ⟨p, rfl, hafter, (hiff afterDrain p hafter).mpr fun s e hmem hping => ?_⟩
  obtain ⟨k, pings, n, rfl, hid⟩ := hping
  have hsecond : n = { secondWorker with lastHeartbeat := 35_000_000_000 } := by
    simp only [afterDrain, List.mem_cons, Prod.mk.injEq, List.not_mem_nil, or_false] at hmem
    rcases hmem with ⟨-, he⟩ | ⟨-, he⟩ | ⟨-, he⟩ | ⟨-, he⟩ | ⟨-, he⟩ | ⟨-, he⟩ | ⟨-, he⟩ |
      ⟨-, he⟩ | ⟨-, he⟩ | ⟨-, he⟩ | ⟨-, he⟩ | ⟨-, he⟩ | ⟨-, he⟩ | ⟨-, he⟩ <;> cases he
    rfl
  rw [hsecond] at hid
  cases hid

/-- The worker's next ping undoes the drain. -/
theorem ping_undoes_drain : ∃ l l' p p', Run drainMaster (.idle (oneWorker .ready)) l p ∧
    p.thread 0 = some (.drainNode "w1", .ret (.http 200 none)) ∧
    Run drainMaster p l' p' ∧ IsReady p'.state worker.id := by
  obtain ⟨_, _, l, p, hrun, -, hok, hfree, hstate⟩ := drained_run
  have hparse : Domain.plain.uuid.parse (Uuid.hyphenated ⟨2⟩) = .ok ⟨2⟩ := by decide
  have hget : p.state.nodes.get ⟨2⟩ = some { worker with status := .draining } := by
    rw [hstate]
    rfl
  have hupdate : p.state.nodes.update (pinged ⟨Uuid.hyphenated ⟨2⟩, "ready", none⟩ p.state.clock
      { worker with status := .draining }) = .ok (some (oneWorker .ready).nodes) := by
    rw [hstate]
    rfl
  obtain ⟨l', p', hping, hnodes, -⟩ := ping_run (D := .plain) hfree
    (show DrainTraffic (.heartbeat [⟨Uuid.hyphenated ⟨2⟩, "ready", none⟩]) by simp [DrainTraffic])
    hparse hget hupdate
  refine ⟨_, _, p, p', hrun, hok, hping, worker, ?_, rfl, rfl⟩
  rw [hnodes]
  exact List.mem_cons_self

end Worker

end Nexad.Cluster
