import Nexad.Laws.Transport.AssignPod
import Nexad.Laws.Transport.Concurrent
import Nexad.Transport.Grpc

/-!
# Assignments to other machines

Whoever is told that a pod was assigned over gRPC was told so by the worker that
the node's client was connected to when it was looked up, and that worker has
made the pod's container (`remote_assignments`). What gets lost on the way may
leave a container that nobody was told of, but none on another worker.
-/

namespace Nexad

open Interleave Nexad.Runtime Cluster

variable {D : Domain} {W : Workload D} {G : GrpcCrates D} {pod : Pod D} {spec : D.DeploymentSpec}

/-! ## The calls of the master -/

/-- The request of an assignment is for its pod. -/
theorem Encoder.RoundTrips.request_for {E : Encoder D} (h : E.RoundTrips W pod spec) {req : AssignPodRequest}
    (hreq : GrpcTransport.assignPodRequest E pod spec = .ok req) :
    AssignRequest.For W (.clusterServer req) pod spec :=
  .clusterServer (h.read hreq).1 (h.read hreq).2

/-- And for no other. -/
theorem Encoder.RoundTrips.eq_of_for {E : Encoder D} (h : E.RoundTrips W pod spec) {req : AssignPodRequest}
    (hreq : GrpcTransport.assignPodRequest E pod spec = .ok req) {pod' : Pod D} {spec' : D.DeploymentSpec}
    (hfor : AssignRequest.For W (.clusterServer req) pod' spec') : pod' = pod ∧ spec' = spec := by
  obtain ⟨hpod, hspec⟩ := h.read hreq
  cases hfor with
  | clusterServer pod_read spec_read =>
    exact ⟨Except.ok.inj (pod_read.symm.trans hpod), Except.ok.inj (spec_read.symm.trans hspec)⟩

/-- A request that is sent is the one of an assignment. -/
def Sends (G : GrpcCrates D) (calls : TransportCall D → Prop) (call : TransportCall D) : (grpcSig D).Op → Prop
  | .send _ req => ∃ nodeId pod spec r, call = .assignPod nodeId pod spec ∧ calls call ∧
      GrpcTransport.assignPodRequest G.toEncoder pod spec = .ok r ∧ req = .clusterServer r
  | .own _ | .await .. => True

theorem TransportCall.sends {calls : TransportCall D → Prop} (call : TransportCall D) (hcall : calls call) :
    (call.code G).Every (Sends G calls call) := by
  cases call with
  | addClient nodeId address =>
    refine ⟨trivial, fun connected => ?_⟩
    match connected with
    | .error (.fromShared _) => exact trivial
    | .error (.connect _) => exact trivial
    | .ok () => exact ⟨trivial, fun _ => trivial⟩
  | removeClient nodeId => exact ⟨trivial, fun _ => trivial⟩
  | assignPod nodeId pod spec =>
    refine ⟨trivial, fun found => ?_⟩
    match found with
    | none => exact trivial
    | some address =>
      dsimp only
      cases hreq : GrpcTransport.assignPodRequest G.toEncoder pod spec with
      | error e => exact trivial
      | ok req =>
        refine ⟨⟨nodeId, pod, spec, req, rfl, hcall, hreq, rfl⟩, fun sent => ?_⟩
        match sent with
        | .error _ => exact trivial
        | .ok thread =>
          refine ⟨trivial, fun replied => ?_⟩
          match replied with
          | .error _ => exact trivial
          | .ok (.error _) => exact trivial
          | .ok (.ok resp) =>
            dsimp only
            split
            · exact trivial
            · exact trivial

/-- The calls of an assignment that succeeded: the client is looked up, and the
worker that it is connected to replies that the pod is there. -/
theorem GrpcTransport.assignPod_path {nodeId : Uuid} {l : List ((op : (grpcSig D).Op) × (grpcSig D).Ans op)}
    (h : (GrpcTransport.assignPod G nodeId pod spec).Path l (.ret (.ok ()))) :
    ∃ address req thread resp, GrpcTransport.assignPodRequest G.toEncoder pod spec = .ok req ∧
      resp.success = true ∧
      l = [⟨.own (.get nodeId), (some address : Option String)⟩,
        ⟨.send address (.clusterServer req), (.ok thread : Except String Nat)⟩,
        ⟨.await address thread, (.ok (.ok resp) : Except String (Except AssignPodStatus AssignPodResponse))⟩] := by
  cases h with
  | call found h =>
    match found, h with
    | none, h => cases h
    | some address, h =>
      dsimp only at h
      cases hreq : GrpcTransport.assignPodRequest G.toEncoder pod spec with
      | error e =>
        rw [hreq] at h
        cases h
      | ok req =>
        rw [hreq] at h
        cases h with
        | call sent h =>
          match sent, h with
          | .error _, h => cases h
          | .ok thread, h =>
            cases h with
            | call replied h =>
              match replied, h with
              | .error _, h => cases h
              | .ok (.error _), h => cases h
              | .ok (.ok resp), h =>
                dsimp only at h
                by_cases hsuccess : resp.success = true
                · rw [if_pos hsuccess] at h
                  cases h
                  exact ⟨address, req, thread, resp, rfl, hsuccess, rfl⟩
                · rw [if_neg hsuccess] at h
                  cases h

/-! ## Runs -/

section Run

variable {E : Engine} {calls : TransportCall D → Prop} {arrives : String → AssignRequest D → Prop}
  {clients : Clients} {t₀ : String → E.State}
  {l : History (grpcSig D) (Net Clients String engineSig E.State (AssignRequest D) AssignReply) (TransportCall D)}
  {p : Pool (grpcSig D) (Net Clients String engineSig E.State (AssignRequest D) AssignReply) (TransportCall D)
    (Except NexaError Unit)}

/-- The requests that a worker gets in a run: those of others, and the master's. -/
def Gets (arrives : String → AssignRequest D → Prop)
    (l : History (grpcSig D) (Net Clients String engineSig E.State (AssignRequest D) AssignReply) (TransportCall D))
    (address : String) (req : AssignRequest D) : Prop :=
  arrives address req ∨ ∃ s k call ans, (s, .call k call (.send address req) ans) ∈ l

/-- No pod of the master's has a name that a daemon takes for something else. -/
def PlainCalls (W : Workload D) (calls : TransportCall D → Prop) : Prop :=
  ∀ nodeId pod spec, calls (.assignPod nodeId pod spec) →
    Plain (W.containerName pod) ∧ '/' ∉ (D.project spec).toList

/-- What is sent in a run is the request of an assignment. -/
theorem request_sent {s₀} (hrun : Run (grpcCluster E W G calls arrives) (.idle s₀) l p) {s} {k : Nat}
    {call : TransportCall D} {address : String} {req : AssignRequest D} {ans : Except String Nat}
    (hmem : (s, .call k call (.send address req) ans) ∈ l) : Sends G calls call (.send address req) :=
  (hrun.every (P := Sends G calls) (fun call hcall => call.sends hcall) (Pool.idle_every _ _)).2 s k call _ ans hmem

theorem Gets.plain (hround : ∀ nodeId pod spec, calls (.assignPod nodeId pod spec) → G.RoundTrips W pod spec)
    (hcalls : PlainCalls W calls) (harrives : ∀ address, PlainRequests W (arrives address)) {s₀}
    (hrun : Run (grpcCluster E W G calls arrives) (.idle s₀) l p) (address : String) :
    PlainRequests W (Gets arrives l address) := by
  rintro req pod spec (hother | ⟨s, k, call, ans, hmem⟩) hfor
  · exact harrives address req pod spec hother hfor
  · obtain ⟨nodeId, pod', spec', r, rfl, hcall, hreq, rfl⟩ := request_sent hrun hmem
    obtain ⟨rfl, rfl⟩ := (hround nodeId pod' spec' hcall).eq_of_for hreq hfor
    exact hcalls nodeId pod spec hcall

/-- What a worker does in a run is a run of the worker by itself, on the requests it gets. -/
theorem worker_run
    (hrun : Run (grpcCluster E W G calls arrives)
      (.idle ⟨clients, fun address => .idle (t₀ address)⟩) l p)
    (address : String) : ∃ l',
      Run (worker E W (Gets arrives l address)) (.idle (t₀ address)) l' (p.state.server address) :=
  hrun.at_server (Gets arrives l) (fun _ _ hother => .inl hother)
    (fun s k call _ _ ans hmem => .inr ⟨s, k, call, ans, hmem⟩) address

/-- The client that is found is the one that is kept. -/
theorem found_client {s₀} (hrun : Run (grpcCluster E W G calls arrives) (.idle s₀) l p) {s} {k : Nat}
    {call : TransportCall D} {nodeId : Uuid} {found : Option String}
    (hmem : (s, .call k call (.own (.get nodeId)) found) ∈ l) : s.here nodeId = found := by
  obtain ⟨_, _, q, q', -, rfl, -, hstep, -⟩ := hrun.split hmem
  cases hstep with
  | call _ answered => exact answered.1.1.symm

/-- In any interleaving of a master's calls with what its workers do, with
clients that are added and removed, and requests and replies that get lost:
whoever is told that a pod was assigned to a node was told so by the worker that
the node's client was connected to when it was looked up. In that worker's own
run the thread of this request has made the pod's container, and the worker's
daemon has it, or another request for the name to the same worker has asked for
its removal since. A container that no request to its worker names is what it was. -/
theorem remote_assignments (hE : E.Documented)
    (hnames : ∀ address name c, (E.stock (t₀ address)).container name = some c → ¬ IsId name)
    (hround : ∀ nodeId pod spec, calls (.assignPod nodeId pod spec) → G.RoundTrips W pod spec)
    (hcalls : PlainCalls W calls) (harrives : ∀ address, PlainRequests W (arrives address))
    (hrun : Run (grpcCluster E W G calls arrives) (.idle ⟨clients, fun address => .idle (t₀ address)⟩) l p) :
    (∀ k nodeId pod spec, p.thread k = some (.assignPod nodeId pod spec, .ret (.ok ())) →
      ∃ s address req thread l', (s, .call k (.assignPod nodeId pod spec) (.own (.get nodeId))
          (some address : Option String)) ∈ l ∧ s.here nodeId = some address ∧
        GrpcTransport.assignPodRequest G.toEncoder pod spec = .ok req ∧
        Run (worker E W (Gets arrives l address)) (.idle (t₀ address)) l' (p.state.server address) ∧
        MadeBy E W pod spec thread (.clusterServer req) l' (p.state.server address).state) ∧
    ∀ address name, (∀ req, Gets arrives l address req → ¬ req.Names W name) →
      ((E.stock (p.state.server address).state).container name).map EngineContainer.made =
        ((E.stock (t₀ address)).container name).map EngineContainer.made := by
  constructor
  · intro k nodeId pod spec hk
    obtain ⟨address, req, thread, resp, hreq, hsuccess, hown⟩ := GrpcTransport.assignPod_path (hrun.path hk)
    have hevent : ∀ op ans, ⟨op, ans⟩ ∈ History.calls k l →
        ∃ s, (s, .call k (.assignPod nodeId pod spec) op ans) ∈ l := fun op ans => hrun.event_of_call hk
    rw [hown] at hevent
    obtain ⟨s, hfound⟩ := hevent _ _ List.mem_cons_self
    obtain ⟨s₁, hsent⟩ := hevent _ _ (List.mem_cons_of_mem _ List.mem_cons_self)
    obtain ⟨s₂, hreplied⟩ := hevent _ _ (List.mem_cons_of_mem _ (List.mem_cons_of_mem _ List.mem_cons_self))
    obtain ⟨-, -, -, -, -, hcall, -, -⟩ := request_sent hrun hsent
    have hfor := (hround nodeId pod spec hcall).request_for hreq
    have hended := hrun.replied hsent hreplied
    obtain ⟨l', hl'⟩ := worker_run hrun address
    exact ⟨s, address, req, thread, l', hfound, found_client hrun hfound, hreq, hl',
      docker_made hE (hnames address) (Gets.plain hround hcalls harrives hrun address) hl' hfor hended hsuccess⟩
  · intro address name hother
    obtain ⟨l', hl'⟩ := worker_run hrun address
    exact docker_others hE (hnames address) (Gets.plain hround hcalls harrives hrun address) hl' hother

end Run

/-! ## A run -/

/-- The JSON of the pod of the shop. -/
def cartPodJson : String :=
  "\x7b\"id\":\"00000000-0000-0000-0000-000000000007\"," ++
  "\"deployment_id\":\"00000000-0000-0000-0000-000000000003\",\"project\":\"shop\"," ++
  "\"deployment_name\":\"cart\",\"replica_index\":0,\"node_id\":null,\"container_id\":null," ++
  "\"container_ip\":null,\"status\":\"pending\",\"image\":\"nginx:1.25\",\"restart_count\":0," ++
  "\"created_at\":\"1970-01-01T00:00:00Z\"\x7d"

/-- The JSON of its spec. -/
def cartSpecJson : String := "[\"shop\",\"cart\"]"

/-- What reads them. -/
def cartWorkload : Workload Domain.plain :=
  { Workload.plain with
    podFromSlice := fun data =>
      if data = utf8 cartPodJson then .ok cartPod else .error "EOF while parsing a value"
    specFromSlice := fun data =>
      if data = utf8 cartSpecJson then .ok ("shop", "cart") else .error "EOF while parsing a value" }

/-- What writes them. -/
def cartCrates : GrpcCrates Domain.plain where
  podToVec := fun _ => .ok (utf8 cartPodJson)
  specToVec := fun _ => .ok (utf8 cartSpecJson)
  statusText := fun status => match status with
    | .invalidArgument message => "status: InvalidArgument, message: \"" ++ message ++ "\""

theorem cartCrates_roundTrips : cartCrates.RoundTrips cartWorkload cartPod ("shop", "cart") where
  pod := by
    intro data h
    rw [← Except.ok.inj h]
    simp only [cartWorkload, if_true]
  spec := by
    intro data h
    rw [← Except.ok.inj h]
    simp only [cartWorkload, if_true]

/-- The node of a worker, where it listens, and the client of it. -/
def cartNode : Uuid := ⟨5⟩

def cartAddress : String := "10.0.0.2:6445"

def cartClients : Clients := fun nodeId => if nodeId = cartNode then some cartAddress else none

/-- The pod is to be assigned to the node. -/
def cartCall : TransportCall Domain.plain := .assignPod cartNode cartPod ("shop", "cart")

def cartAssignPod : AssignPodRequest := ⟨utf8 cartPodJson, utf8 cartSpecJson⟩

theorem cart_encoded : GrpcTransport.assignPodRequest cartCrates.toEncoder cartPod ("shop", "cart") =
    .ok cartAssignPod := rfl

/-- A master that is asked for this only, and workers that nobody else asks. -/
def cartCluster : Machine (grpcSig Domain.plain)
    (Net Clients String engineSig DaemonState (AssignRequest Domain.plain) AssignReply)
    (TransportCall Domain.plain) (Except NexaError Unit) :=
  grpcCluster obedient cartWorkload cartCrates (· = cartCall) fun _ _ => False

/-- The workers have nothing yet. -/
def cartStart : Net Clients String engineSig DaemonState (AssignRequest Domain.plain) AssignReply :=
  ⟨cartClients, fun _ => .idle (.bare [])⟩

/-- What a worker does for a request over the network. -/
theorem worker_code (E : Engine) (W : Workload D) (arrives : AssignRequest D → Prop) (req : AssignPodRequest) :
    (worker E W arrives).code (.clusterServer req) =
      ((ClusterServer.assignPod W req).bind fun result => .ret (.clusterServer result)).via DockerRuntime.serve := rfl

/-- A worker that nobody else asks. -/
def cartWorker : Machine engineSig DaemonState (AssignRequest Domain.plain) AssignReply :=
  worker obedient cartWorkload fun _ => False

abbrev CartPool := Pool engineSig DaemonState (AssignRequest Domain.plain) AssignReply

/-- The worker once the request has become a thread of it. -/
def cartArrived (u : CartPool) (thread : Nat) : CartPool :=
  u.set u.state thread (.clusterServer cartAssignPod, cartWorker.code (.clusterServer cartAssignPod))

/-- The servers when the worker has come to this. -/
def cartAt (u : CartPool) : Net Clients String engineSig DaemonState (AssignRequest Domain.plain) AssignReply :=
  ⟨cartClients, Function.update (fun _ => .idle (.bare [])) cartAddress u⟩

theorem cartAt_server (u : CartPool) : (cartAt u).server cartAddress = u := by
  simp only [cartAt, Function.update_self]

theorem cartAt_other (u : CartPool) {address : String} (h : address ≠ cartAddress) :
    (cartAt u).server address = .idle (.bare []) := by
  simp only [cartAt, Function.update_of_ne h]

theorem cartStart_eq : cartStart = cartAt (.idle (.bare [])) := by
  rw [cartAt, Function.update_eq_self_iff.mpr rfl, cartStart]

def cartResponse (id : String) : AssignPodResponse := ⟨true, "running", id⟩

/-- The code of the worker serves the request as that of a machine does. -/
theorem cartWorker_contends : Contends (cartWorker.code (.clusterServer cartAssignPod))
    (.clusterServer (.ok (cartResponse idOfWeb))) (.clusterServer (.ok (cartResponse idOfCart))) := by
  obtain ⟨hpod, hspec⟩ := cartCrates_roundTrips.read cart_encoded
  rw [cartWorker, worker_code]
  unfold ClusterServer.assignPod
  rw [hpod, hspec]
  constructor
  · exact ⟨_, _, _, .call cart_pulled (.call (cart_listed [] cartName) (.call (cart_listed [] cartNetwork)
      (.call cart_networked (.call cart_created (.refl _ _))))), .call cart_started (.refl _ _)⟩
  · exact ⟨_, _, _, _, _, .call cart_pulled (.refl _ _), .call (cart_seen false) (.refl _ _),
      .call cart_stopped (.call cart_removed (.call (cart_listed [cartNetwork] cartNetwork) (.call cart_refused
        (.call cart_created (.call cart_started (.refl _ _))))))⟩

/-- The master sends the request, and gets the reply of its thread once there is one. -/
theorem cart_call {u v : CartPool} {thread : Nat} {id : String} (hfree : u.thread thread = none)
    (hreplied : v.thread thread =
      some (.clusterServer cartAssignPod, .ret (.clusterServer (.ok (cartResponse id))))) :
    ∃ q sent awaited, (cartCluster.code cartCall).Moves cartCluster.answer (cartAt u) sent q
        (cartAt (cartArrived u thread)) ∧
      q.Moves cartCluster.answer (cartAt v) awaited (.ret (.ok ())) (cartAt v) := by
  have hget : cartCluster.answer (cartAt u) (.own (.get cartNode)) (some cartAddress : Option String) (cartAt u) :=
    ⟨⟨rfl, rfl⟩, rfl⟩
  have hsend : cartCluster.answer (cartAt u) (.send cartAddress (.clusterServer cartAssignPod))
      (.ok thread : Except String Nat) (cartAt (cartArrived u thread)) := by
    refine ⟨?_, rfl, ?_, fun address hother => ?_⟩
    · rw [cartAt_server]
      exact hfree
    · rw [cartAt_server, cartAt_server]
      rfl
    · rw [cartAt_other _ hother, cartAt_other _ hother]
  have hreply : cartCluster.answer (cartAt v) (.await cartAddress thread)
      (.ok (.ok (cartResponse id)) : Except String (Except AssignPodStatus AssignPodResponse)) (cartAt v) := by
    refine ⟨rfl, fun c hc => ⟨.clusterServer cartAssignPod, ?_⟩⟩
    cases hc
    rw [cartAt_server]
    exact hreplied
  exact ⟨_, _, _, .call hget (.call hsend (.refl _ _)), .call hreply (.refl _ _)⟩

/-- The master sends the request twice, the worker serves both at once, and the
master gets the replies. -/
theorem cart_assigned_remotely : ∃ l p, Run cartCluster (.idle cartStart) l p ∧
    ∀ k < 2, p.thread k = some (cartCall, .ret (.ok ())) := by
  obtain ⟨l, v, hserved, -, hv₀, hv₁⟩ := cartWorker_contends.run (M := cartWorker)
    (p := cartArrived (cartArrived (.idle (.bare [])) 0) 1) rfl rfl rfl rfl
  obtain ⟨q₀, _, _, hsent₀, hawaited₀⟩ := cart_call (u := .idle (.bare [])) rfl hv₀
  obtain ⟨q₁, _, _, hsent₁, hawaited₁⟩ := cart_call (u := cartArrived (.idle (.bare [])) 0) rfl hv₁
  obtain ⟨l₁, p₁, hrun₁, hs₁, hk₁, -, hothers₁⟩ :=
    Run.served (k := 0) (p := .idle cartStart) hsent₀ rfl rfl cartStart_eq
  obtain ⟨l₂, p₂, hrun₂, hs₂, hk₂, -, hothers₂⟩ :=
    Run.served (k := 1) hsent₁ ((hothers₁ 1 (by decide)).1.trans rfl) rfl hs₁
  obtain ⟨l₃, p₃, hrun₃, hthread₃, hs₃⟩ : ∃ l p, Run cartCluster p₂ l p ∧ p.thread = p₂.thread ∧
      p.state = ⟨p₂.state.here, Function.update p₂.state.server cartAddress v⟩ :=
    Run.serve (N := fun _ => cartWorker) (i := cartAddress) hserved p₂ (hs₂ ▸ cartAt_server _)
  replace hs₃ : p₃.state = cartAt v := by
    rw [hs₃, hs₂]
    exact congrArg (Net.mk cartClients) (Function.update_idem ..)
  obtain ⟨l₄, p₄, hrun₄, hs₄, hk₄, -, hothers₄⟩ :=
    Run.alone hawaited₁ ((congrFun hthread₃ 1).trans hk₂) hs₃
  obtain ⟨l₅, p₅, hrun₅, -, hk₅, -, hothers₅⟩ := Run.alone (k := 0) hawaited₀
    ((hothers₄ 0 (by decide)).1.trans ((congrFun hthread₃ 0).trans ((hothers₂ 0 (by decide)).1.trans hk₁))) hs₄
  refine ⟨_, p₅, (((hrun₁.trans hrun₂).trans hrun₃).trans hrun₄).trans hrun₅, fun k hk => ?_⟩
  obtain rfl | rfl : k = 0 ∨ k = 1 := by omega
  · exact hk₅
  · exact (hothers₅ 1 (by decide)).1.trans hk₄

/-- For each of the two calls the worker has made the container. -/
theorem remote_assignments_cart : ∃ l p, Run cartCluster (.idle cartStart) l p ∧ ∀ k < 2,
    p.thread k = some (cartCall, .ret (.ok ())) ∧ ∃ s address req thread l',
      (s, .call k cartCall (.own (.get cartNode)) (some address : Option String)) ∈ l ∧
      Run (worker obedient cartWorkload (Gets (E := obedient) (fun _ _ => False) l address)) (.idle (.bare [])) l'
        (p.state.server address) ∧
      MadeBy obedient cartWorkload cartPod ("shop", "cart") thread (.clusterServer req) l'
        (p.state.server address).state := by
  obtain ⟨l, p, hrun, hreplied⟩ := cart_assigned_remotely
  have hround : ∀ nodeId pod spec, TransportCall.assignPod nodeId pod spec = cartCall →
      cartCrates.RoundTrips cartWorkload pod spec := by
    intro nodeId pod spec h
    cases h
    exact cartCrates_roundTrips
  have hplain : PlainCalls cartWorkload (· = cartCall) := by
    intro nodeId pod spec h
    cases h
    exact cartPod_plain
  obtain ⟨hmade, -⟩ := remote_assignments obedient_documented (fun _ _ _ h => by cases h) hround hplain
    (fun _ _ _ _ h => h.elim) hrun
  refine ⟨l, p, hrun, fun k hk => ⟨hreplied k hk, ?_⟩⟩
  obtain ⟨s, address, req, thread, l', hfound, -, -, hserved, hpod⟩ :=
    hmade k cartNode cartPod ("shop", "cart") (hreplied k hk)
  exact ⟨s, address, req, thread, l', hfound, hserved, hpod⟩

end Nexad
