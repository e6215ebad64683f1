import Nexad.Transport.AssignPod

/-!
# What an assignment asks of the runtime

Whatever the runtime answers, the only container that either end makes for a
pod is the one of `Workload.containerConfig` (`AssignRun.config`), and the only
image it pulls is that one's (`AssignRun.image`). The two ends are one operation
but for one answer: where the runtime cannot say whether the container exists,
the local one gives up and the remote one goes on (`assignPod_agrees_iff`).
-/

namespace Nexad

open Interleave Nexad.Runtime Cluster

/-- A call of the runtime port with its answer. -/
abbrev RuntimeCall := (op : runtimeSig.Op) × runtimeSig.Ans op

variable {D : Domain} (W : Workload D)

/-- The runtime calls of one assignment of a pod, at either end. -/
inductive AssignRun (pod : Pod D) (spec : D.DeploymentSpec) : List RuntimeCall → Prop where
  | localTransport {calls : List RuntimeCall} {result : Except NexaError Unit}
      (run : (LocalTransport.assignPod W pod spec).Trace calls result) : AssignRun pod spec calls
  | clusterServer {req : AssignPodRequest} {calls : List RuntimeCall}
      {result : Except AssignPodStatus AssignPodResponse}
      (pod_read : W.podFromSlice req.podData = .ok pod)
      (spec_read : W.specFromSlice req.deploymentSpec = .ok spec)
      (run : (ClusterServer.assignPod W req).Trace calls result) : AssignRun pod spec calls

/-- A call that makes no container but this one. -/
def MakesOnly (config : ContainerConfig) : RuntimeOp → Prop
  | .createContainer c => c = config
  | _ => True

/-- A call that pulls no image but this one. -/
def PullsOnly (image : String) : RuntimeOp → Prop
  | .pullImage i => i = image
  | _ => True

/-- A call that neither pulls an image nor makes a container. -/
def MakesNothing : RuntimeOp → Prop
  | .pullImage _ | .createContainer _ => False
  | _ => True

section Steps

variable {α : Type} {P : RuntimeOp → Prop} {name : String} {rest : Prog runtimeSig α}

theorem clearContainer_every (found : Bool) (hquiet : ∀ op, MakesNothing op → P op)
    (h : rest.Every P) : (clearContainer found name rest).Every P := by
  cases found with
  | true => exact ⟨hquiet _ trivial, fun _ => ⟨hquiet _ trivial, fun _ => h⟩⟩
  | false => exact h

theorem ensureNetwork_every (hquiet : ∀ op, MakesNothing op → P op) (h : rest.Every P) :
    (ensureNetwork name rest).Every P := by
  refine ⟨hquiet _ trivial, fun ans => ?_⟩
  dsimp only
  split
  · exact h
  · exact ⟨hquiet _ trivial, fun _ => h⟩

end Steps

variable {W} {pod : Pod D} {spec : D.DeploymentSpec}

section Every

variable {P : RuntimeOp → Prop} (hpull : P (.pullImage (W.image spec)))
  (hcreate : P (.createContainer (W.containerConfig pod spec)))
  (hquiet : ∀ op, MakesNothing op → P op)

include hpull hcreate hquiet

theorem LocalTransport.assignPod_every : (LocalTransport.assignPod W pod spec).Every P := by
  refine ⟨hpull, fun _ => ⟨hquiet _ trivial, fun found => ?_⟩⟩
  match found with
  | .error _ => exact trivial
  | .ok found =>
    refine clearContainer_every found hquiet (ensureNetwork_every hquiet ⟨hcreate, fun created => ?_⟩)
    match created with
    | .error _ => exact trivial
    | .ok _ => exact ⟨hquiet _ trivial, fun _ => trivial⟩

theorem Cluster.ClusterServer.assignPod_every {req : AssignPodRequest}
    (hpod : W.podFromSlice req.podData = .ok pod)
    (hspec : W.specFromSlice req.deploymentSpec = .ok spec) :
    (ClusterServer.assignPod W req).Every P := by
  unfold ClusterServer.assignPod
  simp only [hpod, hspec]
  refine ⟨hpull, fun _ => ⟨hquiet _ trivial, fun found => ?_⟩⟩
  refine clearContainer_every _ hquiet (ensureNetwork_every hquiet ⟨hcreate, fun created => ?_⟩)
  match created with
  | .error _ => exact trivial
  | .ok _ =>
    refine ⟨hquiet _ trivial, fun started => ?_⟩
    match started with
    | .error _ => exact trivial
    | .ok () => exact trivial

/-- What both ends ask for. -/
theorem AssignRun.every {calls : List RuntimeCall} (h : AssignRun W pod spec calls) :
    ∀ call ∈ calls, P call.1 := by
  cases h with
  | localTransport run => exact run.every (LocalTransport.assignPod_every hpull hcreate hquiet)
  | clusterServer pod_read spec_read run =>
    exact run.every (ClusterServer.assignPod_every hpull hcreate hquiet pod_read spec_read)

end Every

/-- A container that an assignment made was made from the pod's configuration. -/
theorem AssignRun.config {calls : List RuntimeCall} (h : AssignRun W pod spec calls)
    {config : ContainerConfig} {ans : Except NexaError String}
    (hmade : ⟨.createContainer config, ans⟩ ∈ calls) : config = W.containerConfig pod spec := by
  refine h.every (P := MakesOnly (W.containerConfig pod spec)) trivial rfl (fun op hop => ?_) _ hmade
  cases op with
  | createContainer c => exact hop.elim
  | _ => exact trivial

/-- An image that an assignment pulled is that of the spec. -/
theorem AssignRun.image {calls : List RuntimeCall} (h : AssignRun W pod spec calls)
    {image : String} {ans : Except NexaError Unit}
    (hpulled : ⟨.pullImage image, ans⟩ ∈ calls) : image = W.image spec := by
  refine h.every (P := PullsOnly (W.image spec)) rfl trivial (fun op hop => ?_) _ hpulled
  cases op with
  | pullImage i => exact hop.elim
  | _ => exact trivial

/-! ## The two ends compared -/

section Steps

variable {α β : Type} {R : α → β → Prop} {rest : Prog runtimeSig α} {rest' : Prog runtimeSig β}

theorem clearContainer_agree (found : Bool) (name : String) (h : rest.Agree R rest') :
    (clearContainer found name rest).Agree R (clearContainer found name rest') := by
  cases found with
  | true => exact .call fun _ => .call fun _ => h
  | false => exact h

theorem ensureNetwork_agree (name : String) (h : rest.Agree R rest') :
    (ensureNetwork name rest).Agree R (ensureNetwork name rest') := by
  refine .call fun ans => ?_
  dsimp only
  split
  · exact h
  · exact .call fun _ => h

end Steps

/-- The local end returns `Ok` where the remote one answers `success = true`. -/
def SameOutcome (result : Except NexaError Unit)
    (answer : Except AssignPodStatus AssignPodResponse) : Prop :=
  result = .ok () ↔ ∃ response, answer = .ok response ∧ response.success = true

/-- What is written of a pod and its spec is read back. -/
structure Encoder.RoundTrips (E : Encoder D) (W : Workload D) (pod : Pod D)
    (spec : D.DeploymentSpec) : Prop where
  pod : ∀ data, E.podToVec pod = .ok data → W.podFromSlice data = .ok pod
  spec : ∀ data, E.specToVec spec = .ok data → W.specFromSlice data = .ok spec

/-- The remote end reads the pod and the spec that were sent. -/
theorem Encoder.RoundTrips.read {E : Encoder D} (h : E.RoundTrips W pod spec) {req : AssignPodRequest}
    (hreq : GrpcTransport.assignPodRequest E pod spec = .ok req) :
    W.podFromSlice req.podData = .ok pod ∧ W.specFromSlice req.deploymentSpec = .ok spec := by
  unfold GrpcTransport.assignPodRequest at hreq
  split at hreq
  · cases hreq
  · cases hreq
  · next hpod hspec =>
    cases hreq
    exact ⟨h.pod _ hpod, h.spec _ hspec⟩

/-- Making a network takes at least the call that asks for it. -/
theorem ensureNetwork_made {α : Type} (name : String) (rest : Prog runtimeSig α)
    (runtime : List RuntimeCall → (op : RuntimeOp) → runtimeSig.Ans op) (made : List RuntimeCall) :
    made.length < ((ensureNetwork name rest).answeredBy runtime made).1.length := by
  unfold ensureNetwork Prog.answeredBy
  have hmade := (Prog.answeredBy_made runtime
    (if unwrapOrFalse (runtime made (.containerExists name)) then rest
      else .call (.createNetwork name) fun _ => rest)
    (made ++ [⟨.containerExists name, runtime made (.containerExists name)⟩])).length_le
  rw [List.length_append] at hmade
  exact hmade

/-- What programs that agree do under one runtime. -/
theorem agree_under {p : Prog runtimeSig (Except NexaError Unit)}
    {q : Prog runtimeSig (Except AssignPodStatus AssignPodResponse)} (h : p.Agree SameOutcome q)
    (runtime : List RuntimeCall → (op : RuntimeOp) → runtimeSig.Ans op) (made : List RuntimeCall) :
    (p.answeredBy runtime made).1.map Sigma.fst = (q.answeredBy runtime made).1.map Sigma.fst ∧
      SameOutcome (p.answeredBy runtime made).2 (q.answeredBy runtime made).2 := by
  obtain ⟨hcalls, hresults⟩ := h.answeredBy runtime made
  exact ⟨congrArg _ hcalls, hresults⟩

/-- The calls that a program makes when the runtime answers like this. -/
def callsUnder {α : Type} (runtime : List RuntimeCall → (op : RuntimeOp) → runtimeSig.Ans op)
    (p : Prog runtimeSig α) : List RuntimeOp :=
  (p.answeredBy runtime []).1.map Sigma.fst

/-- Whatever the runtime does, the two ends make the same calls and come to the
same outcome exactly when it can say whether the container exists. -/
theorem assignPod_agrees_iff {E : Encoder D} (hround : E.RoundTrips W pod spec) {req : AssignPodRequest}
    (hreq : GrpcTransport.assignPodRequest E pod spec = .ok req)
    (runtime : List RuntimeCall → (op : RuntimeOp) → runtimeSig.Ans op) :
    (callsUnder runtime (LocalTransport.assignPod W pod spec) =
        callsUnder runtime (ClusterServer.assignPod W req) ∧
      SameOutcome ((LocalTransport.assignPod W pod spec).answeredBy runtime []).2
        ((ClusterServer.assignPod W req).answeredBy runtime []).2) ↔
      ∃ found, runtime [⟨.pullImage (W.image spec), runtime [] (.pullImage (W.image spec))⟩]
        (.containerExists (W.containerName pod)) = .ok found := by
  obtain ⟨hpod, hspec⟩ := hround.read hreq
  unfold callsUnder LocalTransport.assignPod ClusterServer.assignPod
  simp only [hpod, hspec, Prog.answeredBy, List.nil_append, List.cons_append]
  generalize runtime [⟨.pullImage (W.image spec), runtime [] (.pullImage (W.image spec))⟩]
    (.containerExists (W.containerName pod)) = answer
  match answer with
  | .ok found =>
    refine iff_of_true (agree_under (clearContainer_agree found _ (ensureNetwork_agree _ ?_)) _ _)
      ⟨found, rfl⟩
    refine .call fun created => ?_
    match created with
    | .error _ => exact .ret ⟨nofun, nofun⟩
    | .ok containerId =>
      refine .call fun started => ?_
      match started with
      | .error _ => exact .ret ⟨nofun, nofun⟩
      | .ok () => exact .ret ⟨fun _ => ⟨_, rfl, rfl⟩, fun _ => rfl⟩
  | .error e =>
    -- the local end has stopped, the remote one goes on to the network
    refine iff_of_false (fun ⟨hcalls, _⟩ => ?_) nofun
    have hlengths := congrArg List.length hcalls
    rw [List.length_map, List.length_map] at hlengths
    exact absurd hlengths (ensureNetwork_made (Workload.networkName spec) _ runtime _).ne

section Api

/-- A pod of the deployment `api`. -/
def apiPod : Pod Domain.plain :=
  ⟨⟨2⟩, ⟨1⟩, "shop", "api", 0, none, none, none, "pending", "nginx:1.25", 0, 0⟩

/-- Its JSON. -/
def apiPodJson : String :=
  "\x7b\"id\":\"00000000-0000-0000-0000-000000000002\"," ++
  "\"deployment_id\":\"00000000-0000-0000-0000-000000000001\",\"project\":\"shop\"," ++
  "\"deployment_name\":\"api\",\"replica_index\":0,\"node_id\":null,\"container_id\":null," ++
  "\"container_ip\":null,\"status\":\"pending\",\"image\":\"nginx:1.25\",\"restart_count\":0," ++
  "\"created_at\":\"1970-01-01T00:00:00Z\"\x7d"

/-- The JSON of its spec. -/
def apiSpecJson : String := "[\"shop\",\"api\"]"

/-- The crate as far as this pod and its spec need it. -/
def apiWorkload : Workload Domain.plain :=
  { Workload.plain with
    podFromSlice := fun data =>
      if data = utf8 apiPodJson then .ok apiPod else .error "EOF while parsing a value"
    specFromSlice := fun data =>
      if data = utf8 apiSpecJson then .ok ("shop", "api") else .error "EOF while parsing a value" }

/-- What is written of them. -/
def apiEncoder : Encoder Domain.plain :=
  ⟨fun _ => .ok (utf8 apiPodJson), fun _ => .ok (utf8 apiSpecJson)⟩

/-- The request for this pod. -/
def apiRequest : AssignPodRequest := ⟨utf8 apiPodJson, utf8 apiSpecJson⟩

private theorem apiEncoder_roundTrips :
    apiEncoder.RoundTrips apiWorkload apiPod ("shop", "api") where
  pod := by
    intro data h
    rw [← Except.ok.inj h]
    simp only [apiWorkload, if_true]
  spec := by
    intro data h
    rw [← Except.ok.inj h]
    simp only [apiWorkload, if_true]

/-- A runtime without containers in which nothing fails. -/
def emptyRuntime (_ : List RuntimeCall) : (op : RuntimeOp) → runtimeSig.Ans op
  | .pullImage _ => .ok ()
  | .containerExists _ => .ok false
  | .stopContainer .. => .ok ()
  | .removeContainer .. => .ok ()
  | .createNetwork name => .ok name
  | .createContainer config => .ok config.name
  | .startContainer _ => .ok ()

theorem assignPod_agrees_empty :
    callsUnder emptyRuntime (LocalTransport.assignPod apiWorkload apiPod ("shop", "api")) =
      callsUnder emptyRuntime (ClusterServer.assignPod apiWorkload apiRequest) :=
  ((assignPod_agrees_iff apiEncoder_roundTrips rfl emptyRuntime).mpr ⟨false, rfl⟩).1

/-- The same runtime, but the first question about the container is not answered. -/
def silentRuntime (made : List RuntimeCall) (op : RuntimeOp) : runtimeSig.Ans op :=
  match op with
  | .containerExists _ =>
    if made.length = 1 then .error (.runtime "connection refused") else .ok false
  | op => emptyRuntime made op

/-- The local end gives up after two calls, the remote one makes the container
and starts it. -/
theorem assignPod_disagrees_silent :
    callsUnder silentRuntime (LocalTransport.assignPod apiWorkload apiPod ("shop", "api")) =
      [.pullImage "nginx:1.25", .containerExists "nexa-shop-api-0"] ∧
    ((LocalTransport.assignPod apiWorkload apiPod ("shop", "api")).answeredBy silentRuntime []).2 =
      .error (.runtime "connection refused") ∧
    callsUnder silentRuntime (ClusterServer.assignPod apiWorkload apiRequest) =
      [.pullImage "nginx:1.25", .containerExists "nexa-shop-api-0", .containerExists "nexa-shop",
        .createNetwork "nexa-shop",
        .createContainer (apiWorkload.containerConfig apiPod ("shop", "api")),
        .startContainer "nexa-shop-api-0"] ∧
    ((ClusterServer.assignPod apiWorkload apiRequest).answeredBy silentRuntime []).2 =
      .ok ⟨true, "running", "nexa-shop-api-0"⟩ ∧
    GrpcTransport.assignPodRequest apiEncoder apiPod ("shop", "api") = .ok apiRequest := by
  have hpod : apiWorkload.podFromSlice apiRequest.podData = .ok apiPod :=
    apiEncoder_roundTrips.pod _ rfl
  have hspec : apiWorkload.specFromSlice apiRequest.deploymentSpec = .ok ("shop", "api") :=
    apiEncoder_roundTrips.spec _ rfl
  refine ⟨rfl, rfl, ?_, ?_, rfl⟩
  · unfold ClusterServer.assignPod
    simp only [hpod, hspec]
    rfl
  · unfold ClusterServer.assignPod
    simp only [hpod, hspec]
    rfl

end Api

end Nexad
