import Nexad.Cluster.PodRequests
import Nexad.Laws.Transport.Converge

/-!
# What pod requests do to a worker

A worker assigns pods and answers every request to stop or remove one with
`success = true`, whatever its machine runs. So its containers agree with the
requests it has answered as long as each request asks for what already is, and
no assignment takes another pod's container down (`agrees_throughout_iff`).
-/

namespace Nexad.Cluster

open Interleave Nexad.Runtime

/-- A container that belongs to a pod. -/
def OfPod (id : String) (c : Container) : Prop := c.config.labels.lookup "nexa.pod-id" = some id

/-- The machine has a container of the pod. -/
def HoldsPod (s : Host) (id : String) : Prop := ∃ c, s.Has c ∧ OfPod id c

/-- The machine has a running container of the pod. -/
def RunsPod (s : Host) (id : String) : Prop := ∃ c, s.Has c ∧ OfPod id c ∧ c.running = true

/-- A request that was handled: its calls, and the `success` of its answer. -/
structure Handled where
  req : PodRequest
  calls : HostCalls
  success : Bool

variable {D : Domain} (W : Workload D)

/-- One request is handled. -/
inductive Handled.Step (s : Host) : Handled → Host → Prop where
  | assignPod {req : AssignPodRequest} {l : HostCalls}
      {result : Except AssignPodStatus AssignPodResponse} {s' : Host}
      (run : (ClusterServer.assignPod W req).Takes Host.answer s l result s') :
      Step s ⟨.assignPod req, l, saysAssigned result⟩ s'
  | stopPod {req : StopPodRequest} {l : HostCalls} {response : StopPodResponse} {s' : Host}
      (run : (ClusterServer.stopPod req).Takes Host.answer s l response s') :
      Step s ⟨.stopPod req, l, response.success⟩ s'
  | removePod {req : RemovePodRequest} {l : HostCalls} {response : RemovePodResponse} {s' : Host}
      (run : (ClusterServer.removePod req).Takes Host.answer s l response s') :
      Step s ⟨.removePod req, l, response.success⟩ s'

/-- The last request about a pod that was answered with `success = true`, in a
history with the newest first. -/
def lastRequest (id : String) : List (Host × Handled) → Option PodRequest
  | [] => none
  | (_, a) :: l =>
    if a.success = true ∧ a.req.podId W = some id then some a.req else lastRequest id l

/-- What a request, once it is answered with success, says about the pod. -/
def Demands (s : Host) (id : String) : PodRequest → Prop
  | .assignPod _ => RunsPod s id
  | .stopPod _ => ¬ RunsPod s id
  | .removePod _ => ¬ HoldsPod s id

/-- The containers are as the history says. -/
def Agrees (l : List (Host × Handled)) (s : Host) : Prop :=
  ∀ id req, lastRequest W id l = some req → Demands s id req

/-- After every request that was answered with success, the containers are as
the history says. -/
def AgreesThroughout : List (Host × Handled) → Host → Prop
  | [], _ => True
  | (q, a) :: l, s => (a.success = true → Agrees W ((q, a) :: l) s) ∧ AgreesThroughout l q

/-- A request to stop or remove asks for what already is, and an assignment
leaves the other pods that were assigned a running container elsewhere. -/
def Harmless (l : List (Host × Handled)) (s : Host) : PodRequest → Prop
  | .assignPod req => ∀ pod, W.podFromSlice req.podData = .ok pod →
    ∀ id r, id ≠ D.uuid.print pod.id → lastRequest W id l = some (.assignPod r) →
      ∃ c, s.Has c ∧ OfPod id c ∧ c.running = true ∧ c.config.name ≠ W.containerName pod
  | .stopPod req => ¬ RunsPod s req.podId
  | .removePod req => ¬ HoldsPod s req.podId

/-- Every request of the history was harmless when it came. -/
def HarmlessThroughout : List (Host × Handled) → Prop
  | [] => True
  | (q, a) :: l => (a.success = true → Harmless W l q a.req) ∧ HarmlessThroughout l

variable {W} {s s' : Host} {l : List (Host × Handled)} {a : Handled}

theorem lastRequest_self {id : String} {q : Host} (hok : a.success = true)
    (hid : a.req.podId W = some id) : lastRequest W id ((q, a) :: l) = some a.req :=
  if_pos ⟨hok, hid⟩

theorem lastRequest_ne {id : String} {q : Host} (hid : a.req.podId W ≠ some id) :
    lastRequest W id ((q, a) :: l) = lastRequest W id l := if_neg fun h => hid h.2

section Assigned

variable {pod : Pod D} {spec : D.DeploymentSpec} {calls : HostCalls}

/-- The container of an assignment is of its pod. -/
theorem ofPod_containerConfig {id : String} {running : Bool} :
    OfPod (D.uuid.print pod.id) ⟨id, W.containerConfig pod spec, running⟩ := AList.lookup_insert _

/-- The container that an assignment leaves under its name is of its pod. -/
theorem ofPod_of_assigned (h : Assigns W pod spec s calls s' true) {c : Container} (hc : s'.Has c)
    (hname : c.config.name = W.containerName pod) : OfPod (D.uuid.print pod.id) c := by
  obtain ⟨id, hown⟩ := h.own
  rw [Host.Has, hname, hown] at hc
  cases hc
  exact ofPod_containerConfig

/-- The pod that was assigned runs. -/
theorem runsPod_assigned (h : Assigns W pod spec s calls s' true) :
    RunsPod s' (D.uuid.print pod.id) := by
  obtain ⟨id, hown⟩ := h.own
  exact ⟨_, Host.has_of_container hown, ofPod_containerConfig, rfl⟩

/-- A container of another pod is one that was there, under another name. -/
theorem has_other_iff (h : Assigns W pod spec s calls s' true) {id : String}
    (hid : id ≠ D.uuid.print pod.id) {c : Container} :
    s'.Has c ∧ OfPod id c ↔ s.Has c ∧ OfPod id c ∧ c.config.name ≠ W.containerName pod := by
  constructor
  · rintro ⟨hc, hof⟩
    have hname : c.config.name ≠ W.containerName pod := by
      intro hname
      exact hid (Option.some.inj (hof.symm.trans (ofPod_of_assigned h hc hname)))
    exact ⟨(h.has_iff hname).mp hc, hof, hname⟩
  · rintro ⟨hc, hof, hname⟩
    exact ⟨(h.has_iff hname).mpr hc, hof⟩

end Assigned

/-- A worker says that it assigned a pod only where it has read pod and spec. -/
theorem assigns_of_takes {req : AssignPodRequest} {calls : HostCalls}
    {result : Except AssignPodStatus AssignPodResponse}
    (run : (ClusterServer.assignPod W req).Takes Host.answer s calls result s') :
    (saysAssigned result = false ∧ s' = s) ∨
      ∃ pod spec, W.podFromSlice req.podData = .ok pod ∧
        Assigns W pod spec s calls s' (saysAssigned result) := by
  cases hpod : W.podFromSlice req.podData with
  | error e =>
    unfold ClusterServer.assignPod at run
    simp only [hpod] at run
    cases run
    exact .inl ⟨rfl, rfl⟩
  | ok pod =>
    cases hspec : W.specFromSlice req.deploymentSpec with
    | error e =>
      unfold ClusterServer.assignPod at run
      simp only [hpod, hspec] at run
      cases run
      exact .inl ⟨rfl, rfl⟩
    | ok spec => exact .inr ⟨pod, spec, rfl, .clusterServer hpod hspec run⟩

/-- Where a request touches nothing, the containers agree exactly if they are
already as the request says. -/
theorem agrees_untouched {id : String} (hok : a.success = true) (hid : a.req.podId W = some id)
    (hbefore : Agrees W l s) : Agrees W ((s, a) :: l) s ↔ Demands s id a.req := by
  constructor
  · intro hafter
    exact hafter id a.req (lastRequest_self hok hid)
  · intro hdemands i r hr
    by_cases hi : i = id
    · subst hi
      rw [lastRequest_self hok hid] at hr
      cases hr
      exact hdemands
    · have hne : a.req.podId W ≠ some i := by
        rw [hid]
        exact fun heq => hi (Option.some.inj heq).symm
      rw [lastRequest_ne hne] at hr
      exact hbefore i r hr

/-- Where a pod was assigned, the containers agree exactly if the other pods that
were assigned have a running container elsewhere. -/
theorem agrees_assigned {req : AssignPodRequest} {pod : Pod D} {spec : D.DeploymentSpec}
    {calls : HostCalls} (hpod : W.podFromSlice req.podData = .ok pod)
    (h : Assigns W pod spec s calls s' true) (hbefore : Agrees W l s) :
    Agrees W ((s, ⟨.assignPod req, calls, true⟩) :: l) s' ↔ Harmless W l s (.assignPod req) := by
  have hpodId : (PodRequest.assignPod req).podId W = some (D.uuid.print pod.id) := by
    rw [PodRequest.podId, hpod]
    rfl
  have hother : ∀ {id}, id ≠ D.uuid.print pod.id →
      lastRequest W id ((s, ⟨.assignPod req, calls, true⟩) :: l) = lastRequest W id l := by
    intro id hid
    refine lastRequest_ne fun heq => hid ?_
    rw [hpodId] at heq
    exact (Option.some.inj heq).symm
  constructor
  · intro hafter pod' hpod' id r hid hlast
    obtain rfl : pod = pod' := Except.ok.inj (hpod.symm.trans hpod')
    obtain ⟨c, hc, hof, hrunning⟩ := hafter id (.assignPod r) ((hother hid).trans hlast)
    obtain ⟨hc', -, hname⟩ := (has_other_iff h hid).mp ⟨hc, hof⟩
    exact ⟨c, hc', hof, hrunning, hname⟩
  · intro hharmless id r hr
    by_cases hid : id = D.uuid.print pod.id
    · subst hid
      rw [lastRequest_self rfl hpodId] at hr
      cases hr
      exact runsPod_assigned h
    · rw [hother hid] at hr
      have hdemands := hbefore id r hr
      cases r with
      | assignPod r =>
        obtain ⟨c, hc, hof, hrunning, hname⟩ := hharmless pod hpod id r hid hr
        exact ⟨c, ((has_other_iff h hid).mpr ⟨hc, hof, hname⟩).1, hof, hrunning⟩
      | stopPod r =>
        rintro ⟨c, hc, hof, hrunning⟩
        exact hdemands ⟨c, ((has_other_iff h hid).mp ⟨hc, hof⟩).1, hof, hrunning⟩
      | removePod r =>
        rintro ⟨c, hc, hof⟩
        exact hdemands ⟨c, ((has_other_iff h hid).mp ⟨hc, hof⟩).1, hof⟩

/-- Where the containers agree with the history, they do after one more
successful request exactly if it is harmless. -/
theorem Handled.Step.agrees_iff (h : Handled.Step W s a s') (hok : a.success = true)
    (hbefore : Agrees W l s) : Agrees W ((s, a) :: l) s' ↔ Harmless W l s a.req := by
  cases h with
  | stopPod run =>
    cases run
    exact agrees_untouched hok rfl hbefore
  | removePod run =>
    cases run
    exact agrees_untouched hok rfl hbefore
  | assignPod run =>
    obtain ⟨hfailed, -⟩ | ⟨pod, spec, hpod, hassigns⟩ := assigns_of_takes run
    · exact absurd (hfailed.symm.trans hok) (by decide)
    dsimp only at hok ⊢
    rw [hok] at hassigns ⊢
    exact agrees_assigned hpod hassigns hbefore

/-- On a machine whose operations succeed, a request that is not answered with
success has done nothing. -/
theorem Handled.Step.unsuccessful (h : Handled.Step W s a s') (hok : a.success = false)
    (hsucceed : ∀ q call, (q, call) ∈ a.calls → call.succeeded = true) : s' = s := by
  cases h with
  | stopPod run =>
    cases run
    cases hok
  | removePod run =>
    cases run
    cases hok
  | assignPod run =>
    obtain ⟨-, hsame⟩ | ⟨pod, spec, -, hassigns⟩ := assigns_of_takes run
    · exact hsame
    · have hdone := hassigns.ok_of_needed fun q call hcall _ => hsucceed q call hcall
      exact absurd (hok.symm.trans hdone) (by decide)

/-- Whatever pods are assigned, stopped and removed in whatever order, the
containers agree with the history after every successful request if and only
if every successful request was harmless when it came. -/
theorem agrees_throughout_iff {s₀ : Host} (h : Runs.Run (Handled.Step W) s₀ l s)
    (hsucceed : ∀ p a, (p, a) ∈ l → ∀ q call, (q, call) ∈ a.calls → call.succeeded = true) :
    AgreesThroughout W l s ↔ HarmlessThroughout W l := by
  suffices hboth : (AgreesThroughout W l s ↔ HarmlessThroughout W l) ∧
      (AgreesThroughout W l s → Agrees W l s) from hboth.1
  induction h with
  | nil => exact ⟨Iff.rfl, fun _ id req hlast => by cases hlast⟩
  | @cons l s s' a hrun hstep ih =>
    obtain ⟨hiff, hagrees⟩ := ih fun p b hmem => hsucceed p b (List.mem_cons_of_mem _ hmem)
    constructor
    · constructor
      · rintro ⟨hafter, hbefore⟩
        exact ⟨fun hok => (hstep.agrees_iff hok (hagrees hbefore)).mp (hafter hok), hiff.mp hbefore⟩
      · rintro ⟨hharmless, hbefore⟩
        have hthroughout := hiff.mpr hbefore
        exact ⟨fun hok => (hstep.agrees_iff hok (hagrees hthroughout)).mpr (hharmless hok), hthroughout⟩
    · rintro ⟨hafter, hbefore⟩
      cases hok : a.success with
      | true => exact hafter hok
      | false =>
        obtain rfl := hstep.unsuccessful hok (hsucceed s a List.mem_cons_self)
        intro id r hr
        have hskip : lastRequest W id ((s', a) :: l) = lastRequest W id l :=
          if_neg fun hboth => absurd (hok.symm.trans hboth.1) (by decide)
        exact hagrees hbefore id r (hskip.symm.trans hr)

/-- The worker with an empty machine assigns `api`. -/
private theorem api_assigned : ∃ calls s,
    Handled.Step apiWorkload Host.empty ⟨.assignPod apiRequest, calls, true⟩ s ∧
      AllSucceeded calls ∧ RunsPod s (Domain.plain.uuid.print apiPod.id) := by
  have hpod : apiWorkload.podFromSlice apiRequest.podData = .ok apiPod := by
    simp only [apiWorkload, apiRequest, if_true]
  have hspec : apiWorkload.specFromSlice apiRequest.deploymentSpec = .ok ("shop", "api") := by
    simp only [apiWorkload, apiRequest, if_true]
  have hid : ∀ {n c}, Host.empty.container n = some c → c.id ≠ "c1" := fun h => by cases h
  obtain ⟨calls, s, run, hall⟩ := ClusterServer.assignPod_possible hpod hspec hid
  exact ⟨calls, s, .assignPod run, hall, runsPod_assigned (.clusterServer hpod hspec run)⟩

/-- Stopping the pod is answered with success, and the pod runs on. -/
theorem stopped_pod_runs : ∃ calls s,
    Runs.Run (Handled.Step apiWorkload) Host.empty
      [(s, ⟨.stopPod ⟨Domain.plain.uuid.print apiPod.id⟩, [], true⟩),
        (Host.empty, ⟨.assignPod apiRequest, calls, true⟩)] s ∧
    AllSucceeded calls ∧ RunsPod s (Domain.plain.uuid.print apiPod.id) ∧
    ¬ AgreesThroughout apiWorkload
      [(s, ⟨.stopPod ⟨Domain.plain.uuid.print apiPod.id⟩, [], true⟩),
        (Host.empty, ⟨.assignPod apiRequest, calls, true⟩)] s := by
  obtain ⟨calls, s, hstep, hall, hruns⟩ := api_assigned
  refine ⟨calls, s, .cons (.cons .nil hstep) (.stopPod (.ret _ _)), hall, hruns, fun hagrees => ?_⟩
  exact hagrees.1 rfl (Domain.plain.uuid.print apiPod.id) (.stopPod ⟨_⟩) (lastRequest_self rfl rfl) hruns

/-- A worker that is asked to stop a pod it never had agrees. -/
theorem agrees_throughout_api : ∃ calls s,
    Runs.Run (Handled.Step apiWorkload) Host.empty
      [(Host.empty, ⟨.assignPod apiRequest, calls, true⟩),
        (Host.empty, ⟨.stopPod ⟨Domain.plain.uuid.print apiPod.id⟩, [], true⟩)] s ∧
    AgreesThroughout apiWorkload
      [(Host.empty, ⟨.assignPod apiRequest, calls, true⟩),
        (Host.empty, ⟨.stopPod ⟨Domain.plain.uuid.print apiPod.id⟩, [], true⟩)] s := by
  obtain ⟨calls, s, hstep, hall, -⟩ := api_assigned
  have hrun : Runs.Run (Handled.Step apiWorkload) Host.empty
      [(Host.empty, ⟨.assignPod apiRequest, calls, true⟩),
        (Host.empty, ⟨.stopPod ⟨Domain.plain.uuid.print apiPod.id⟩, [], true⟩)] s :=
    .cons (.cons .nil (.stopPod (.ret _ _))) hstep
  refine ⟨calls, s, hrun, (agrees_throughout_iff hrun fun p a hmem => ?_).mpr ⟨?_, ?_, trivial⟩⟩
  · simp only [List.mem_cons, Prod.mk.injEq, List.not_mem_nil, or_false] at hmem
    obtain ⟨-, rfl⟩ | ⟨-, rfl⟩ := hmem
    · exact hall
    · intro q call hcall
      cases hcall
  · intro _ pod hpod id r hid hlast
    -- the only request before was to stop
    rw [lastRequest] at hlast
    split at hlast
    · cases hlast
    · cases hlast
  · rintro - ⟨c, hc, -⟩
    cases hc

end Nexad.Cluster
