import Nexad.Base.Runs
import Nexad.Laws.Transport.AssignPod
import Nexad.Runtime.Host

/-!
# An assignment over a machine

`Assigns` is one assignment of a pod, at either end, over the containers and
networks of a machine. `Assigns.phases` says once what it can do: the old
container is cleared, the network ensured, the new container launched, and
each phase leaves the machine in one of a few ways. What follows about single
assignments and about runs of them is read off the phases.
-/

namespace Nexad

open Interleave Nexad.Runtime Cluster

/-- The call succeeded. -/
def RuntimeCall.succeeded : RuntimeCall → Bool
  | ⟨.pullImage _, (ans : Except NexaError Unit)⟩ => ans.isOk
  | ⟨.containerExists _, (ans : Except NexaError Bool)⟩ => ans.isOk
  | ⟨.stopContainer .., (ans : Except NexaError Unit)⟩ => ans.isOk
  | ⟨.removeContainer .., (ans : Except NexaError Unit)⟩ => ans.isOk
  | ⟨.createNetwork _, (ans : Except NexaError String)⟩ => ans.isOk
  | ⟨.createContainer _, (ans : Except NexaError String)⟩ => ans.isOk
  | ⟨.startContainer _, (ans : Except NexaError Unit)⟩ => ans.isOk

/-- The answer of a worker says that it assigned the pod. -/
def Cluster.saysAssigned : Except AssignPodStatus AssignPodResponse → Bool
  | .ok response => response.success
  | .error _ => false

/-- The calls of a run, each with the machine it was made on. -/
abbrev HostCalls := List (Host × RuntimeCall)

/-- All calls succeeded. -/
def AllSucceeded (l : HostCalls) : Prop := ∀ q call, (q, call) ∈ l → call.succeeded = true

variable {D : Domain} (W : Workload D)

/-- One assignment of a pod over a machine, at either end: its calls, and
whether the caller is told that it succeeded. -/
inductive Assigns (pod : Pod D) (spec : D.DeploymentSpec) (s : Host) (l : HostCalls) (s' : Host) :
    Bool → Prop where
  | localTransport {result : Except NexaError Unit}
      (run : (LocalTransport.assignPod W pod spec).Takes Host.answer s l result s') :
      Assigns pod spec s l s' result.isOk
  | clusterServer {req : AssignPodRequest} {result : Except AssignPodStatus AssignPodResponse}
      (pod_read : W.podFromSlice req.podData = .ok pod)
      (spec_read : W.specFromSlice req.deploymentSpec = .ok spec)
      (run : (ClusterServer.assignPod W req).Takes Host.answer s l result s') :
      Assigns pod spec s l s' (saysAssigned result)

/-! ## The phases -/

/-- Clearing a container that was `found`. -/
inductive Cleared (name : String) (s : Host) : Bool → HostCalls → Host → Prop where
  | nothing : Cleared name s false [] s
  | tornDown {stopped removed : Except NexaError Unit} {t u : Host}
      (stop : s.answer (.stopContainer name 5) stopped t)
      (remove : t.answer (.removeContainer name true) removed u) :
      Cleared name s true
        [(s, ⟨.stopContainer name 5, stopped⟩), (t, ⟨.removeContainer name true, removed⟩)] u

/-- Ensuring a network. -/
inductive Ensured (name : String) (s : Host) : HostCalls → Host → Prop where
  | known {found : Except NexaError Bool} (asked : s.answer (.containerExists name) found s)
      (yes : unwrapOrFalse found = true) : Ensured name s [(s, ⟨.containerExists name, found⟩)] s
  | made {found : Except NexaError Bool} {created : Except NexaError String} {t : Host}
      (asked : s.answer (.containerExists name) found s) (no : unwrapOrFalse found = false)
      (make : s.answer (.createNetwork name) created t) :
      Ensured name s
        [(s, ⟨.containerExists name, found⟩), (s, ⟨.createNetwork name, created⟩)] t

/-- Making the new container and starting it. -/
inductive Launched (config : ContainerConfig) (s : Host) : HostCalls → Host → Bool → Prop where
  | refused {e : NexaError} : Launched config s [(s, ⟨.createContainer config, .error e⟩)] s false
  | stuck {id : String} {e : NexaError} {fresh : s.Fresh config id} :
      Launched config s
        [(s, ⟨.createContainer config, .ok id⟩),
          (s.create config id fresh, ⟨.startContainer id, .error e⟩)]
        (s.create config id fresh) false
  | running {id : String} {fresh : s.Fresh config id} :
      Launched config s
        [(s, ⟨.createContainer config, .ok id⟩),
          (s.create config id fresh, ⟨.startContainer id, .ok ()⟩)]
        ((s.create config id fresh).start id) true

/-- What an assignment does. -/
inductive Phases (pod : Pod D) (spec : D.DeploymentSpec) (s : Host) :
    HostCalls → Host → Bool → Prop where
  /-- The local end stops where it is not told whether the container exists. -/
  | untold {pulled : Except NexaError Unit} {e : NexaError} :
      Phases pod spec s
        [(s, ⟨.pullImage (W.image spec), pulled⟩),
          (s, ⟨.containerExists (W.containerName pod), .error e⟩)]
        s false
  | through {pulled : Except NexaError Unit} {found : Except NexaError Bool} {lc ln lm : HostCalls}
      {t u s' : Host} {ok : Bool} (asked : s.answer (.containerExists (W.containerName pod)) found s)
      (cleared : Cleared (W.containerName pod) s (unwrapOrFalse found) lc t)
      (ensured : Ensured (Workload.networkName spec) t ln u)
      (launched : Launched (W.containerConfig pod spec) u lm s' ok) :
      Phases pod spec s
        ((s, ⟨.pullImage (W.image spec), pulled⟩) ::
          (s, ⟨.containerExists (W.containerName pod), found⟩) :: (lc ++ (ln ++ lm)))
        s' ok

section Steps

variable {α : Type} {rest : Prog runtimeSig α} {name : String} {s s' : Host} {l : HostCalls} {a : α}

/-- A question changes nothing. -/
theorem answer_exists {found : Except NexaError Bool} (h : s.answer (.containerExists name) found s') :
    s' = s := by
  obtain ⟨_, -, -, hsame⟩ | ⟨-, hsame⟩ := Host.Outcome.cases h
  · exact hsame
  · exact hsame

/-- A download changes nothing that is modelled. -/
theorem answer_pull {image : String} {pulled : Except NexaError Unit}
    (h : s.answer (.pullImage image) pulled s') : s' = s := by
  obtain ⟨_, -, hsame⟩ | ⟨-, hsame⟩ := Host.Outcome.cases h
  · exact hsame
  · exact hsame

/-- A program that clears a container first. -/
theorem clearContainer_takes_iff {found : Bool} :
    (clearContainer found name rest).Takes Host.answer s l a s' ↔
      ∃ lc t l', l = lc ++ l' ∧ Cleared name s found lc t ∧ rest.Takes Host.answer t l' a s' := by
  constructor
  · intro h
    cases found with
    | false => exact ⟨[], s, l, rfl, .nothing, h⟩
    | true =>
      rw [clearContainer, if_pos rfl] at h
      cases h with
      | call stop h =>
        cases h with
        | call remove h => exact ⟨_, _, _, rfl, .tornDown stop remove, h⟩
  · rintro ⟨lc, t, l', rfl, hcleared, h⟩
    cases hcleared with
    | nothing => exact h
    | tornDown stop remove => exact .call stop (.call remove h)

/-- A program that ensures a network first. -/
theorem ensureNetwork_takes_iff : (ensureNetwork name rest).Takes Host.answer s l a s' ↔
    ∃ ln t l', l = ln ++ l' ∧ Ensured name s ln t ∧ rest.Takes Host.answer t l' a s' := by
  unfold ensureNetwork
  constructor
  · intro h
    cases h with
    | @call _ _ _ _ _ found _ _ asked h =>
      obtain rfl := answer_exists asked
      dsimp only at h
      split at h
      · next yes => exact ⟨_, _, _, rfl, .known asked yes, h⟩
      · next no =>
        cases h with
        | call make h => exact ⟨_, _, _, rfl, .made asked (Bool.eq_false_iff.mpr no) make, h⟩
  · rintro ⟨ln, t, l', rfl, hensured, h⟩
    cases hensured with
    | @known found asked yes =>
      refine .call asked ?_
      dsimp only
      rw [if_pos yes]
      exact h
    | @made found _ _ asked no make =>
      refine .call asked ?_
      dsimp only
      rw [if_neg (Bool.eq_false_iff.mp no)]
      exact .call make h

/-- A program that makes a container and starts it, and tells whether both succeeded. -/
theorem launch_takes {config : ContainerConfig} {told : α → Bool}
    {k : Except NexaError String → Prog runtimeSig α}
    (refused : ∀ e, ∃ b, k (.error e) = .ret b ∧ told b = false)
    (made : ∀ id, ∃ k', k (.ok id) = .call (.startContainer id) k' ∧
      ∀ started : Except NexaError Unit, ∃ b, k' started = .ret b ∧ told b = started.isOk)
    (h : (.call (.createContainer config) k : Prog runtimeSig α).Takes Host.answer s l a s') :
    Launched config s l s' (told a) := by
  cases h with
  | @call _ _ _ _ _ created _ _ create h =>
    match created, create, h with
    | .error e, create, h =>
      obtain ⟨b, hk, htold⟩ := refused e
      rw [hk] at h
      cases h
      cases create
      rw [htold]
      exact .refused
    | .ok id, ⟨fresh, hcreate⟩, h =>
      subst hcreate
      obtain ⟨k', hk, hends⟩ := made id
      rw [hk] at h
      cases h with
      | @call _ _ _ _ _ started _ _ start h =>
        obtain ⟨b, hk', htold⟩ := hends started
        rw [hk'] at h
        cases h
        rw [htold]
        match started, start with
        | .error e, start =>
          cases start
          exact .stuck
        | .ok (), start =>
          cases start
          exact .running

end Steps

variable {W} {pod : Pod D} {spec : D.DeploymentSpec} {s s' : Host} {l : HostCalls} {ok : Bool}

theorem LocalTransport.assignPod_phases {result : Except NexaError Unit}
    (h : (LocalTransport.assignPod W pod spec).Takes Host.answer s l result s') :
    Phases W pod spec s l s' result.isOk := by
  unfold LocalTransport.assignPod at h
  cases h with
  | @call _ _ _ _ _ pulled _ _ pull h =>
    obtain rfl := answer_pull pull
    cases h with
    | @call _ _ _ _ _ found _ _ asked h =>
      obtain rfl := answer_exists asked
      match found, h with
      | .error e, h =>
        cases h
        exact .untold
      | .ok found, h =>
        obtain ⟨lc, t, _, rfl, hcleared, h⟩ := clearContainer_takes_iff.mp h
        obtain ⟨ln, u, _, rfl, hensured, h⟩ := ensureNetwork_takes_iff.mp h
        refine .through asked hcleared hensured ?_
        exact launch_takes (fun e => ⟨.error e, rfl, rfl⟩)
          (fun id => ⟨_, rfl, fun started => ⟨started, rfl, rfl⟩⟩) h

theorem Cluster.ClusterServer.assignPod_phases {req : AssignPodRequest}
    {result : Except AssignPodStatus AssignPodResponse} (hpod : W.podFromSlice req.podData = .ok pod)
    (hspec : W.specFromSlice req.deploymentSpec = .ok spec)
    (h : (ClusterServer.assignPod W req).Takes Host.answer s l result s') :
    Phases W pod spec s l s' (saysAssigned result) := by
  unfold ClusterServer.assignPod at h
  simp only [hpod, hspec] at h
  cases h with
  | @call _ _ _ _ _ pulled _ _ pull h =>
    obtain rfl := answer_pull pull
    cases h with
    | @call _ _ _ _ _ found _ _ asked h =>
      obtain rfl := answer_exists asked
      obtain ⟨lc, t, _, rfl, hcleared, h⟩ := clearContainer_takes_iff.mp h
      obtain ⟨ln, u, _, rfl, hensured, h⟩ := ensureNetwork_takes_iff.mp h
      refine .through asked hcleared hensured ?_
      refine launch_takes (fun e => ⟨_, rfl, rfl⟩) (fun id => ⟨_, rfl, fun started => ?_⟩) h
      match started with
      | .error e => exact ⟨_, rfl, rfl⟩
      | .ok () => exact ⟨_, rfl, rfl⟩

/-- What an assignment at either end does. -/
theorem Assigns.phases (h : Assigns W pod spec s l s' ok) : Phases W pod spec s l s' ok := by
  cases h with
  | localTransport run => exact LocalTransport.assignPod_phases run
  | clusterServer pod_read spec_read run => exact ClusterServer.assignPod_phases pod_read spec_read run

/-- A program that makes and starts a container as the local end does. -/
theorem Launched.takes {config : ContainerConfig} (h : Launched config s l s' ok) :
    ∃ result : Except NexaError Unit, result.isOk = ok ∧
      ∀ k : Except NexaError String → Prog runtimeSig (Except NexaError Unit),
        (∀ e, k (.error e) = .ret (.error e)) →
        (∀ id, k (.ok id) = .call (.startContainer id) fun (ans : Except NexaError Unit) => .ret ans) →
        (.call (.createContainer config) k : Prog runtimeSig _).Takes Host.answer s l result s' := by
  cases h with
  | @refused e =>
    refine ⟨.error e, rfl, fun k herror _ => .call rfl ?_⟩
    rw [herror]
    exact .ret _ _
  | @stuck id e fresh =>
    refine ⟨.error e, rfl, fun k _ hok => .call ⟨fresh, rfl⟩ ?_⟩
    rw [hok]
    exact .call (rfl : s.create config id fresh = _) (.ret _ _)
  | @running id fresh =>
    refine ⟨.ok (), rfl, fun k _ hok => .call ⟨fresh, rfl⟩ ?_⟩
    rw [hok]
    exact .call (rfl : (s.create config id fresh).start id = _) (.ret _ _)

/-- The local end may go through any phases where it is told whether the
container exists. -/
theorem Assigns.of_phases (pulled : Except NexaError Unit) {lc ln lm : HostCalls} {t u : Host}
    (hcleared : Cleared (W.containerName pod) s (s.container (W.containerName pod)).isSome lc t)
    (hensured : Ensured (Workload.networkName spec) t ln u)
    (hlaunched : Launched (W.containerConfig pod spec) u lm s' ok) :
    Assigns W pod spec s
      ((s, ⟨.pullImage (W.image spec), pulled⟩) ::
        (s, ⟨.containerExists (W.containerName pod),
          (.ok (s.container (W.containerName pod)).isSome : Except NexaError Bool)⟩) ::
        (lc ++ (ln ++ lm)))
      s' ok := by
  have hpull : s.answer (.pullImage (W.image spec)) pulled s := by
    match pulled with
    | .ok _ => exact rfl
    | .error _ => exact rfl
  have hasked : s.answer (.containerExists (W.containerName pod))
      (.ok (s.container (W.containerName pod)).isSome : Except NexaError Bool) s := ⟨rfl, rfl⟩
  obtain ⟨result, rfl, hrun⟩ := hlaunched.takes
  exact .localTransport (.call hpull (.call hasked (clearContainer_takes_iff.mpr
    ⟨_, _, _, rfl, hcleared, ensureNetwork_takes_iff.mpr
      ⟨_, _, _, rfl, hensured, hrun _ (fun _ => rfl) fun _ => rfl⟩⟩)))

/-! ## What the phases leave -/

section Frames

variable {name : String} {config : ContainerConfig} {found : Bool} {l : HostCalls} {s s' : Host}
  {ok : Bool}

/-- A call that stops a container, and one that removes it. -/
theorem answer_stop {ans : Except NexaError Unit} {t : UInt64}
    (h : s.answer (.stopContainer name t) ans s') : ans.isOk = true ∧ s' = s.stop name ∨ s' = s := by
  obtain ⟨_, rfl, hdone⟩ | ⟨-, hsame⟩ := Host.Outcome.cases h
  · exact .inl ⟨rfl, hdone⟩
  · exact .inr hsame

theorem answer_remove {ans : Except NexaError Unit} {force : Bool}
    (h : s.answer (.removeContainer name force) ans s') :
    ans.isOk = true ∧ s' = s.remove name ∨ s' = s := by
  obtain ⟨_, rfl, hdone⟩ | ⟨-, hsame⟩ := Host.Outcome.cases h
  · exact .inl ⟨rfl, hdone⟩
  · exact .inr hsame

theorem Cleared.networks (h : Cleared name s found l s') : s'.networks = s.networks := by
  cases h with
  | nothing => rfl
  | tornDown stop remove =>
    obtain ⟨-, rfl⟩ | rfl := answer_stop stop <;> obtain ⟨-, rfl⟩ | rfl := answer_remove remove <;> rfl

/-- Clearing touches the container of the name only. -/
theorem Cleared.others (h : Cleared name s found l s') {n : String} (hn : n ≠ name) :
    s'.container n = s.container n := by
  cases h with
  | nothing => rfl
  | @tornDown _ _ t _ stop remove =>
    have hstop : t.container n = s.container n := by
      obtain ⟨-, rfl⟩ | rfl := answer_stop stop
      · exact s.stop_ne hn
      · rfl
    rw [← hstop]
    obtain ⟨-, rfl⟩ | rfl := answer_remove remove
    · exact t.remove_ne hn
    · rfl

theorem Ensured.container (h : Ensured name s l s') : s'.container = s.container := by
  cases h with
  | known => rfl
  | made _ _ make =>
    obtain ⟨_, -, rfl⟩ | ⟨-, rfl⟩ := Host.Outcome.cases make <;> rfl

theorem Launched.networks (h : Launched config s l s' ok) : s'.networks = s.networks := by
  cases h <;> rfl

/-- Launching touches the container of the configuration only. -/
theorem Launched.others (h : Launched config s l s' ok) {n : String} (hn : n ≠ config.name) :
    s'.container n = s.container n := by
  cases h with
  | refused => rfl
  | stuck => exact Host.create_ne _ hn
  | running => exact Host.start_created_ne _ hn

end Frames

/-- An assignment touches the container of its pod's name only. -/
theorem Assigns.others (h : Assigns W pod spec s l s' ok) {n : String}
    (hn : n ≠ W.containerName pod) : s'.container n = s.container n := by
  cases h.phases with
  | untold => rfl
  | through _ cleared ensured launched =>
    rw [launched.others hn, ensured.container, cleared.others hn]

/-- Under another name the machine has the containers that it had. -/
theorem Assigns.has_iff (h : Assigns W pod spec s l s' ok) {c : Container}
    (hname : c.config.name ≠ W.containerName pod) : s'.Has c ↔ s.Has c := by
  rw [Host.Has, Host.Has, h.others hname]

/-- An assignment that succeeded has left its own container running. -/
theorem Assigns.own (h : Assigns W pod spec s l s' true) :
    ∃ id, s'.container (W.containerName pod) = some ⟨id, W.containerConfig pod spec, true⟩ := by
  cases h.phases with
  | through _ _ _ launched =>
    cases launched with
    | @running id => exact ⟨id, Host.start_created_self _⟩

/-- Whatever a machine is like, clearing may succeed, and then the name is free
and nothing has a new id. -/
theorem Cleared.possible (s : Host) (name : String) : ∃ lc t,
    Cleared name s (s.container name).isSome lc t ∧ t.container name = none ∧
      (∀ {n c}, t.container n = some c → s.container n = some c) ∧ AllSucceeded lc := by
  cases hname : s.container name with
  | none => exact ⟨[], s, .nothing, hname, id, fun _ _ h => by cases h⟩
  | some c =>
    have hstop : s.answer (.stopContainer name 5) (.ok () : Except NexaError Unit) (s.stop name) := rfl
    have hremove : (s.stop name).answer (.removeContainer name true) (.ok () : Except NexaError Unit)
      ((s.stop name).remove name) := rfl
    refine ⟨_, _, .tornDown hstop hremove, Host.remove_self _ _, ?_, ?_⟩
    · intro n d hd
      by_cases hn : n = name
      · subst hn
        rw [Host.remove_self] at hd
        cases hd
      · rwa [Host.remove_ne _ hn, Host.stop_ne _ hn] at hd
    · intro q call hcall
      simp only [List.mem_cons, Prod.mk.injEq, List.not_mem_nil, or_false] at hcall
      obtain ⟨-, rfl⟩ | ⟨-, rfl⟩ := hcall <;> rfl

/-- The network may be ensured without an error. -/
theorem Ensured.possible (s : Host) (name : String) :
    ∃ ln t, Ensured name s ln t ∧ AllSucceeded ln := by
  have hasked : s.answer (.containerExists name)
      (.ok (s.container name).isSome : Except NexaError Bool) s := ⟨rfl, rfl⟩
  cases hname : (s.container name).isSome with
  | true =>
    refine ⟨_, s, .known hasked hname, fun q call hcall => ?_⟩
    obtain ⟨-, rfl⟩ := Prod.mk.inj (List.mem_singleton.mp hcall)
    rfl
  | false =>
    have hmake : s.answer (.createNetwork name) (.ok name : Except NexaError String)
      (s.addNetwork name) := rfl
    refine ⟨_, _, .made hasked hname hmake, fun q call hcall => ?_⟩
    simp only [List.mem_cons, Prod.mk.injEq, List.not_mem_nil, or_false] at hcall
    obtain ⟨-, rfl⟩ | ⟨-, rfl⟩ := hcall <;> rfl

/-- On every machine the phases may be gone through without an error, as long as
there is an id that no container has. -/
theorem phases_possible (W : Workload D) (pod : Pod D) (spec : D.DeploymentSpec) {s : Host}
    {id : String} (hid : ∀ {n c}, s.container n = some c → c.id ≠ id) : ∃ lc t ln u,
    Cleared (W.containerName pod) s (s.container (W.containerName pod)).isSome lc t ∧
    Ensured (Workload.networkName spec) t ln u ∧ u.Fresh (W.containerConfig pod spec) id ∧
    AllSucceeded lc ∧ AllSucceeded ln := by
  obtain ⟨lc, t, hcleared, hfree, hkept, hlc⟩ := Cleared.possible s (W.containerName pod)
  obtain ⟨ln, u, hensured, hln⟩ := Ensured.possible t (Workload.networkName spec)
  refine ⟨lc, t, ln, u, hcleared, hensured, ⟨?_, fun {n c} hc => ?_⟩, hlc, hln⟩
  · rw [hensured.container]
    exact hfree
  · rw [hensured.container] at hc
    exact hid (hkept hc)

section Possible

variable {id : String} {lc ln : HostCalls} {u : Host}

/-- All calls of an assignment succeed if those of the phases do. -/
private theorem all_succeeded (s : Host) (found : Bool)
    (fresh : u.Fresh (W.containerConfig pod spec) id) (hlc : AllSucceeded lc)
    (hln : AllSucceeded ln) : AllSucceeded
      ((s, ⟨.pullImage (W.image spec), (.ok () : Except NexaError Unit)⟩) ::
        (s, ⟨.containerExists (W.containerName pod), (.ok found : Except NexaError Bool)⟩) ::
        (lc ++ (ln ++
          [(u, ⟨.createContainer (W.containerConfig pod spec), (.ok id : Except NexaError String)⟩),
          (u.create _ id fresh, ⟨.startContainer id, (.ok () : Except NexaError Unit)⟩)]))) := by
  intro q call hcall
  simp only [List.mem_cons, List.mem_append, Prod.mk.injEq, List.not_mem_nil, or_false] at hcall
  obtain ⟨-, rfl⟩ | ⟨-, rfl⟩ | hcall | hcall | ⟨-, rfl⟩ | ⟨-, rfl⟩ := hcall
  · rfl
  · rfl
  · exact hlc _ _ hcall
  · exact hln _ _ hcall
  · rfl
  · rfl

/-- On every machine an assignment may go through without an error, as long as
there is an id that no container has. -/
theorem Assigns.possible (W : Workload D) (pod : Pod D) (spec : D.DeploymentSpec)
    (hid : ∀ {n c}, s.container n = some c → c.id ≠ id) : ∃ l s',
    Assigns W pod spec s l s' true ∧ AllSucceeded l := by
  obtain ⟨lc, t, ln, u, hcleared, hensured, hfresh, hlc, hln⟩ := phases_possible W pod spec hid
  have hlaunched : Launched _ u _ ((u.create _ id hfresh).start id) true := .running
  exact ⟨_, _, .of_phases (.ok ()) hcleared hensured hlaunched, all_succeeded s _ hfresh hlc hln⟩

/-- So may one at a worker, which then answers that the pod runs. -/
theorem Cluster.ClusterServer.assignPod_possible {req : AssignPodRequest}
    (hpod : W.podFromSlice req.podData = .ok pod)
    (hspec : W.specFromSlice req.deploymentSpec = .ok spec)
    (hid : ∀ {n c}, s.container n = some c → c.id ≠ id) : ∃ l s',
    (ClusterServer.assignPod W req).Takes Host.answer s l (.ok ⟨true, "running", id⟩) s' ∧
      AllSucceeded l := by
  obtain ⟨lc, t, ln, u, hcleared, hensured, hfresh, hlc, hln⟩ := phases_possible W pod spec hid
  refine ⟨_, (u.create _ id hfresh).start id, ?_,
    all_succeeded s (s.container (W.containerName pod)).isSome hfresh hlc hln⟩
  unfold ClusterServer.assignPod
  simp only [hpod, hspec]
  have hasked : s.answer (.containerExists (W.containerName pod))
      (.ok (s.container (W.containerName pod)).isSome : Except NexaError Bool) s := ⟨rfl, rfl⟩
  have hcreate : u.answer (.createContainer (W.containerConfig pod spec))
      (.ok id : Except NexaError String) (u.create _ id hfresh) := ⟨hfresh, rfl⟩
  have hstart : (u.create _ id hfresh).answer (.startContainer id)
      (.ok () : Except NexaError Unit) ((u.create _ id hfresh).start id) := rfl
  exact .call rfl (.call hasked (clearContainer_takes_iff.mpr ⟨_, _, _, rfl, hcleared,
    ensureNetwork_takes_iff.mpr ⟨_, _, _, rfl, hensured, .call hcreate (.call hstart (.ret _ _))⟩⟩))

end Possible

/-! ## One after the other -/

/-- One assignment of a sequence. -/
structure Attempt (D : Domain) where
  pod : Pod D
  spec : D.DeploymentSpec
  calls : HostCalls
  ok : Bool

/-- The assignments of a sequence run one after the other. -/
def Attempt.Step (W : Workload D) (s : Host) (a : Attempt D) (s' : Host) : Prop :=
  Assigns W a.pod a.spec s a.calls s' a.ok

/-- A sequence of assignments touches the containers of its pods' names only. -/
theorem attempts_others {s₀ s : Host} {l : List (Host × Attempt D)}
    (h : Runs.Run (Attempt.Step W) s₀ l s) {n : String}
    (hn : ∀ q a, (q, a) ∈ l → W.containerName a.pod ≠ n) : s.container n = s₀.container n := by
  refine h.visited (I := fun q => q.container n = s₀.container n)
    (A := fun _ a => W.containerName a.pod ≠ n) rfl ?_ hn (.inl rfl)
  intro q a q' hstep hne hq
  rw [hstep.others hne.symm, hq]

end Nexad
