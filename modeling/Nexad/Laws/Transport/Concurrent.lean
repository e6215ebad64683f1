import Nexad.Laws.Runtime.Engine
import Nexad.Laws.Transport.Machine
import Nexad.Transport.Assignments

/-!
# Assignments side by side

Nothing orders the assignments of one machine, containers end at any moment, and
a call that failed may have done its work. Still, whoever is told that a pod is
there has made its container, under the pod's name and from its own
configuration, and no one but another assignment of the same name takes it away
(`assigned_or_removed`). What is under other names stays as it was (`others_kept`). Through
`Engine.Documented.followed` both hold of the containers of a Docker daemon
(`docker_made`, `docker_others`).
-/

namespace Nexad

open Interleave Nexad.Runtime Cluster

variable {D : Domain} {W : Workload D} {pod : Pod D} {spec : D.DeploymentSpec}

/-! ## The calls of one assignment -/

section Calls

variable {α : Type} {rest : Prog runtimeSig α} {name : String} {l : List RuntimeCall} {a : α}
  {A : (op : RuntimeOp) → runtimeSig.Ans op → Prop} {P : RuntimeOp → Prop}

theorem clearContainer_path {found : Bool} (h : (clearContainer found name rest).Path l (.ret a)) :
    ∃ before l', l = before ++ l' ∧ rest.Path l' (.ret a) := by
  cases found with
  | false => exact ⟨[], l, rfl, h⟩
  | true =>
    cases h with
    | call stopped h =>
      cases h with
      | call removed h =>
        exact ⟨[⟨.stopContainer name 5, stopped⟩, ⟨.removeContainer name true, removed⟩], _, rfl, h⟩

theorem ensureNetwork_path (h : (ensureNetwork name rest).Path l (.ret a)) :
    ∃ before l', l = before ++ l' ∧ rest.Path l' (.ret a) := by
  unfold ensureNetwork at h
  cases h with
  | call found h =>
    dsimp only at h
    split at h
    · exact ⟨[⟨.containerExists name, found⟩], _, rfl, h⟩
    · cases h with
      | call created h =>
        exact ⟨[⟨.containerExists name, found⟩, ⟨.createNetwork name, created⟩], _, rfl, h⟩

theorem clearContainer_given {found : Bool} (hstop : P (.stopContainer name 5))
    (hremove : P (.removeContainer name true)) (h : rest.Given A P) :
    (clearContainer found name rest).Given A P := by
  cases found with
  | false => exact h
  | true => exact ⟨hstop, fun _ _ => ⟨hremove, fun _ _ => h⟩⟩

theorem ensureNetwork_given (hexists : P (.containerExists name)) (hmake : P (.createNetwork name))
    (h : rest.Given A P) : (ensureNetwork name rest).Given A P := by
  refine ⟨hexists, fun found _ => ?_⟩
  dsimp only
  split
  · exact h
  · exact ⟨hmake, fun _ _ => h⟩

end Calls

/-- What the calls of an assignment need from the answers before them. -/
theorem AssignRequest.For.given {req : AssignRequest D} (hfor : req.For W pod spec)
    {A : (op : RuntimeOp) → runtimeSig.Ans op → Prop} {P : RuntimeOp → Prop}
    (hpull : P (.pullImage (W.image spec))) (hexists : P (.containerExists (W.containerName pod)))
    (hstop : P (.stopContainer (W.containerName pod) 5))
    (hremove : P (.removeContainer (W.containerName pod) true))
    (hnetwork : P (.containerExists (Workload.networkName spec)))
    (hmake : P (.createNetwork (Workload.networkName spec)))
    (hcreate : P (.createContainer (W.containerConfig pod spec)))
    (hstart : ∀ id, A (.createContainer (W.containerConfig pod spec)) (.ok id : Except NexaError String) →
      P (.startContainer id)) : (req.code W).Given A P := by
  cases hfor with
  | localTransport =>
    refine Prog.Given.bind ?_ fun _ => trivial
    refine ⟨hpull, fun _ _ => ⟨hexists, fun found _ => ?_⟩⟩
    match found with
    | .error _ => exact trivial
    | .ok found =>
      refine clearContainer_given hstop hremove (ensureNetwork_given hnetwork hmake ?_)
      refine ⟨hcreate, fun created hcreated => ?_⟩
      match created with
      | .error _ => exact trivial
      | .ok id => exact ⟨hstart id hcreated, fun _ _ => trivial⟩
  | clusterServer pod_read spec_read =>
    refine Prog.Given.bind ?_ fun _ => trivial
    unfold ClusterServer.assignPod
    simp only [pod_read, spec_read]
    refine ⟨hpull, fun _ _ => ⟨hexists, fun found _ => ?_⟩⟩
    refine clearContainer_given hstop hremove (ensureNetwork_given hnetwork hmake ?_)
    refine ⟨hcreate, fun created hcreated => ?_⟩
    match created with
    | .error _ => exact trivial
    | .ok id =>
      refine ⟨hstart id hcreated, fun started _ => ?_⟩
      match started with
      | .error _ => exact trivial
      | .ok () => exact trivial

/-- The calls with which a pod's container comes to run. -/
def launching (config : ContainerConfig) (id : String) : List RuntimeCall :=
  [⟨.createContainer config, (.ok id : Except NexaError String)⟩,
    ⟨.startContainer id, (.ok () : Except NexaError Unit)⟩]

/-- A program that makes a container and starts it, and tells whether both succeeded. -/
theorem launch_path {α : Type} {config : ContainerConfig} (told : α → Bool)
    {k : Except NexaError String → Prog runtimeSig α} {l : List RuntimeCall} {a : α}
    (refused : ∀ e, ∃ b, k (.error e) = .ret b ∧ told b = false)
    (made : ∀ id, ∃ k', k (.ok id) = .call (.startContainer id) k' ∧
      ∀ started : Except NexaError Unit, ∃ b, k' started = .ret b ∧ told b = started.isOk)
    (h : (.call (.createContainer config) k : Prog runtimeSig α).Path l (.ret a)) (hok : told a = true) :
    ∃ id, l = launching config id := by
  cases h with
  | call created h =>
    match created, h with
    | .error e, h =>
      obtain ⟨b, hk, htold⟩ := refused e
      rw [hk] at h
      cases h
      rw [htold] at hok
      cases hok
    | .ok id, h =>
      obtain ⟨k', hk, hends⟩ := made id
      rw [hk] at h
      cases h with
      | call started h =>
        obtain ⟨b, hk', htold⟩ := hends started
        rw [hk'] at h
        cases h
        rw [htold] at hok
        match started, hok with
        | .ok (), _ => exact ⟨id, rfl⟩

/-- A request that is for no pod makes no calls. -/
theorem AssignRequest.given_of_for {req : AssignRequest D} {A : (op : RuntimeOp) → runtimeSig.Ans op → Prop}
    {P : RuntimeOp → Prop} (h : ∀ pod spec, req.For W pod spec → (req.code W).Given A P) :
    (req.code W).Given A P := by
  cases req with
  | localTransport pod spec => exact h pod spec (.localTransport pod spec)
  | clusterServer req =>
    cases hpod : W.podFromSlice req.podData with
    | error e =>
      refine Prog.Given.bind ?_ fun _ => trivial
      unfold ClusterServer.assignPod
      simp only [hpod]
      exact trivial
    | ok pod =>
      cases hspec : W.specFromSlice req.deploymentSpec with
      | error e =>
        refine Prog.Given.bind ?_ fun _ => trivial
        unfold ClusterServer.assignPod
        simp only [hpod, hspec]
        exact trivial
      | ok spec => exact h pod spec (.clusterServer hpod hspec)

/-- The last calls of an assignment that succeeded make the container and start it. -/
theorem AssignRequest.For.launched {req : AssignRequest D} (hfor : req.For W pod spec)
    {calls : List RuntimeCall} {reply : AssignReply} (h : (req.code W).Path calls (.ret reply))
    (hok : reply.success = true) :
    ∃ before id, calls = before ++ launching (W.containerConfig pod spec) id := by
  cases hfor with
  | localTransport =>
    obtain ⟨result, hcode, rfl⟩ := Prog.Path.of_bind_ret h
    clear h
    unfold LocalTransport.assignPod at hcode
    cases hcode with
    | call pulled h =>
      cases h with
      | call found h =>
        match found, h with
        | .error e, h =>
          cases h
          cases hok
        | .ok found, h =>
          obtain ⟨cleared, _, rfl, hrest⟩ := clearContainer_path h
          obtain ⟨ensured, _, rfl, hlaunch⟩ := ensureNetwork_path hrest
          obtain ⟨id, rfl⟩ := launch_path (fun r : Except NexaError Unit => r.isOk)
            (fun e => ⟨.error e, rfl, rfl⟩) (fun id => ⟨_, rfl, fun started => ⟨started, rfl, rfl⟩⟩) hlaunch hok
          refine ⟨⟨.pullImage (W.image spec), pulled⟩ ::
            ⟨.containerExists (W.containerName pod), (.ok found : Except NexaError Bool)⟩ ::
              (cleared ++ ensured), id, ?_⟩
          simp
  | clusterServer pod_read spec_read =>
    obtain ⟨result, hcode, rfl⟩ := Prog.Path.of_bind_ret h
    clear h
    unfold ClusterServer.assignPod at hcode
    simp only [pod_read, spec_read] at hcode
    cases hcode with
    | call pulled h =>
      cases h with
      | call found h =>
        obtain ⟨cleared, _, rfl, hrest⟩ := clearContainer_path h
        obtain ⟨ensured, _, rfl, hlaunch⟩ := ensureNetwork_path hrest
        obtain ⟨id, rfl⟩ := launch_path (fun r => (AssignReply.clusterServer r).success)
          (fun e => ⟨_, rfl, rfl⟩) (fun id => ⟨_, rfl, fun started => by
            match started with
            | .error e => exact ⟨_, rfl, rfl⟩
            | .ok () => exact ⟨_, rfl, rfl⟩⟩) hlaunch hok
        refine ⟨⟨.pullImage (W.image spec), pulled⟩ :: ⟨.containerExists (W.containerName pod), found⟩ ::
          (cleared ++ ensured), id, ?_⟩
        simp

/-! ## What one call can change -/

namespace Runtime

/-- What a container keeps for as long as it is there. -/
def Container.made (c : Container) : String × ContainerConfig := (c.id, c.config)

theorem Host.switch_made (s : Host) (meant : Container → Bool) (running : Bool) (n : String) :
    ((s.switch meant running).container n).map Container.made = (s.container n).map Container.made := by
  show ((s.container n).map _).map _ = _
  rw [Option.map_map]
  congr 1
  funext c
  show Container.made (if meant c then _ else _) = c.made
  split <;> rfl

theorem Host.Wanes.made {s s' : Host} (h : s.Wanes s') (n : String) :
    (s'.container n).map Container.made = (s.container n).map Container.made := by
  obtain ⟨ended, rfl⟩ := h
  exact s.switch_made ended false n

/-- The container under a name stays what it is, unless it is removed, or there
was none and one is made. -/
theorem Host.answer_made {s s' : Host} {op : RuntimeOp} {ans : runtimeSig.Ans op} (h : s.answer op ans s')
    (n : String) (hremove : ∀ force, op ≠ .removeContainer n force) :
    (s'.container n).map Container.made = (s.container n).map Container.made ∨
      s.container n = none ∧ ∃ config, op = .createContainer config ∧ config.name = n := by
  cases op with
  | pullImage =>
    obtain ⟨_, -, rfl⟩ | ⟨-, rfl⟩ := Host.Outcome.cases h <;> exact .inl rfl
  | containerExists =>
    obtain ⟨_, -, -, rfl⟩ | ⟨-, rfl⟩ := Host.Outcome.cases h <;> exact .inl rfl
  | stopContainer =>
    obtain ⟨_, -, rfl⟩ | ⟨-, rfl⟩ := Host.Outcome.cases h
    · exact .inl (s.switch_made _ false n)
    · exact .inl rfl
  | removeContainer name force =>
    obtain ⟨_, -, rfl⟩ | ⟨-, rfl⟩ := Host.Outcome.cases h
    · have hn : n ≠ name := by
        rintro rfl
        exact hremove force rfl
      rw [s.remove_ne hn]
      exact .inl rfl
    · exact .inl rfl
  | createNetwork =>
    obtain ⟨_, -, rfl⟩ | ⟨-, rfl⟩ := Host.Outcome.cases h <;> exact .inl rfl
  | createContainer config =>
    obtain ⟨id, -, hfresh, rfl⟩ | ⟨-, rfl⟩ := Host.Outcome.cases h
    · by_cases hn : n = config.name
      · subst hn
        exact .inr ⟨hfresh.name_free, config, rfl, rfl⟩
      · rw [Host.create_ne hfresh hn]
        exact .inl rfl
    · exact .inl rfl
  | startContainer =>
    obtain ⟨_, -, rfl⟩ | ⟨-, rfl⟩ := Host.Outcome.cases h
    · exact .inl (s.switch_made _ true n)
    · exact .inl rfl

theorem Host.serves_made {s s' : Host} {op : RuntimeOp} {ans : runtimeSig.Ans op} (h : s.serves op ans s')
    (n : String) (hremove : ∀ force, op ≠ .removeContainer n force) :
    (s'.container n).map Container.made = (s.container n).map Container.made ∨
      s.container n = none ∧ ∃ config, op = .createContainer config ∧ config.name = n := by
  obtain ⟨u, hwanes, hanswer⟩ := h
  have hmade := hwanes.made n
  have hnone : u.container n = none → s.container n = none := fun hu => by
    rw [hu] at hmade
    exact Option.map_eq_none_iff.mp hmade.symm
  obtain ⟨ans', hanswer⟩ : ∃ ans', u.answer op ans' s' := by
    rcases hanswer with hanswer | ⟨-, hanswer⟩
    · exact ⟨ans, hanswer⟩
    · exact hanswer
  rcases Host.answer_made hanswer n hremove with hsame | ⟨hu, hcreate⟩
  · exact .inl (hsame.trans hmade)
  · exact .inr ⟨hnone hu, hcreate⟩

end Runtime

/-! ## Runs -/

/-- The call removes and makes no container but that of this name. -/
def About (name : String) : RuntimeOp → Prop
  | .removeContainer n _ => n = name
  | .createContainer config => config.name = name
  | _ => True

/-- The request is for a pod whose container has this name. -/
def AssignRequest.Names (W : Workload D) (req : AssignRequest D) (name : String) : Prop :=
  ∃ pod spec, req.For W pod spec ∧ W.containerName pod = name

section Run

variable {arrives : AssignRequest D → Prop} {s₀ : Host} {l : History runtimeSig Host (AssignRequest D)}
  {p : Pool runtimeSig Host (AssignRequest D) AssignReply}

/-- A call removes and makes no container but that of its own request. -/
theorem calls_about (hrun : Run (Host.machine (AssignRequest.code W) arrives) (.idle s₀) l p) {s : Host} {k : Nat}
    {req : AssignRequest D} {op : RuntimeOp} {ans : runtimeSig.Ans op} (hmem : (s, .call k req op ans) ∈ l) :
    arrives req ∧ ∃ name, req.Names W name ∧ About name op := by
  refine (Run.given (A := fun _ _ => True)
    (P := fun req op => arrives req ∧ ∃ name, req.Names W name ∧ About name op) (I := fun _ => True)
    (fun req harrives => ?_) (fun _ _ _ _ _ _ _ _ _ _ => ⟨trivial, trivial⟩) (fun _ _ _ _ => trivial) trivial
    hrun fun s e _ => (trivial : (fun _ _ => True) s e)).2 s k req op ans hmem
  refine AssignRequest.given_of_for fun pod spec hfor => ?_
  have hquiet : ∀ {op}, About (W.containerName pod) op →
      arrives req ∧ ∃ name, req.Names W name ∧ About name op :=
    fun habout => ⟨harrives, W.containerName pod, ⟨pod, spec, hfor, rfl⟩, habout⟩
  exact hfor.given (hquiet trivial) (hquiet trivial) (hquiet trivial) (hquiet rfl) (hquiet trivial)
    (hquiet trivial) (hquiet rfl) fun _ _ => hquiet trivial

/-- A removal of this container. -/
def Removes (name : String) (e : Event runtimeSig (AssignRequest D)) : Prop :=
  ∃ k req force ans, e = .call k req (.removeContainer name force) ans

/-- A container is what it is for as long as it is not removed. -/
theorem made_kept {p₀ : Pool runtimeSig Host (AssignRequest D) AssignReply} {name : String}
    {made : String × ContainerConfig} (hmade : (p₀.state.container name).map Container.made = some made)
    (hrun : Run (Host.machine (AssignRequest.code W) arrives) p₀ l p)
    (hremoved : ∀ s e, (s, e) ∈ l → ¬ Removes name e) :
    (p.state.container name).map Container.made = some made := by
  refine hrun.visited (I := fun s => (s.container name).map Container.made = some made)
    (A := fun _ e => ¬ Removes name e) hmade (fun q e q' hstep hkept hq => ?_) hremoved (.inl rfl)
  cases hstep with
  | arrive => exact hq
  | @call k req op cont ans s' at_call answered =>
    have hother : ∀ force, op ≠ .removeContainer name force := by
      rintro force rfl
      exact hkept ⟨k, req, force, ans, rfl⟩
    rcases Host.serves_made answered name hother with hsame | ⟨hnone, -⟩
    · exact hsame.trans hq
    · rw [hnone] at hq
      cases hq
  | env moves => exact (Host.Wanes.made moves name).trans hq

/-- Whoever is told that a pod is there has made its container, and it is there,
or another request for the name has asked for its removal since. -/
theorem assigned_or_removed (hrun : Run (Host.machine (AssignRequest.code W) arrives) (.idle s₀) l p) {k : Nat}
    {req : AssignRequest D} {reply : AssignReply} (hfor : req.For W pod spec)
    (hk : p.thread k = some (req, .ret reply)) (hok : reply.success = true) :
    ∃ id later s earlier, l = later ++ (s, .call k req (.createContainer (W.containerConfig pod spec))
        (.ok id : Except NexaError String)) :: earlier ∧
      ((p.state.container (W.containerName pod)).map Container.made =
          some (id, W.containerConfig pod spec) ∨
        ∃ s' j req' force ans, j ≠ k ∧ req'.Names W (W.containerName pod) ∧
          (s', .call j req' (.removeContainer (W.containerName pod) force) ans) ∈ later) := by
  obtain ⟨before, id, hcalls⟩ := hfor.launched (hrun.path hk) hok
  obtain ⟨later, s, req', earlier, rfl, -, hown⟩ := History.exists_split hcalls
  have hmem : (s, Event.call k req' (RuntimeOp.createContainer (W.containerConfig pod spec))
      (.ok id : Except NexaError String)) ∈ later ++ _ :: earlier :=
    List.mem_append_right later List.mem_cons_self
  obtain rfl := hrun.request_eq hk hmem
  obtain ⟨q, q', -, -, hstep, hlater⟩ := hrun.around
  refine ⟨id, later, s, earlier, rfl, ?_⟩
  have hcreated : (q'.state.container (W.containerName pod)).map Container.made =
      some (id, W.containerConfig pod spec) := by
    cases hstep with
    | call at_call answered =>
      obtain ⟨u, -, ⟨hfresh, rfl⟩ | ⟨hfailed, -⟩⟩ := answered
      · exact congrArg (Option.map Container.made) (Host.create_self hfresh)
      · cases hfailed
  by_cases hremoved : ∃ s' e, (s', e) ∈ later ∧ Removes (W.containerName pod) e
  · obtain ⟨s', e, hmem', j, req', force, ans, rfl⟩ := hremoved
    right
    refine ⟨s', j, req', force, ans, ?_, ?_, hmem'⟩
    · rintro rfl
      have hcall := History.mem_calls.mpr ⟨s', req', hmem'⟩
      rw [hown] at hcall
      cases List.mem_singleton.mp hcall
    · obtain ⟨-, name, hnames, hname⟩ := calls_about hrun (List.mem_append_left _ hmem')
      exact (show W.containerName pod = name from hname) ▸ hnames
  · left
    exact made_kept hcreated hlater fun s' e he hremoves => hremoved ⟨s', e, he, hremoves⟩

/-- What is under a name that no request is for stays as it was. -/
theorem others_kept (hrun : Run (Host.machine (AssignRequest.code W) arrives) (.idle s₀) l p) {name : String}
    (hother : ∀ req, arrives req → ¬ req.Names W name) :
    (p.state.container name).map Container.made = (s₀.container name).map Container.made := by
  refine Run.visited (I := fun s => (s.container name).map Container.made = (s₀.container name).map Container.made)
    (A := fun _ e => ∀ k req op ans, e = .call k req op ans → ∃ n, n ≠ name ∧ About n op) rfl
    (fun q e q' hstep hquiet hq => ?_) hrun (fun s e he k req op ans heq => ?_) (.inl rfl)
  · cases hstep with
    | arrive => exact hq
    | @call k req op cont ans s' at_call answered =>
      obtain ⟨n, hn, habout⟩ := hquiet k req op ans rfl
      have hremove : ∀ force, op ≠ .removeContainer name force := by
        rintro force rfl
        exact hn habout.symm
      rcases Host.serves_made answered name hremove with hsame | ⟨-, config, rfl, hname⟩
      · exact hsame.trans hq
      · exact absurd (habout.symm.trans hname) hn
    | env moves => exact (Host.Wanes.made moves name).trans hq
  · subst heq
    obtain ⟨harrives, n, hnames, habout⟩ := calls_about hrun he
    refine ⟨n, ?_, habout⟩
    rintro rfl
    exact hother req harrives hnames

end Run

/-! ## On a Docker daemon -/

/-- No request is for a pod whose container or network has a name that a daemon
takes for something else. -/
def PlainRequests (W : Workload D) (arrives : AssignRequest D → Prop) : Prop :=
  ∀ req pod spec, arrives req → req.For W pod spec →
    Plain (W.containerName pod) ∧ '/' ∉ (D.project spec).toList

/-- The container of a pod is marked. -/
theorem Workload.managed (pod : Pod D) (spec : D.DeploymentSpec) : Managed (W.containerConfig pod spec) := by
  show (Workload.labels pod spec).lookup "managed-by" = _
  unfold Workload.labels
  rw [AList.lookup_insert_ne (by decide), AList.lookup_insert_ne (by decide),
    AList.lookup_insert_ne (by decide), AList.lookup_insert]

section Docker

variable {arrives : AssignRequest D → Prop}

theorem PlainRequests.given (h : PlainRequests W arrives) (req : AssignRequest D) (harrives : arrives req) :
    (req.code W).Given TellsAnId Refers := by
  refine AssignRequest.given_of_for fun pod spec hfor => ?_
  obtain ⟨hname, hproject⟩ := h req pod spec harrives hfor
  have hnetwork : '/' ∉ (Workload.networkName spec).toList := by
    show '/' ∉ ("nexa-" ++ D.project spec).toList
    rw [String.toList_append, List.mem_append]
    rintro (hmem | hmem)
    · exact absurd hmem (by decide)
    · exact hproject hmem
  exact hfor.given trivial hname.1 hname hname hnetwork trivial
    ⟨hname.not_isId, Workload.managed pod spec⟩ fun id hid => hid id rfl

/-- What a container of the daemon keeps for as long as it is there. -/
def Runtime.EngineContainer.made (c : EngineContainer) : String × DockerConfig := (c.id, c.config)

theorem Runtime.Shows.made {before stock : Stock} {s : Host} (h : Shows before stock s) {name id : String}
    {config : ContainerConfig} (hmade : (s.container name).map Container.made = some (id, config))
    (hmanaged : Managed config) : (stock.container name).map EngineContainer.made =
      some (id, DockerRuntime.createConfig config) := by
  obtain ⟨c, hc, heq⟩ := Option.map_eq_some_iff.mp hmade
  cases heq
  obtain ⟨d, hd, halike⟩ := h.of_host hc
  rw [hd, Option.map_some, EngineContainer.made, halike.id, halike.own hmanaged]

/-- Containers that are the same on the machine are the same for the daemon. -/
theorem Runtime.Shows.made_eq {before stock : Stock} {s s₀ : Host} (h : Shows before stock s)
    (h₀ : Shows before before s₀) {name : String}
    (hsame : (s.container name).map Container.made = (s₀.container name).map Container.made) :
    (stock.container name).map EngineContainer.made = (before.container name).map EngineContainer.made := by
  cases hd : before.container name with
  | none =>
    rw [h₀.of_none hd, Option.map_none, Option.map_eq_none_iff] at hsame
    cases hs : stock.container name with
    | none => rfl
    | some d =>
      obtain ⟨c, hc, -⟩ := h.of_some hs
      rw [hsame] at hc
      cases hc
  | some d₀ =>
    obtain ⟨c₀, hc₀, halike₀⟩ := h₀.of_some hd
    rw [hc₀, Option.map_some] at hsame
    obtain ⟨c, hc, heq⟩ := Option.map_eq_some_iff.mp hsame
    obtain ⟨d, hd', halike⟩ := h.of_host hc
    have hid : c.id = c₀.id := congrArg Prod.fst heq
    have hconfig : c.config = c₀.config := congrArg Prod.snd heq
    rw [hd', Option.map_some, Option.map_some]
    refine congrArg some (Prod.ext (halike.id.trans (hid.trans halike₀.id.symm)) ?_)
    show d.config = d₀.config
    by_cases hmanaged : Managed c.config
    · rw [halike.own hmanaged, halike₀.own (hconfig ▸ hmanaged), hconfig]
    · obtain ⟨d', hd'', -, hother⟩ := halike.other hmanaged
      rw [s.named hc, hd] at hd''
      cases hd''
      exact hother.symm

variable {E : Engine} {t₀ : E.State} {l : History engineSig E.State (AssignRequest D)}
  {p : Pool engineSig E.State (AssignRequest D) AssignReply}

/-- In the history `l` of a daemon that is at `t`, thread `k` has made the
container of a pod, and the daemon has it, or another request for the name has
asked for its removal since. -/
def MadeBy (E : Engine) (W : Workload D) (pod : Pod D) (spec : D.DeploymentSpec) (k : Nat) (req : AssignRequest D)
    (l : History engineSig E.State (AssignRequest D)) (t : E.State) : Prop :=
  ∃ id later t' earlier, l = later ++ (t', .call k req (.docker (.createContainer
      ⟨W.containerName pod, none⟩ (DockerRuntime.createConfig (W.containerConfig pod spec))))
      (.ok id : Except String String)) :: earlier ∧
    (((E.stock t).container (W.containerName pod)).map EngineContainer.made =
        some (id, DockerRuntime.createConfig (W.containerConfig pod spec)) ∨
      ∃ t' j req' options ans, j ≠ k ∧ req'.Names W (W.containerName pod) ∧
        (t', .call j req' (.removeContainer (W.containerName pod) options) ans) ∈ later)

/-- Whoever is told that a pod is there has made its container. -/
theorem docker_made (hE : E.Documented)
    (hnames : ∀ name c, (E.stock t₀).container name = some c → ¬ IsId name)
    (hplain : PlainRequests W arrives) (hrun : Run (E.machine (AssignRequest.code W) arrives) (.idle t₀) l p)
    {k : Nat} {req : AssignRequest D} {reply : AssignReply} (hfor : req.For W pod spec)
    (hk : p.thread k = some (req, .ret reply)) (hok : reply.success = true) :
    MadeBy E W pod spec k req l p.state := by
  obtain ⟨s₀, l', p', -, hrun', hmirrors, hfollows⟩ := hE.followed hnames hplain.given hrun
  obtain ⟨id, later, s, earlier, rfl, hfate⟩ :=
    assigned_or_removed hrun' hfor ((hfollows.ret_iff DockerRuntime.single).mp hk) hok
  obtain ⟨later', ⟨t, e⟩, earlier', rfl, hlater, hevent⟩ := Mirrors.split hmirrors
  obtain ⟨a, rfl, hans⟩ := hevent.of_call
  obtain rfl : a = (.ok id : Except String String) := by
    match a, hans with
    | .ok _, hans =>
      cases hans
      rfl
  refine ⟨id, later', t, earlier', rfl, ?_⟩
  rcases hfate with hmade | ⟨s', j, req', force, ans, hj, hreq', hmem⟩
  · exact .inl (hfollows.state.made hmade (Workload.managed pod spec))
  · obtain ⟨t', ans', hmem', -⟩ := Mirrors.of_mem hlater hmem
    exact .inr ⟨t', j, req', ⟨force, true⟩, ans', hj, hreq', hmem'⟩

/-- A container that no request names is what it was. -/
theorem docker_others (hE : E.Documented)
    (hnames : ∀ name c, (E.stock t₀).container name = some c → ¬ IsId name)
    (hplain : PlainRequests W arrives) (hrun : Run (E.machine (AssignRequest.code W) arrives) (.idle t₀) l p)
    {name : String} (hother : ∀ req, arrives req → ¬ req.Names W name) :
    ((E.stock p.state).container name).map EngineContainer.made =
      ((E.stock t₀).container name).map EngineContainer.made := by
  obtain ⟨s₀, l', p', h₀, hrun', -, hfollows⟩ := hE.followed hnames hplain.given hrun
  exact hfollows.state.made_eq h₀ (others_kept hrun' hother)

/-- On a Docker daemon, in any interleaving of assignments, with containers that
end by themselves and requests that are answered with an error and still done:
whoever is told that a pod is there has made its container, and the daemon has
it, or another request for the name has asked for its removal since; and the
containers that no request names are what they were. -/
theorem docker_assignments (hE : E.Documented)
    (hnames : ∀ name c, (E.stock t₀).container name = some c → ¬ IsId name)
    (hplain : PlainRequests W arrives) (hrun : Run (E.machine (AssignRequest.code W) arrives) (.idle t₀) l p) :
    (∀ k req reply pod spec, req.For W pod spec → p.thread k = some (req, .ret reply) →
      reply.success = true →
      ∃ id later t earlier, l = later ++ (t, .call k req (.docker (.createContainer
          ⟨W.containerName pod, none⟩ (DockerRuntime.createConfig (W.containerConfig pod spec))))
          (.ok id : Except String String)) :: earlier ∧
        (((E.stock p.state).container (W.containerName pod)).map EngineContainer.made =
            some (id, DockerRuntime.createConfig (W.containerConfig pod spec)) ∨
          ∃ t' j req' options ans, j ≠ k ∧ req'.Names W (W.containerName pod) ∧
            (t', .call j req' (.removeContainer (W.containerName pod) options) ans) ∈ later)) ∧
    ∀ name, (∀ req, arrives req → ¬ req.Names W name) →
      ((E.stock p.state).container name).map EngineContainer.made =
        ((E.stock t₀).container name).map EngineContainer.made := by
  exact ⟨fun k req reply pod spec hfor hk hok => docker_made hE hnames hplain hrun hfor hk hok,
    fun name hother => docker_others hE hnames hplain hrun hother⟩

/-- A pod of the shop. -/
def cartPod : Pod Domain.plain where
  id := ⟨7⟩
  deploymentId := ⟨3⟩
  project := "shop"
  deploymentName := "cart"
  replicaIndex := 0
  nodeId := none
  containerId := none
  containerIp := none
  status := "pending"
  image := "nginx:1.25"
  restartCount := 0
  createdAt := 0

/-- The names of its container and of its network. -/
def cartName : String := Workload.plain.containerName cartPod

def cartNetwork : String := Workload.networkName (D := Domain.plain) ("shop", "cart")

/-- The request for the pod by its own machine. -/
def cartRequest : AssignRequest Domain.plain := .localTransport cartPod ("shop", "cart")

theorem cartRequest_for {pod : Pod Domain.plain} {spec : Domain.plain.DeploymentSpec}
    (h : cartRequest.For Workload.plain pod spec) : pod = cartPod ∧ spec = ("shop", "cart") := by
  cases h
  exact ⟨rfl, rfl⟩

/-- No daemon takes the names for something else. -/
theorem cartPod_plain : Plain cartName ∧ '/' ∉ ("shop" : String).toList :=
  ⟨⟨by decide, 'x', by decide, by decide⟩, by decide⟩

theorem cartRequests_plain : PlainRequests Workload.plain (· = cartRequest) := by
  rintro req pod spec rfl hfor
  obtain ⟨rfl, rfl⟩ := cartRequest_for hfor
  exact cartPod_plain

/-- What the daemon keeps of the pod's container. -/
def cart (id : String) (running : Bool) : EngineContainer :=
  ⟨id, DockerRuntime.createConfig (Workload.plain.containerConfig cartPod ("shop", "cart")), running⟩

/-- The id of the pod's container when it is made anew. -/
def idOfCart : String := String.ofList (List.replicate 64 'b')

theorem idOfCart_isId : IsId idOfCart := isId_replicate (by decide)

/-- The daemon with the pod's container and network. -/
def cartDaemon {id : String} (hid : IsId id) (running : Bool) : DaemonState :=
  .single cartName (cart id running) [cartNetwork] hid

/-- A machine that is asked for the pod only. -/
def cartMachine : Machine engineSig DaemonState (AssignRequest Domain.plain) AssignReply :=
  obedient.machine (AssignRequest.code Workload.plain) (· = cartRequest)

section Answers

variable {id : String} {hid : IsId id}

theorem cart_pulled : obedient.answer (.bare [])
    (.image (.createImage (DockerRuntime.createImageOptions "nginx:1.25"))) ([] : List (Except String Unit))
    (.bare []) := rfl

/-- A daemon without containers lists none, whatever the name. -/
theorem cart_listed (networks : List String) (name : String) :
    obedient.answer (.bare networks) (.listContainers (DockerRuntime.listOptions name))
      (.ok [] : Except String (List ContainerSummary)) (.bare networks) := by
  refine ⟨rfl, fun containers n hok _ => ?_⟩
  cases hok
  constructor
  · rintro ⟨c, hc, -⟩
    cases hc
  · intro hsome
    cases hsome

theorem cartDaemon_container (running : Bool) :
    (cartDaemon hid running).stock.container cartName = some (cart id running) :=
  DaemonState.single_container cartName (cart id running) [cartNetwork] hid

/-- The daemon that has the pod's container lists it under its name. -/
theorem cart_seen (running : Bool) : obedient.answer (cartDaemon hid running)
    (.listContainers (DockerRuntime.listOptions cartName))
    (.ok [⟨some ["/" ++ cartName]⟩] : Except String (List ContainerSummary)) (cartDaemon hid running) := by
  refine ⟨rfl, fun containers n hok hoptions => ?_⟩
  cases hok
  cases hoptions
  refine iff_of_true ⟨_, List.mem_cons_self, _, rfl, List.mem_cons_self⟩ ?_
  rw [cartDaemon_container]
  rfl

theorem cart_networked : obedient.answer (.bare []) (.createNetwork (DockerRuntime.networkOptions cartNetwork))
    (.ok "4be0" : Except String String) (.bare [cartNetwork]) := rfl

/-- The network may be there, and then it is not made again. -/
theorem cart_refused : obedient.answer (.bare [cartNetwork])
    (.createNetwork (DockerRuntime.networkOptions cartNetwork))
    (.error "network with name nexa-shop already exists" : Except String String) (.bare [cartNetwork]) :=
  .inl rfl

theorem cart_created : obedient.answer (.bare [cartNetwork])
    (.docker (.createContainer ⟨cartName, none⟩ (cart id false).config))
    (.ok id : Except String String) (cartDaemon hid false) := ⟨rfl, rfl⟩

theorem cart_meant (running : Bool) {ref : String} (href : cartName = ref ∨ ref.toList <+: id.toList) :
    (cartDaemon hid running).stock.Meant ref cartName :=
  ⟨cart id running, cartDaemon_container running, href⟩

theorem cart_started : obedient.answer (cartDaemon hid false) (.startContainer id) (.ok () : Except String Unit)
    (cartDaemon hid true) :=
  ⟨cartName, cart_meant false (.inr (List.prefix_refl _)),
    DaemonState.single_switch cartName (cart id false) [cartNetwork] hid true⟩

theorem cart_stopped : obedient.answer (cartDaemon hid true)
    (.stopContainer cartName ⟨(5 : UInt64).toInt64⟩) (.ok () : Except String Unit) (cartDaemon hid false) :=
  ⟨cartName, cart_meant true (.inl rfl),
    DaemonState.single_switch cartName (cart id true) [cartNetwork] hid false⟩

theorem cart_removed : obedient.answer (cartDaemon hid false) (.removeContainer cartName ⟨true, true⟩)
    (.ok () : Except String Unit) (.bare [cartNetwork]) :=
  ⟨cartName, cart_meant false (.inl rfl),
    DaemonState.single_remove cartName (cart id false) [cartNetwork] hid⟩

end Answers

/-- What the code of a request may come to on an empty daemon when another
request for the pod is served as well. -/
structure Contends (q : Prog engineSig AssignReply) (a b : AssignReply) : Prop where
  /-- It makes the container and starts it, and others may come before the start. -/
  first : ∃ q₁ made started,
    q.Moves obedient.answer (.bare []) made q₁ (cartDaemon idOfWeb_isId false) ∧
      q₁.Moves obedient.answer (cartDaemon idOfWeb_isId false) started (.ret a) (cartDaemon idOfWeb_isId true)
  /-- It pulls the image, finds the container that the other has made, and puts
  its own in the place of it once that one is running. -/
  second : ∃ q₁ q₂ pulled found replaced, q.Moves obedient.answer (.bare []) pulled q₁ (.bare []) ∧
    q₁.Moves obedient.answer (cartDaemon idOfWeb_isId false) found q₂ (cartDaemon idOfWeb_isId false) ∧
      q₂.Moves obedient.answer (cartDaemon idOfWeb_isId true) replaced (.ret b) (cartDaemon idOfCart_isId true)

/-- Two threads that serve a request each may take turns so. -/
theorem Contends.run {M : Machine engineSig DaemonState (AssignRequest Domain.plain) AssignReply}
    (hM : M.answer = obedient.answer) {p : Pool engineSig DaemonState (AssignRequest Domain.plain) AssignReply}
    {req : AssignRequest Domain.plain} {q : Prog engineSig AssignReply} {a b : AssignReply} (h : Contends q a b)
    (hp : p.state = .bare []) (h₀ : p.thread 0 = some (req, q)) (h₁ : p.thread 1 = some (req, q)) :
    ∃ l p', Run M p l p' ∧ p'.state = cartDaemon idOfCart_isId true ∧
      p'.thread 0 = some (req, .ret a) ∧ p'.thread 1 = some (req, .ret b) := by
  obtain ⟨qa, made, started, hmade, hstarted⟩ := h.first
  obtain ⟨qb, qc, pulled, found, replaced, hpulled, hfound, hreplaced⟩ := h.second
  rw [← hM] at hmade hstarted hpulled hfound hreplaced
  exact Run.turns (by decide) hp h₀ h₁ hpulled hmade hfound hstarted hreplaced

theorem cartRequest_contends :
    Contends (cartMachine.code cartRequest) (.localTransport (.ok ())) (.localTransport (.ok ())) where
  first := ⟨_, _, _, .call cart_pulled (.call (cart_listed [] cartName) (.call (cart_listed [] cartNetwork)
    (.call cart_networked (.call cart_created (.refl _ _))))), .call cart_started (.refl _ _)⟩
  second := ⟨_, _, _, _, _, .call cart_pulled (.refl _ _), .call (cart_seen false) (.refl _ _),
    .call cart_stopped (.call cart_removed (.call (cart_listed [cartNetwork] cartNetwork) (.call cart_refused
      (.call cart_created (.call cart_started (.refl _ _))))))⟩

/-- An empty daemon is asked for the pod twice at once. Each request has made a
container, and the daemon has it, or the other has had it removed. -/
theorem docker_assignments_cart : ∃ l p, Run cartMachine (.idle (.bare [])) l p ∧
    p.state = cartDaemon idOfCart_isId true ∧ ∀ k < 2,
      p.thread k = some (cartRequest, .ret (.localTransport (.ok ()))) ∧
      MadeBy obedient Workload.plain cartPod ("shop", "cart") k cartRequest l p.state := by
  obtain ⟨l₀, p₀, harrived, hs, ha, hb⟩ : ∃ l p, Run cartMachine (.idle (.bare [])) l p ∧
      p.state = .bare [] ∧ p.thread 0 = some (cartRequest, cartMachine.code cartRequest) ∧
        p.thread 1 = some (cartRequest, cartMachine.code cartRequest) :=
    ⟨_, _, (Run.start cartMachine _).arrive 0 cartRequest rfl rfl |>.arrive 1 cartRequest rfl rfl,
      rfl, rfl, rfl⟩
  obtain ⟨l, p, hserved, hstate, h₀, h₁⟩ := cartRequest_contends.run (M := cartMachine) rfl hs ha hb
  have hrun := harrived.trans hserved
  obtain ⟨hmade, -⟩ := docker_assignments obedient_documented (fun _ _ h => by cases h)
    cartRequests_plain hrun
  refine ⟨_, p, hrun, hstate, fun k hk => ?_⟩
  have hreplied : p.thread k = some (cartRequest, .ret (.localTransport (.ok ()))) := by
    obtain rfl | rfl : k = 0 ∨ k = 1 := by omega
    · exact h₀
    · exact h₁
  exact ⟨hreplied, hmade k cartRequest _ cartPod ("shop", "cart") (.localTransport _ _) hreplied rfl⟩

end Docker

end Nexad
