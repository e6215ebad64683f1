import Nexad.Laws.Transport.Machine

/-!
# Assigning again after a failure

An assignment tears the old container of its name down before it makes the new
one, and undoes nothing. So it succeeds from whatever an earlier one has left
(`assign_converges`), and an assignment that fails half-way leaves its own
container in one of four ways, and every other as it was (`failed_assign_leaves`).
-/

namespace Nexad

open Interleave Nexad.Runtime Cluster

/-- The calls whose errors an assignment cannot do without: all but the
download and the network. -/
def RuntimeCall.needed : RuntimeCall → Bool
  | ⟨.pullImage _, _⟩ | ⟨.createNetwork _, _⟩ => false
  | _ => true

/-- The calls that take a container down or make one. -/
def RuntimeCall.changes : RuntimeCall → Bool
  | ⟨.stopContainer .., _⟩ | ⟨.removeContainer .., _⟩ | ⟨.createContainer _, _⟩ => true
  | _ => false

variable {D : Domain} {W : Workload D} {pod : Pod D} {spec : D.DeploymentSpec} {s s' : Host}
  {l : HostCalls} {ok : Bool}

/-- An assignment whose needed calls succeed succeeds. -/
theorem Assigns.ok_of_needed (h : Assigns W pod spec s l s' ok)
    (hneeded : ∀ q call, (q, call) ∈ l → call.needed = true → call.succeeded = true) : ok = true := by
  cases h.phases with
  | untold =>
    have hasked := hneeded _ _ (List.mem_cons_of_mem _ List.mem_cons_self) rfl
    cases hasked
  | through asked cleared ensured launched =>
    have hlast : ∀ {q : Host} {call : RuntimeCall}, (q, call) ∈ _ → call.needed = true → call.succeeded = true :=
      fun hmem => hneeded _ _ (List.mem_cons_of_mem _ (List.mem_cons_of_mem _
        (List.mem_append_right _ (List.mem_append_right _ hmem))))
    cases launched with
    | refused =>
      have hmade := hlast List.mem_cons_self rfl
      cases hmade
    | stuck =>
      have hstarted := hlast (List.mem_cons_of_mem _ List.mem_cons_self) rfl
      cases hstarted
    | running => rfl

/-- The configuration is the one that the spec asks for: its image, variables,
ports (bound on the machine when there is a single replica), volumes and the
network of its project, and labels that tell where it comes from. -/
structure OfSpec (W : Workload D) (pod : Pod D) (spec : D.DeploymentSpec)
    (config : ContainerConfig) : Prop where
  name : config.name = W.containerName pod
  image : config.image = W.image spec
  env : config.env = W.env spec
  ports : config.ports = (W.ports spec).map fun port =>
    { containerPort := port, hostPort := if W.replicas spec = 1 then some port else none }
  volumes : config.volumes = (W.volumes spec).map fun v =>
    { source := W.sourceName v, target := W.mountPoint v, readOnly := W.isReadOnly v }
  network : config.network = some s!"nexa-{D.project spec}"
  labels : ∀ key, config.labels.lookup key =
    if key = "nexa.pod-id" then some (D.uuid.print pod.id)
    else if key = "nexa.deployment" then some (D.deploymentName spec)
    else if key = "nexa.project" then some (D.project spec)
    else if key = "managed-by" then some "nexanet"
    else none

theorem Workload.lookup_labels (pod : Pod D) (spec : D.DeploymentSpec) (key : String) :
    (Workload.labels pod spec).lookup key =
      if key = "nexa.pod-id" then some (D.uuid.print pod.id)
      else if key = "nexa.deployment" then some (D.deploymentName spec)
      else if key = "nexa.project" then some (D.project spec)
      else if key = "managed-by" then some "nexanet"
      else none := by
  unfold Workload.labels
  by_cases hid : key = "nexa.pod-id"
  · rw [if_pos hid, hid, AList.lookup_insert]
  rw [if_neg hid, AList.lookup_insert_ne hid]
  by_cases hdeployment : key = "nexa.deployment"
  · rw [if_pos hdeployment, hdeployment, AList.lookup_insert]
  rw [if_neg hdeployment, AList.lookup_insert_ne hdeployment]
  by_cases hproject : key = "nexa.project"
  · rw [if_pos hproject, hproject, AList.lookup_insert]
  rw [if_neg hproject, AList.lookup_insert_ne hproject]
  by_cases hmanaged : key = "managed-by"
  · rw [if_pos hmanaged, hmanaged, AList.lookup_insert]
  rw [if_neg hmanaged, AList.lookup_insert_ne hmanaged, AList.lookup_empty]

theorem containerConfig_ofSpec (W : Workload D) (pod : Pod D) (spec : D.DeploymentSpec) :
    OfSpec W pod spec (W.containerConfig pod spec) where
  name := rfl
  image := rfl
  env := rfl
  ports := rfl
  volumes := rfl
  network := rfl
  labels := Workload.lookup_labels pod spec

/-- After any sequence of earlier assignments, from any machine, one more whose
needed calls succeed leaves exactly one container of the pod's name: the one of
this spec, running. The containers of other names stay. -/
theorem assign_converges {s₀ : Host} {earlier : List (Host × Attempt D)}
    (hearlier : Runs.Run (Attempt.Step W) s₀ earlier s) (h : Assigns W pod spec s l s' ok)
    (hneeded : ∀ q call, (q, call) ∈ l → call.needed = true → call.succeeded = true) :
    ok = true ∧
    (∃ id config, OfSpec W pod spec config ∧
      ∀ c, s'.Has c ∧ c.config.name = W.containerName pod ↔ c = ⟨id, config, true⟩) ∧
    (∀ n, n ≠ W.containerName pod → s'.container n = s.container n) ∧
    (∀ n, n ≠ W.containerName pod → (∀ q a, (q, a) ∈ earlier → W.containerName a.pod ≠ n) →
      s'.container n = s₀.container n) := by
  obtain rfl := h.ok_of_needed hneeded
  obtain ⟨id, hown⟩ := h.own
  refine ⟨rfl, ⟨id, _, containerConfig_ofSpec W pod spec, fun c => ⟨?_, ?_⟩⟩,
    fun n hn => h.others hn, ?_⟩
  · rintro ⟨hhas, hname⟩
    rw [Host.Has, hname, hown] at hhas
    exact (Option.some.inj hhas).symm
  · rintro rfl
    exact ⟨hown, rfl⟩
  · intro n hn hothers
    rw [h.others hn, attempts_others hearlier hothers]

/-- A deployment of one replica, with a variable, two ports and a volume. -/
def dataWorkload : Workload Domain.plain where
  VolumeSpec := String × String × Bool
  image := fun _ => "nginx:1.25"
  replicas := fun _ => 1
  ports := fun _ => [80, 9090]
  env := fun _ => (∅ : TextMap).insert "MODE" "production"
  volumes := fun _ => [("api-data", "/var/lib/api", false)]
  sourceName := Prod.fst
  mountPoint := fun v => v.2.1
  isReadOnly := fun v => v.2.2
  containerName := Workload.plain.containerName
  podFromSlice := Workload.plain.podFromSlice
  specFromSlice := Workload.plain.specFromSlice

/-- The machine on which the container of the pod was made, but did not start. -/
private theorem api_stuck : ∃ l s, Assigns dataWorkload apiPod ("shop", "api") Host.empty l s false ∧
    ∀ n c, s.container n = some c → c.id = "c1" := by
  have hfresh : Host.empty.Fresh (dataWorkload.containerConfig apiPod ("shop", "api")) "c1" :=
    ⟨rfl, fun h => by cases h⟩
  have hensured : Ensured "nexa-shop" Host.empty
      [(Host.empty, ⟨.containerExists "nexa-shop", (.ok false : Except NexaError Bool)⟩),
        (Host.empty, ⟨.createNetwork "nexa-shop",
          (.error (.runtime "network refused") : Except NexaError String)⟩)] Host.empty :=
    .made ⟨rfl, rfl⟩ rfl rfl
  have hlaunched : Launched _ Host.empty
      [(Host.empty, ⟨.createContainer _, (.ok "c1" : Except NexaError String)⟩),
        (Host.empty.create _ "c1" hfresh,
          ⟨.startContainer "c1", (.error (.runtime "port in use") : Except NexaError Unit)⟩)]
      (Host.empty.create _ "c1" hfresh) false := .stuck
  refine ⟨_, _, .of_phases (.ok ()) .nothing hensured hlaunched, fun n c hc => ?_⟩
  by_cases hn : n = "nexa-shop-api-0"
  · subst hn
    cases hc
    rfl
  · rw [Host.create_ne hfresh hn] at hc
    cases hc

/-- The pod runs after a first try that left its container behind. -/
theorem assign_converges_api : ∃ earlier s l s' id config,
    Runs.Run (Attempt.Step dataWorkload) Host.empty earlier s ∧
    (∀ q a, (q, a) ∈ earlier → a.ok = false) ∧ earlier ≠ [] ∧
    Assigns dataWorkload apiPod ("shop", "api") s l s' true ∧ s'.Has ⟨id, config, true⟩ ∧
    config.name = "nexa-shop-api-0" ∧ config.image = "nginx:1.25" ∧
    config.env.entries = [⟨"MODE", "production"⟩] ∧
    config.ports = [⟨80, some 80⟩, ⟨9090, some 9090⟩] ∧
    config.volumes = [⟨"api-data", "/var/lib/api", false⟩] ∧ config.network = some "nexa-shop" ∧
    config.labels.lookup "nexa.pod-id" = some "00000000-0000-0000-0000-000000000002" := by
  obtain ⟨l₁, s, hfirst, hids⟩ := api_stuck
  have hfresh : ∀ {n c}, s.container n = some c → c.id ≠ "c2" := by
    intro n c hc
    rw [hids n c hc]
    decide
  obtain ⟨l, s', h, hall⟩ := Assigns.possible dataWorkload apiPod ("shop", "api") hfresh
  have hrun : Runs.Run (Attempt.Step dataWorkload) Host.empty
      [(Host.empty, ⟨apiPod, ("shop", "api"), l₁, false⟩)] s := .cons .nil hfirst
  obtain ⟨-, ⟨id, config, hspec, hone⟩, -⟩ :=
    assign_converges hrun h fun q call hcall _ => hall q call hcall
  refine ⟨_, s, l, s', id, config, hrun, fun q a ha => ?_, List.cons_ne_nil _ _, h,
    ((hone _).mpr rfl).1, hspec.name, hspec.image, ?_, hspec.ports, hspec.volumes, hspec.network, ?_⟩
  · cases List.mem_singleton.mp ha
    rfl
  · rw [hspec.env]
    rfl
  · rw [hspec.labels, if_pos rfl]
    decide

/-! ## What a failure leaves -/

/-- What may stand under the pod's name after a failure, where `before` stood. -/
inductive LeftOver (config : ContainerConfig) (before : Option Container) :
    Option Container → Prop where
  | untouched : LeftOver config before before
  | stopped {c : Container} (stood : before = some c) :
      LeftOver config before (some { c with running := false })
  | gone {c : Container} (stood : before = some c) : LeftOver config before none
  | created {id : String} : LeftOver config before (some ⟨id, config, false⟩)

/-- What clearing leaves under the name. -/
theorem Cleared.own {config : ContainerConfig} {name : String} {found : Bool}
    (h : Cleared name s found l s') : LeftOver config (s.container name) (s'.container name) := by
  cases h with
  | nothing => exact .untouched
  | tornDown stop remove =>
    cases hbefore : s.container name with
    | none =>
      obtain ⟨-, rfl⟩ | rfl := answer_stop stop <;> obtain ⟨-, rfl⟩ | rfl := answer_remove remove
      · rw [Host.remove_self]
        exact .untouched
      · rw [Host.stop_self, hbefore]
        exact .untouched
      · rw [Host.remove_self]
        exact .untouched
      · rw [hbefore]
        exact .untouched
    | some c =>
      obtain ⟨-, rfl⟩ | rfl := answer_stop stop <;> obtain ⟨-, rfl⟩ | rfl := answer_remove remove
      · rw [Host.remove_self]
        exact .gone rfl
      · rw [Host.stop_self, hbefore]
        exact .stopped rfl
      · rw [Host.remove_self]
        exact .gone rfl
      · rw [hbefore]
        exact .untouched

/-- Clearing calls that fail leave everything as it was. -/
theorem Cleared.same {name : String} {found : Bool} (h : Cleared name s found l s')
    (hfailed : ∀ q call, (q, call) ∈ l → call.changes = true → call.succeeded = false) : s' = s := by
  cases h with
  | nothing => rfl
  | tornDown stop remove =>
    have hstop := hfailed _ _ List.mem_cons_self rfl
    have hremove := hfailed _ _ (List.mem_cons_of_mem _ List.mem_cons_self) rfl
    obtain ⟨hok, -⟩ | rfl := answer_stop stop
    · exact absurd (hstop.symm.trans hok) (by decide)
    · obtain ⟨hok, -⟩ | rfl := answer_remove remove
      · exact absurd (hremove.symm.trans hok) (by decide)
      · rfl

/-- An assignment that fails leaves every container of another name as it was,
and its own untouched, stopped, gone, or made anew and not running. Where none
of its calls took a container down or made one, all are as they were. -/
theorem failed_assign_leaves (h : Assigns W pod spec s l s' false) :
    (∀ n, n ≠ W.containerName pod → s'.container n = s.container n) ∧
    LeftOver (W.containerConfig pod spec) (s.container (W.containerName pod))
      (s'.container (W.containerName pod)) ∧
    ((∀ q call, (q, call) ∈ l → call.changes = true → call.succeeded = false) →
      s'.container = s.container) := by
  refine ⟨fun n hn => h.others hn, ?_, ?_⟩
  · cases h.phases with
    | untold => exact .untouched
    | through _ cleared ensured launched =>
      cases launched with
      | refused =>
        rw [ensured.container]
        exact cleared.own
      | @stuck id _ fresh => exact (Host.create_self fresh) ▸ .created
  · intro hfailed
    cases h.phases with
    | untold => rfl
    | through _ cleared ensured launched =>
      have hrest : ∀ {q : Host} {call : RuntimeCall}, (q, call) ∈ _ → call.changes = true → call.succeeded = false :=
        fun hmem => hfailed _ _ (List.mem_cons_of_mem _ (List.mem_cons_of_mem _ hmem))
      obtain rfl := cleared.same fun q call hmem => hrest (List.mem_append_left _ hmem)
      cases launched with
      | refused => exact ensured.container
      | stuck =>
        have hmade := hrest (List.mem_append_right _ (List.mem_append_right _ List.mem_cons_self)) rfl
        cases hmade

/-- The machine on which the container of the pod runs. -/
def apiHost : Host :=
  (Host.empty.create (apiWorkload.containerConfig apiPod ("shop", "api")) "c1"
    ⟨rfl, fun h => by cases h⟩).start "c1"

/-- The old container is stopped and removed, and the new one is not made. -/
private theorem api_lost : ∃ l, Assigns apiWorkload apiPod ("shop", "api") apiHost l
    ((apiHost.stop "nexa-shop-api-0").remove "nexa-shop-api-0") false := by
  have hstop : apiHost.answer (.stopContainer "nexa-shop-api-0" 5) (.ok () : Except NexaError Unit)
    (apiHost.stop "nexa-shop-api-0") := rfl
  have hremove : (apiHost.stop "nexa-shop-api-0").answer (.removeContainer "nexa-shop-api-0" true)
    (.ok () : Except NexaError Unit) ((apiHost.stop "nexa-shop-api-0").remove "nexa-shop-api-0") := rfl
  have hasked : ((apiHost.stop "nexa-shop-api-0").remove "nexa-shop-api-0").answer
    (.containerExists "nexa-shop") (.ok false : Except NexaError Bool) _ := ⟨rfl, rfl⟩
  have hmake : ((apiHost.stop "nexa-shop-api-0").remove "nexa-shop-api-0").answer
    (.createNetwork "nexa-shop") (.error (.runtime "network exists") : Except NexaError String) _ := rfl
  have hlaunched : Launched (apiWorkload.containerConfig apiPod ("shop", "api"))
      ((apiHost.stop "nexa-shop-api-0").remove "nexa-shop-api-0")
      [(_, ⟨.createContainer _, (.error (.runtime "no such image") : Except NexaError String)⟩)]
      ((apiHost.stop "nexa-shop-api-0").remove "nexa-shop-api-0") false := .refused
  exact ⟨_, .of_phases (.error (.runtime "registry unreachable")) (.tornDown hstop hremove)
    (.made hasked rfl hmake) hlaunched⟩

/-- An assignment fails, and the container that ran before is gone. -/
theorem failed_assign_loses : (∃ l, Assigns apiWorkload apiPod ("shop", "api") apiHost l
      ((apiHost.stop "nexa-shop-api-0").remove "nexa-shop-api-0") false) ∧
    apiHost.container "nexa-shop-api-0" =
      some ⟨"c1", apiWorkload.containerConfig apiPod ("shop", "api"), true⟩ ∧
    ((apiHost.stop "nexa-shop-api-0").remove "nexa-shop-api-0").container "nexa-shop-api-0" = none :=
  ⟨api_lost, rfl, rfl⟩

theorem failed_assign_leaves_api : ∃ l, Assigns apiWorkload apiPod ("shop", "api") apiHost l
      ((apiHost.stop "nexa-shop-api-0").remove "nexa-shop-api-0") false ∧
    LeftOver (apiWorkload.containerConfig apiPod ("shop", "api"))
      (apiHost.container "nexa-shop-api-0")
      (((apiHost.stop "nexa-shop-api-0").remove "nexa-shop-api-0").container "nexa-shop-api-0") := by
  obtain ⟨l, h⟩ := api_lost
  exact ⟨l, h, (failed_assign_leaves h).2.1⟩

end Nexad
