import Nexad.Laws.Transport.Machine

/-!
# The networks that assignments make

Whether the network of a project is there is asked with the question for a
container. So a sequence of assignments makes a network exactly when it is
missing if, and only if, each question for it is answered as if it had been
asked of the networks (`networks_made_when_missing_iff`).
-/

namespace Nexad

open Interleave Nexad.Runtime Cluster

/-- A question for a container, with the machine it is asked on. -/
def question : Host × RuntimeCall → Option (Host × String × Except NexaError Bool)
  | (t, ⟨.containerExists name, ans⟩) => some (t, name, ans)
  | _ => none

/-- The last question of an assignment, which is the one for its network. -/
def lastQuestion (l : HostCalls) : Option (Host × String × Except NexaError Bool) :=
  (l.filterMap question).getLast?

/-- The network that a call asks for. -/
def creation : Host × RuntimeCall → Option String
  | (_, ⟨.createNetwork name, _⟩) => some name
  | _ => none

variable {D : Domain} {W : Workload D}

/-- The network is asked for if and only if there is none at that moment. -/
def Attempt.CreatesWhenMissing (a : Attempt D) : Prop :=
  ∃ t ans, lastQuestion a.calls = some (t, Workload.networkName a.spec, ans) ∧
    (Workload.networkName a.spec ∈ a.calls.filterMap creation ↔
      Workload.networkName a.spec ∉ t.networks)

/-- When the network is asked about, there is a container of its name and the
runtime answers if and only if there is a network of its name. -/
def Attempt.ShowsNetwork (a : Attempt D) : Prop :=
  ∃ t ans, lastQuestion a.calls = some (t, Workload.networkName a.spec, ans) ∧
    ((t.container (Workload.networkName a.spec)).isSome = true ∧ ans.isOk = true ↔
      Workload.networkName a.spec ∈ t.networks)

/-- The network was made when it was asked for. -/
def Attempt.NetworkMade (a : Attempt D) : Prop :=
  ∀ q name (ans : Except NexaError String),
    (q, (⟨.createNetwork name, ans⟩ : RuntimeCall)) ∈ a.calls → ans.isOk = true

section Phases

variable {name : String} {config : ContainerConfig} {found ok : Bool} {l : HostCalls} {s s' : Host}

theorem Cleared.quiet (h : Cleared name s found l s') :
    l.filterMap question = [] ∧ l.filterMap creation = [] := by
  cases h with
  | nothing => exact ⟨rfl, rfl⟩
  | tornDown => exact ⟨rfl, rfl⟩

theorem Launched.quiet (h : Launched config s l s' ok) :
    l.filterMap question = [] ∧ l.filterMap creation = [] := by
  cases h with
  | refused => exact ⟨rfl, rfl⟩
  | stuck => exact ⟨rfl, rfl⟩
  | running => exact ⟨rfl, rfl⟩

/-- The answer is yes where the runtime answers and has such a container. -/
theorem unwrapOrFalse_exists {ans : Except NexaError Bool}
    (h : s.answer (.containerExists name) ans s') :
    unwrapOrFalse ans = true ↔ (s.container name).isSome = true ∧ ans.isOk = true := by
  obtain ⟨b, rfl, rfl, -⟩ | ⟨⟨e, rfl⟩, -⟩ := Host.Outcome.cases h
  · simp [unwrapOrFalse, Except.isOk, Except.toBool]
  · simp [unwrapOrFalse, Except.isOk, Except.toBool]

/-- The network is asked for where the answer is no. -/
theorem Ensured.asks (h : Ensured name s l s') : ∃ ans, l.filterMap question = [(s, name, ans)] ∧
    (name ∈ l.filterMap creation ↔ ¬ ((s.container name).isSome = true ∧ ans.isOk = true)) := by
  cases h with
  | @known found asked yes =>
    refine ⟨found, rfl, iff_of_false List.not_mem_nil ?_⟩
    rw [← unwrapOrFalse_exists asked, not_not]
    exact yes
  | @made found _ _ asked no =>
    refine ⟨found, rfl, iff_of_true (List.mem_singleton_self name) ?_⟩
    rw [← unwrapOrFalse_exists asked, no]
    exact Bool.false_ne_true

/-- What ensuring does to the networks, when the making goes well. -/
theorem Ensured.networks (h : Ensured name s l s')
    (hmade : ∀ q n (ans : Except NexaError String),
      (q, (⟨.createNetwork n, ans⟩ : RuntimeCall)) ∈ l → ans.isOk = true) :
    s'.networks = if name ∈ l.filterMap creation then name :: s.networks else s.networks := by
  cases h with
  | known => rfl
  | @made found created _ asked no make =>
    have hasks : name ∈ [(s, (⟨.containerExists name, found⟩ : RuntimeCall)),
      (s, ⟨.createNetwork name, created⟩)].filterMap creation := List.mem_singleton_self name
    rw [if_pos hasks]
    have hok := hmade _ _ created (List.mem_cons_of_mem _ List.mem_cons_self)
    obtain ⟨_, -, rfl⟩ | ⟨⟨e, rfl⟩, -⟩ := Host.Outcome.cases make
    · rfl
    · cases hok

end Phases

variable {s s' : Host} {a : Attempt D}

/-- What an assignment that succeeded has asked, and what it has done to the networks. -/
theorem Attempt.network_step (h : Attempt.Step W s a s') (hok : a.ok = true) : ∃ t ans,
    t.networks = s.networks ∧
    lastQuestion a.calls = some (t, Workload.networkName a.spec, ans) ∧
    (Workload.networkName a.spec ∈ a.calls.filterMap creation ↔
      ¬ ((t.container (Workload.networkName a.spec)).isSome = true ∧ ans.isOk = true)) ∧
    (a.NetworkMade → s'.networks =
      if Workload.networkName a.spec ∈ a.calls.filterMap creation
        then Workload.networkName a.spec :: s.networks else s.networks) := by
  obtain ⟨pod, spec, calls, ok⟩ := a
  cases hok
  have hphases : Phases W pod spec s calls s' true := Assigns.phases h
  cases hphases with
  | @through pulled found lc ln lm t u _ _ _ cleared ensured launched =>
    obtain ⟨ans, hquestion, hcreation⟩ := ensured.asks
    have hcalls : ((s, ⟨.pullImage (W.image spec), pulled⟩) ::
        (s, ⟨.containerExists (W.containerName pod), found⟩) :: (lc ++ (ln ++ lm))).filterMap
          creation = ln.filterMap creation := by
      simp only [List.filterMap_cons, creation, List.filterMap_append, cleared.quiet.2,
        launched.quiet.2, List.nil_append, List.append_nil]
    refine ⟨t, ans, cleared.networks, ?_, ?_, fun hmade => ?_⟩
    · simp only [lastQuestion, List.filterMap_cons, question, List.filterMap_append,
        cleared.quiet.1, launched.quiet.1, hquestion, List.nil_append, List.append_nil]
      rfl
    · dsimp only
      rw [hcalls]
      exact hcreation
    · dsimp only
      rw [hcalls, launched.networks, ensured.networks fun q n ans hmem => hmade q n ans
        (List.mem_cons_of_mem _ (List.mem_cons_of_mem _
          (List.mem_append_right _ (List.mem_append_left _ hmem)))), cleared.networks]

/-- One assignment makes its network when it is missing exactly if the network
shows. -/
theorem Attempt.createsWhenMissing_iff (h : Attempt.Step W s a s') (hok : a.ok = true) :
    a.CreatesWhenMissing ↔ a.ShowsNetwork := by
  obtain ⟨t, ans, -, hquestion, hcreation, -⟩ := Attempt.network_step h hok
  unfold CreatesWhenMissing ShowsNetwork
  simp only [hquestion, Option.some.injEq, Prod.mk.injEq, true_and, and_assoc, exists_and_left,
    exists_eq_left', hcreation, not_iff_not]

/-- An assignment that makes its network when it is missing adds it there. -/
theorem Attempt.networks_added (h : Attempt.Step W s a s') (hok : a.ok = true)
    (hwhen : a.CreatesWhenMissing) (hmade : a.NetworkMade) : s'.networks =
      if Workload.networkName a.spec ∈ s.networks then s.networks
        else Workload.networkName a.spec :: s.networks := by
  obtain ⟨t, ans, hsame, hquestion, -, hnetworks⟩ := Attempt.network_step h hok
  obtain ⟨t', ans', hquestion', hcreates⟩ := hwhen
  obtain rfl : t = t' := by
    rw [hquestion] at hquestion'
    exact (Prod.mk.inj (Option.some.inj hquestion')).1
  rw [hnetworks hmade, ← hsame]
  by_cases hmissing : Workload.networkName a.spec ∈ t.networks
  · rw [if_neg fun hmem => hcreates.mp hmem hmissing, if_pos hmissing]
  · rw [if_pos (hcreates.mpr hmissing), if_neg hmissing]

/-- A network that a sequence of assignments has made when it was missing, and
only then, is there once. -/
theorem networks_once {s₀ s : Host} {l : List (Host × Attempt D)}
    (h : Runs.Run (Attempt.Step W) s₀ l s) (hok : ∀ q a, (q, a) ∈ l → a.ok = true)
    (hwhen : ∀ q a, (q, a) ∈ l → a.CreatesWhenMissing) (hmade : ∀ q a, (q, a) ∈ l → a.NetworkMade)
    {name : String} (hname : s₀.networks.count name ≤ 1) :
    s.networks.count name ≤ 1 ∧
      ((∃ q a, (q, a) ∈ l ∧ Workload.networkName a.spec = name) → name ∈ s.networks) := by
  induction h with
  | nil =>
    refine ⟨hname, ?_⟩
    rintro ⟨q, a, hmem, -⟩
    cases hmem
  | @cons l s s' a hrun hstep ih =>
    obtain ⟨honce, hthere⟩ := ih (fun q b hmem => hok q b (List.mem_cons_of_mem _ hmem))
      (fun q b hmem => hwhen q b (List.mem_cons_of_mem _ hmem))
      (fun q b hmem => hmade q b (List.mem_cons_of_mem _ hmem))
    rw [Attempt.networks_added hstep (hok s a List.mem_cons_self) (hwhen s a List.mem_cons_self)
      (hmade s a List.mem_cons_self)]
    split
    · next hold =>
      refine ⟨honce, ?_⟩
      rintro ⟨q, b, hmem, rfl⟩
      rcases List.mem_cons.mp hmem with heq | hmem
      · cases heq
        exact hold
      · exact hthere ⟨q, b, hmem, rfl⟩
    · next hnew =>
      constructor
      · by_cases hn : Workload.networkName a.spec = name
        · subst hn
          rw [List.count_cons_self, List.count_eq_zero.mpr hnew]
        · rwa [List.count_cons_of_ne hn]
      · rintro ⟨q, b, hmem, rfl⟩
        rcases List.mem_cons.mp hmem with heq | hmem
        · cases heq
          exact List.mem_cons_self
        · exact List.mem_cons_of_mem _ (hthere ⟨q, b, hmem, rfl⟩)

/-- In a sequence of successful assignments every network is asked for exactly
when it is missing if and only if every network shows when it is asked about.
Where it does, and the networks are made that are asked for, each project of
the sequence has exactly one. -/
theorem networks_made_when_missing_iff {s₀ s : Host} {l : List (Host × Attempt D)}
    (h : Runs.Run (Attempt.Step W) s₀ l s) (hok : ∀ q a, (q, a) ∈ l → a.ok = true) :
    ((∀ q a, (q, a) ∈ l → a.CreatesWhenMissing) ↔ ∀ q a, (q, a) ∈ l → a.ShowsNetwork) ∧
    ((∀ q a, (q, a) ∈ l → a.ShowsNetwork) → (∀ q a, (q, a) ∈ l → a.NetworkMade) →
      ∀ q a, (q, a) ∈ l → s₀.networks.count (Workload.networkName a.spec) ≤ 1 →
        s.networks.count (Workload.networkName a.spec) = 1) := by
  have hiff : ∀ q a, (q, a) ∈ l → (a.CreatesWhenMissing ↔ a.ShowsNetwork) := by
    intro q a hmem
    obtain ⟨q', hstep, -⟩ := h.around hmem
    exact Attempt.createsWhenMissing_iff hstep (hok q a hmem)
  refine ⟨forall₃_congr hiff, fun hshows hmade q a hmem hstart => ?_⟩
  obtain ⟨hle, hthere⟩ := networks_once h hok
    (fun q b hb => (hiff q b hb).mpr (hshows q b hb)) hmade hstart
  have hpos := List.count_pos_iff.mpr (hthere ⟨q, a, hmem, rfl⟩)
  omega

/-- Without a container of the pod's name, an assignment may ensure its network
in any way and leave the new container running. -/
theorem Assigns.of_ensured (W : Workload D) (pod : Pod D) (spec : D.DeploymentSpec) {s t : Host}
    {ln : HostCalls} (id : String) (hname : s.container (W.containerName pod) = none)
    (hensured : Ensured (Workload.networkName spec) s ln t)
    (hid : ∀ {n c}, s.container n = some c → c.id ≠ id) :
    ∃ (h : t.Fresh (W.containerConfig pod spec) id) (l : HostCalls),
      Assigns W pod spec s l ((t.create _ id h).start id) true ∧
      lastQuestion l = lastQuestion ln ∧ l.filterMap creation = ln.filterMap creation ∧
      ∀ q name (ans : Except NexaError String), (q, (⟨.createNetwork name, ans⟩ : RuntimeCall)) ∈ l →
        (q, (⟨.createNetwork name, ans⟩ : RuntimeCall)) ∈ ln := by
  have hfresh : t.Fresh (W.containerConfig pod spec) id := by
    refine ⟨?_, ?_⟩
    · rw [hensured.container]
      exact hname
    · rw [hensured.container]
      exact hid
  have hcleared : Cleared (W.containerName pod) s (s.container (W.containerName pod)).isSome [] s := by
    rw [hname]
    exact .nothing
  have hlaunched : Launched (W.containerConfig pod spec) t _ ((t.create _ id hfresh).start id) true :=
    .running
  refine ⟨hfresh, _, .of_phases (.ok ()) hcleared hensured hlaunched, ?_, ?_, ?_⟩
  · obtain ⟨ans, hquestion, -⟩ := hensured.asks
    simp only [lastQuestion, List.filterMap_cons, question, List.filterMap_append, hquestion,
      List.filterMap_nil, List.nil_append, List.append_nil]
    rfl
  · simp only [List.filterMap_cons, creation, List.filterMap_append, List.filterMap_nil,
      List.nil_append, List.append_nil]
  · intro q name ans hmem
    simpa using hmem

/-- Without a container of its name, a network is made when it is asked for. -/
theorem Ensured.of_new {s : Host} {name : String} (hnone : s.container name = none) :
    Ensured name s
      [(s, ⟨.containerExists name, (.ok false : Except NexaError Bool)⟩),
        (s, ⟨.createNetwork name, (.ok "n" : Except NexaError String)⟩)]
      (s.addNetwork name) := by
  have hasked : s.answer (.containerExists name) (.ok false : Except NexaError Bool) s := by
    refine ⟨?_, rfl⟩
    rw [hnone]
    rfl
  exact .made hasked rfl (rfl : s.addNetwork name = _)

/-- A second replica of `api`. -/
def apiPodB : Pod Domain.plain := { apiPod with id := ⟨3⟩, replicaIndex := 1 }

/-- Two replicas are assigned to an empty machine, and the network is made twice. -/
theorem networks_made_twice : ∃ l s, Runs.Run (Attempt.Step apiWorkload) Host.empty l s ∧
    l.map (fun e => (e.2.pod, e.2.spec, e.2.ok, e.2.calls.filterMap creation)) =
      [(apiPodB, ("shop", "api"), true, ["nexa-shop"]), (apiPod, ("shop", "api"), true, ["nexa-shop"])] ∧
    (∃ q a, (q, a) ∈ l ∧ "nexa-shop" ∈ q.networks ∧ ¬ a.CreatesWhenMissing) ∧
    s.networks = ["nexa-shop", "nexa-shop"] := by
  obtain ⟨h₁, l₁, hfirst, -, hmade₁, -⟩ := Assigns.of_ensured apiWorkload apiPod ("shop", "api")
    (s := Host.empty) "c1" rfl (.of_new rfl) fun h => by cases h
  obtain ⟨h₂, l₂, hsecond, hquestion, hmade₂, -⟩ := Assigns.of_ensured apiWorkload apiPodB
    ("shop", "api") "c2" rfl (.of_new rfl) (Host.start_created_id h₁ (by decide) fun h => by cases h)
  refine ⟨[(_, ⟨apiPodB, ("shop", "api"), l₂, true⟩), (_, ⟨apiPod, ("shop", "api"), l₁, true⟩)], _,
    .cons (.cons .nil hfirst) hsecond, ?_, ⟨_, _, List.mem_cons_self, List.mem_cons_self, ?_⟩, rfl⟩
  · simp only [List.map_cons, List.map_nil, hmade₁, hmade₂]
    rfl
  · rintro ⟨t, ans, hquestion', hcreates⟩
    dsimp only at hquestion' hcreates
    rw [hquestion] at hquestion'
    cases hquestion'
    rw [hmade₂] at hcreates
    exact hcreates.mp List.mem_cons_self List.mem_cons_self

/-- A container that has the name of a project's network. -/
def namesake : ContainerConfig :=
  { apiWorkload.containerConfig apiPod ("shop", "api") with name := "nexa-crm" }

private theorem namesake_fresh : (Host.empty.addNetwork "nexa-crm").Fresh namesake "c0" :=
  ⟨rfl, fun h => by cases h⟩

/-- A machine that has the network of a project, and such a container. -/
def crmHost : Host :=
  ((Host.empty.addNetwork "nexa-crm").create namesake "c0" namesake_fresh).start "c0"

private theorem crmHost_id {id : String} (hid : "c0" ≠ id) {n : String} {c : Container}
    (hc : crmHost.container n = some c) : c.id ≠ id :=
  Host.start_created_id namesake_fresh hid (fun h => by cases h) hc

/-- A pod of that project. -/
def crmPod : Pod Domain.plain := { apiPod with id := ⟨4⟩, project := "crm", deploymentName := "web" }

/-- A second replica of it. -/
def crmPodB : Pod Domain.plain := { crmPod with id := ⟨5⟩, replicaIndex := 1 }

/-- What holds of three attempts holds of all in the list of them. -/
private theorem forall_three {P : Attempt D → Prop} {q₁ q₂ q₃ : Host} {a₁ a₂ a₃ : Attempt D}
    (h₁ : P a₁) (h₂ : P a₂) (h₃ : P a₃) (q : Host) (a : Attempt D)
    (hmem : (q, a) ∈ [(q₃, a₃), (q₂, a₂), (q₁, a₁)]) : P a := by
  simp only [List.mem_cons, Prod.mk.injEq, List.not_mem_nil, or_false] at hmem
  obtain ⟨-, rfl⟩ | ⟨-, rfl⟩ | ⟨-, rfl⟩ := hmem
  · exact h₃
  · exact h₂
  · exact h₁

/-- What an assignment has to be like that finds its network by the namesake. -/
private theorem shown_of_known (pod : Pod Domain.plain) {l : HostCalls} {s : Host}
    (hsome : (s.container "nexa-crm").isSome = true) (hnetwork : "nexa-crm" ∈ s.networks)
    (hasked : lastQuestion l =
      lastQuestion [(s, ⟨.containerExists "nexa-crm", (.ok true : Except NexaError Bool)⟩)])
    (hmade : ∀ q name (ans : Except NexaError String),
      (q, (⟨.createNetwork name, ans⟩ : RuntimeCall)) ∈ l →
        (q, (⟨.createNetwork name, ans⟩ : RuntimeCall)) ∈
          [(s, (⟨.containerExists "nexa-crm", (.ok true : Except NexaError Bool)⟩ : RuntimeCall))]) :
    (⟨pod, ("crm", "web"), l, true⟩ : Attempt Domain.plain).ShowsNetwork ∧
      (⟨pod, ("crm", "web"), l, true⟩ : Attempt Domain.plain).NetworkMade := by
  refine ⟨⟨s, .ok true, hasked, iff_of_true ⟨hsome, rfl⟩ hnetwork⟩, fun q name ans hmem => ?_⟩
  cases List.mem_singleton.mp (hmade q name ans hmem)

/-- Of two projects the one has its network, which shows, and two assignments
leave it alone; the other has none, and the assignment between them makes it. -/
theorem networks_made_when_missing_crm : ∃ l s, Runs.Run (Attempt.Step apiWorkload) crmHost l s ∧
    l.map (fun e => (e.2.pod, e.2.ok, e.2.calls.filterMap creation)) =
      [(crmPodB, true, []), (apiPod, true, ["nexa-shop"]), (crmPod, true, [])] ∧
    (∀ q a, (q, a) ∈ l → a.CreatesWhenMissing) ∧
    ∀ q a, (q, a) ∈ l → s.networks.count (Workload.networkName a.spec) = 1 := by
  have hknown : ∀ {s : Host}, (s.container "nexa-crm").isSome = true → Ensured "nexa-crm" s
      [(s, ⟨.containerExists "nexa-crm", (.ok true : Except NexaError Bool)⟩)] s :=
    fun hsome => .known ⟨hsome.symm, rfl⟩ rfl
  obtain ⟨h₁, l₁, hfirst, hasked₁, hmade₁, honly₁⟩ := Assigns.of_ensured apiWorkload crmPod
    ("crm", "web") "c1" rfl (hknown rfl) (crmHost_id (by decide))
  obtain ⟨h₂, l₂, hsecond, hasked₂, hmade₂, honly₂⟩ := Assigns.of_ensured apiWorkload apiPod
    ("shop", "api") "c2" rfl (.of_new rfl) (Host.start_created_id h₁ (by decide)
      (crmHost_id (by decide)))
  obtain ⟨h₃, l₃, hthird, hasked₃, hmade₃, honly₃⟩ := Assigns.of_ensured apiWorkload crmPodB
    ("crm", "web") "c3" rfl (hknown rfl) (Host.start_created_id h₂ (by decide)
      (Host.start_created_id h₁ (by decide) (crmHost_id (by decide))))
  obtain ⟨hshown₁, hkept₁⟩ := shown_of_known crmPod rfl (by decide) hasked₁ honly₁
  obtain ⟨hshown₃, hkept₃⟩ := shown_of_known crmPodB rfl (List.mem_cons_of_mem _ List.mem_cons_self) hasked₃ honly₃
  have hmissing : "nexa-shop" ∉ ["nexa-crm"] := by decide
  have hshown₂ : (⟨apiPod, ("shop", "api"), l₂, true⟩ : Attempt Domain.plain).ShowsNetwork :=
    ⟨_, .ok false, hasked₂, iff_of_false (fun h => by cases h.1) hmissing⟩
  have hkept₂ : (⟨apiPod, ("shop", "api"), l₂, true⟩ : Attempt Domain.plain).NetworkMade := by
    intro q name ans hmem
    rcases List.mem_cons.mp (honly₂ q name ans hmem) with h | h
    · cases h
    · cases List.mem_singleton.mp h
      rfl
  have hruns : Runs.Run (Attempt.Step apiWorkload) crmHost
      [(_, ⟨crmPodB, ("crm", "web"), l₃, true⟩), (_, ⟨apiPod, ("shop", "api"), l₂, true⟩),
        (_, ⟨crmPod, ("crm", "web"), l₁, true⟩)] _ := .cons (.cons (.cons .nil hfirst) hsecond) hthird
  obtain ⟨hwhen, hone⟩ := networks_made_when_missing_iff hruns (forall_three rfl rfl rfl)
  have hdistinct : crmHost.networks.Nodup := by decide
  refine ⟨_, _, hruns, ?_, hwhen.mpr (forall_three hshown₁ hshown₂ hshown₃), fun q a hmem =>
    hone (forall_three hshown₁ hshown₂ hshown₃) (forall_three hkept₁ hkept₂ hkept₃) q a hmem
      (List.nodup_iff_count_le_one.mp hdistinct _)⟩
  simp only [List.map_cons, List.map_nil, hmade₁, hmade₂, hmade₃]
  rfl

end Nexad
