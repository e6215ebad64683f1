import Nexad.Runtime.Engine

/-!
# The Docker runtime is a runtime

A daemon may take a name for the beginning of an id, and an id for a name. Where
no name looks like an id, neither happens (`Refers`), and then each request does
on the daemon what the call does on a machine (`Engine.Documented.serves`). So
programs over the port run over `DockerRuntime` and a daemon as they do over a
machine in use, in any interleaving (`docker_serves`).
-/

namespace Nexad.Runtime

open Interleave

/-- A name that no daemon takes for the beginning of an id, or for a link. -/
def Plain (name : String) : Prop := '/' ∉ name.toList ∧ ∃ c ∈ name.toList, c ∉ hexDigits

theorem Plain.not_isId {name : String} (h : Plain name) : ¬ IsId name := by
  obtain ⟨-, c, hc, hdigit⟩ := h
  exact fun hid => hdigit (hid.2 c hc)

/-- The answer to a new container is an id. -/
def TellsAnId : (op : RuntimeOp) → runtimeSig.Ans op → Prop
  | .createContainer _ => fun (ans : Except NexaError String) => ∀ id, ans = .ok id → IsId id
  | .pullImage _ | .containerExists _ | .stopContainer .. | .removeContainer .. | .createNetwork _
  | .startContainer _ => fun _ => True

/-- The mark of a container that the daemon made for a pod. -/
def Managed (config : ContainerConfig) : Prop := config.labels.lookup "managed-by" = some "nexanet"

/-- The call refers to containers by names that are no ids, starts them by their
ids, and marks those that it makes. -/
def Refers : RuntimeOp → Prop
  | .pullImage _ | .createNetwork _ => True
  | .containerExists name => '/' ∉ name.toList
  | .stopContainer name _ | .removeContainer name _ => Plain name
  | .createContainer config => ¬ IsId config.name ∧ Managed config
  | .startContainer id => IsId id

/-! ## Two views of the same containers -/

/-- What a container of this name is made from, when nothing else is known. -/
def unknownConfig (name : String) : ContainerConfig where
  name
  image := ""
  command := []
  env := ∅
  ports := []
  volumes := []
  labels := ∅
  network := none
  dns := []
  dnsSearch := []

/-- A container, as the daemon keeps it and as the machine has it. What is not
the daemon's own is as it was `before`. -/
structure Alike (before : Stock) (d : EngineContainer) (c : Container) : Prop where
  id : d.id = c.id
  running : d.running = c.running
  own : Managed c.config → d.config = DockerRuntime.createConfig c.config
  other : ¬ Managed c.config →
    ∃ d₀, before.container c.config.name = some d₀ ∧ d₀.id = d.id ∧ d₀.config = d.config

/-- A switched container has the id that it had. -/
theorem Stock.of_switch {stock : Stock} {name n : String} {running : Bool} {c : EngineContainer}
    (h : (stock.switch name running).container n = some c) :
    ∃ d, stock.container n = some d ∧ d.id = c.id := by
  change (if n = name then (stock.container n).map _ else stock.container n) = some c at h
  split at h
  · obtain ⟨d, hd, rfl⟩ := Option.map_eq_some_iff.mp h
    exact ⟨d, hd, rfl⟩
  · exact ⟨c, h, rfl⟩

/-- What `container_exists` looks for in a list. -/
theorem DockerRuntime.listed_iff {name : String} {containers : List ContainerSummary} :
    DockerRuntime.listed name containers = true ↔
      ∃ c ∈ containers, ∃ names, c.names = some names ∧ "/" ++ name ∈ names := by
  simp [DockerRuntime.listed, Option.any_eq_true]

/-- The daemon has what the machine has. -/
structure Shows (before stock : Stock) (s : Host) : Prop where
  container : ∀ name, Option.Rel (Alike before) (stock.container name) (s.container name)
  networks : stock.networks = s.networks
  names : ∀ name c, stock.container name = some c → ¬ IsId name

variable {before stock stock' : Stock} {s s' : Host}

theorem Shows.of_some (h : Shows before stock s) {name : String} {d : EngineContainer}
    (hd : stock.container name = some d) : ∃ c, s.container name = some c ∧ Alike before d c := by
  have hrel := h.container name
  rw [hd] at hrel
  generalize s.container name = found at hrel ⊢
  cases hrel with
  | some halike => exact ⟨_, rfl, halike⟩

theorem Shows.of_none (h : Shows before stock s) {name : String} (hd : stock.container name = none) :
    s.container name = none := by
  have hrel := h.container name
  rw [hd] at hrel
  generalize s.container name = found at hrel ⊢
  cases hrel
  rfl

theorem Shows.isSome (h : Shows before stock s) (name : String) :
    (stock.container name).isSome = (s.container name).isSome := by
  cases hd : stock.container name with
  | none =>
    rw [h.of_none hd]
    rfl
  | some d =>
    obtain ⟨c, hc, -⟩ := h.of_some hd
    rw [hc]
    rfl

theorem Shows.of_host (h : Shows before stock s) {name : String} {c : Container}
    (hc : s.container name = some c) : ∃ d, stock.container name = some d ∧ Alike before d c := by
  cases hd : stock.container name with
  | none =>
    rw [h.of_none hd] at hc
    cases hc
  | some d =>
    obtain ⟨c', hc', halike⟩ := h.of_some hd
    rw [hc] at hc'
    cases hc'
    exact ⟨d, rfl, halike⟩

/-- The flag of one container is set at both. -/
theorem Shows.switch (h : Shows before stock s) {meant : Container → Bool} {name : String}
    (running : Bool) (hmeant : ∀ n c, s.container n = some c → (meant c = true ↔ n = name)) :
    Shows before (stock.switch name running) (s.switch meant running) where
  container := by
    intro n
    show Option.Rel _ (if n = name then _ else _) ((s.container n).map _)
    cases hd : stock.container n with
    | none =>
      rw [h.of_none hd, Option.map_none, Option.map_none, ite_self]
      exact .none
    | some d =>
      obtain ⟨c, hc, halike⟩ := h.of_some hd
      rw [hc, Option.map_some, Option.map_some]
      by_cases hn : n = name
      · rw [if_pos hn, if_pos ((hmeant n c hc).mpr hn)]
        exact .some { id := halike.id, running := rfl, own := halike.own, other := halike.other }
      · rw [if_neg hn, if_neg fun hc' => hn ((hmeant n c hc).mp hc')]
        exact .some halike
  networks := h.networks
  names := by
    intro n d hd
    obtain ⟨d', hd', -⟩ := Stock.of_switch hd
    exact h.names n d' hd'

theorem Shows.stop (h : Shows before stock s) (name : String) :
    Shows before (stock.switch name false) (s.stop name) := by
  refine h.switch false fun n c hc => ?_
  rw [decide_eq_true_iff, s.named hc]

theorem Shows.start (h : Shows before stock s) {name : String} {d : EngineContainer}
    (hd : stock.container name = some d) : Shows before (stock.switch name true) (s.start d.id) := by
  obtain ⟨c, hc, halike⟩ := h.of_some hd
  refine h.switch true fun n c' hc' => ?_
  rw [decide_eq_true_iff, halike.id]
  constructor
  · exact fun hid => s.ids hc' hc hid
  · rintro rfl
    rw [hc] at hc'
    cases hc'
    rfl

theorem Shows.remove (h : Shows before stock s) (name : String) :
    Shows before (stock.remove name) (s.remove name) where
  container := by
    intro n
    show Option.Rel _ (if n = name then none else _) (if n = name then none else _)
    split
    · exact .none
    · exact h.container n
  networks := h.networks
  names := by
    intro n d hd
    change (if n = name then none else stock.container n) = some d at hd
    split at hd
    · cases hd
    · exact h.names n d hd

theorem Shows.add (h : Shows before stock s) {config : ContainerConfig} {id : String}
    (fresh : s.Fresh config id) (hname : ¬ IsId config.name) (hmanaged : Managed config) :
    Shows before (stock.add config.name ⟨id, DockerRuntime.createConfig config, false⟩)
      (s.create config id fresh) where
  container := by
    intro n
    show Option.Rel _ (if n = config.name then _ else _) (if n = config.name then _ else _)
    split
    · exact .some { id := rfl, running := rfl, own := fun _ => rfl, other := fun h => absurd hmanaged h }
    · exact h.container n
  networks := h.networks
  names := by
    intro n d hd
    change (if n = config.name then _ else stock.container n) = some d at hd
    split at hd
    · next heq => exact heq ▸ hname
    · exact h.names n d hd

theorem Shows.addNetwork (h : Shows before stock s) (name : String) :
    Shows before (stock.addNetwork name) (s.addNetwork name) where
  container := h.container
  networks := congrArg (name :: ·) h.networks
  names := h.names

/-! ## A request does what its call does -/

theorem Host.switch_none (s : Host) (running : Bool) : s.switch (fun _ => false) running = s := by
  have hcontainer : (s.switch (fun _ => false) running).container = s.container := by
    funext name
    show (s.container name).map _ = _
    simp
  cases s
  simp only [Host.switch] at hcontainer ⊢
  congr 1

theorem Host.Wanes.refl (s : Host) : s.Wanes s := ⟨fun _ => false, (s.switch_none false).symm⟩

theorem Host.Wanes.stop (s : Host) (name : String) : s.Wanes (s.stop name) := ⟨_, rfl⟩

/-- A request that succeeds does what its call does, and so does one that fails
or it does nothing. -/
theorem Shows.outcome {u : Host} (h : Shows before stock u) (hu : s.Wanes u) (op : RuntimeOp) {β : Type}
    {done : β → Stock → Prop} (f : Except String β → runtimeSig.Ans op)
    (refuses : ∀ e, u.answer op (f (.error e)) u) (failed : ∀ e, Host.Failed op (f (.error e)))
    (works : ∀ b, done b stock' → ∃ s', u.answer op (f (.ok b)) s' ∧ Shows before stock' s')
    {ans : Except String β} (houtcome : stock.Outcome done ans stock') :
    ∃ s', s.serves op (f ans) s' ∧ Shows before stock' s' := by
  cases ans with
  | ok b =>
    obtain ⟨s', hanswer, hshows⟩ := works b houtcome
    exact ⟨s', ⟨u, hu, .inl hanswer⟩, hshows⟩
  | error e =>
    rcases houtcome with rfl | ⟨b, hdone⟩
    · exact ⟨u, ⟨u, hu, .inl (refuses e)⟩, h⟩
    · obtain ⟨s', hanswer, hshows⟩ := works b hdone
      exact ⟨s', ⟨u, hu, .inr ⟨failed e, _, hanswer⟩⟩, hshows⟩

/-- A plain name means the container of this name. -/
theorem Plain.meant {ref name : String} (h : Plain ref) (hids : ∀ {n c}, stock.container n = some c → IsId c.id)
    (hmeant : stock.Meant ref name) : name = ref := by
  obtain ⟨c, hc, rfl | hbegins⟩ := hmeant
  · rfl
  · obtain ⟨-, digit, hdigit, hno⟩ := h
    exact absurd ((hids hc).2 digit (hbegins.subset hdigit)) hno

/-- An id means the container that has it. -/
theorem IsId.meant {ref name : String} (h : IsId ref) (hshows : Shows before stock s)
    (hids : ∀ {n c}, stock.container n = some c → IsId c.id) (hmeant : stock.Meant ref name) :
    ∃ d, stock.container name = some d ∧ d.id = ref := by
  obtain ⟨c, hc, rfl | hbegins⟩ := hmeant
  · exact absurd h (hshows.names _ c hc)
  · refine ⟨c, hc, String.toList_injective ?_⟩
    exact (hbegins.eq_of_length (h.1.trans (hids hc).1.symm)).symm

variable {E : Engine} {t t' : E.State}

theorem Engine.Documented.fresh (hE : E.Documented) (h : Shows before (E.stock t) s)
    {config : ContainerConfig} {id : String} {d : DockerConfig}
    (hname : (E.stock t).container config.name = none)
    (hadded : E.stock t' = (E.stock t).add config.name ⟨id, d, false⟩) :
    s.Fresh config id ∧ IsId id := by
  have hnew : (E.stock t').container config.name = some ⟨id, d, false⟩ := by
    rw [hadded]
    exact if_pos rfl
  refine ⟨{ name_free := h.of_none hname, id_free := fun {n c} hc hid => ?_ }, hE.ids hnew⟩
  obtain ⟨old, hold, halike⟩ := h.of_host hc
  have hn : n ≠ config.name := by
    rintro rfl
    rw [hname] at hold
    cases hold
  have hkept : (E.stock t').container n = some old := by
    rw [hadded]
    exact (if_neg hn).trans hold
  exact hn (hE.ids_unique hkept hnew (halike.id.trans hid))

/-- A request does on the daemon what its call does on the machine. -/
theorem Engine.Documented.serves (hE : E.Documented) (h : Shows before (E.stock t) s) {op : RuntimeOp}
    (hrefers : Refers op) {ans : engineSig.Ans (DockerRuntime.requestOf op)}
    (hanswer : E.answer t (DockerRuntime.requestOf op) ans t') :
    TellsAnId op (DockerRuntime.answerOf op ans) ∧
      ∃ s', s.serves op (DockerRuntime.answerOf op ans) s' ∧ Shows before (E.stock t') s' := by
  have hwanes := Host.Wanes.refl s
  have hids : ∀ {n c}, (E.stock t).container n = some c → IsId c.id := hE.ids
  cases op with
  | pullImage image =>
    refine ⟨trivial, s, ⟨s, hwanes, .inl ?_⟩, hE.image hanswer ▸ h⟩
    generalize DockerRuntime.answerOf (.pullImage image) ans = told
    match told with
    | .ok () => exact rfl
    | .error e => exact rfl
  | containerExists name =>
    refine ⟨trivial, s, ⟨s, hwanes, .inl ?_⟩, hE.list hanswer ▸ h⟩
    match ans, hanswer with
    | .error e, _ => exact rfl
    | .ok containers, hanswer =>
      have hlisted := hE.listed hanswer hrefers
      refine ⟨?_, rfl⟩
      rw [← h.isSome name, Bool.eq_iff_iff, ← hlisted]
      exact DockerRuntime.listed_iff
  | stopContainer name timeoutSecs =>
    refine ⟨trivial, h.outcome hwanes (.stopContainer name timeoutSecs) (Except.mapError .runtime)
      (fun _ => rfl) (fun _ => rfl) (fun _ hdone => ?_) (hE.stop hanswer)⟩
    obtain ⟨n, hmeant, heq⟩ := hdone
    obtain rfl := Plain.meant hrefers hids hmeant
    exact ⟨_, rfl, heq ▸ h.stop n⟩
  | removeContainer name force =>
    refine ⟨trivial, ?_⟩
    obtain ⟨u, hu, houtcome⟩ := hE.remove hanswer
    obtain ⟨v, hv, hshows, huids⟩ : ∃ v, s.Wanes v ∧ Shows before u v ∧
        ∀ {n c}, u.container n = some c → IsId c.id := by
      rcases hu with rfl | ⟨n, -, rfl⟩
      · exact ⟨s, hwanes, h, hids⟩
      · refine ⟨s.stop n, .stop s n, h.stop n, fun {m c} hc => ?_⟩
        obtain ⟨d, hd, hid⟩ := Stock.of_switch hc
        exact hid ▸ hids hd
    refine hshows.outcome hv (.removeContainer name force) (Except.mapError .runtime)
      (fun _ => rfl) (fun _ => rfl) (fun _ hdone => ?_) houtcome
    obtain ⟨n, hmeant, heq⟩ := hdone
    obtain rfl := Plain.meant hrefers huids hmeant
    exact ⟨_, rfl, heq ▸ hshows.remove n⟩
  | createNetwork name =>
    refine ⟨trivial, h.outcome hwanes (.createNetwork name) (Except.mapError .runtime)
      (fun _ => rfl) (fun _ => rfl) (fun _ hdone => ?_) (hE.network hanswer)⟩
    exact ⟨_, rfl, hdone ▸ h.addNetwork name⟩
  | createContainer config =>
    constructor
    · intro id hid
      match ans, hanswer with
      | .error e, _ => cases hid
      | .ok made, hanswer =>
        cases hid
        obtain ⟨hname, hadded⟩ := hE.create hanswer
        exact (hE.fresh h hname hadded).2
    · refine h.outcome hwanes (.createContainer config) (Except.mapError .runtime)
        (fun _ => rfl) (fun _ => rfl) (fun id hdone => ?_) (hE.create hanswer)
      obtain ⟨hname, hadded⟩ := hdone
      obtain ⟨hfresh, -⟩ := hE.fresh h hname hadded
      exact ⟨_, ⟨hfresh, rfl⟩, hadded ▸ h.add hfresh hrefers.1 hrefers.2⟩
  | startContainer id =>
    refine ⟨trivial, h.outcome hwanes (.startContainer id) (Except.mapError .runtime)
      (fun _ => rfl) (fun _ => rfl) (fun _ hdone => ?_) (hE.start hanswer)⟩
    obtain ⟨n, hmeant, heq⟩ := hdone
    obtain ⟨d, hd, rfl⟩ := IsId.meant hrefers h hids hmeant
    exact ⟨_, rfl, heq ▸ h.start hd⟩

/-! ## Runs -/

/-- A machine with the containers and networks of a daemon. -/
def Stock.host (stock : Stock) (hids : ∀ {name name' c c'}, stock.container name = some c →
    stock.container name' = some c' → c.id = c'.id → name = name') : Host where
  container := fun name => (stock.container name).map fun c => ⟨c.id, unknownConfig name, c.running⟩
  networks := stock.networks
  named := by
    intro name c h
    obtain ⟨d, -, rfl⟩ := Option.map_eq_some_iff.mp h
    rfl
  ids := by
    intro name name' c c' h h' hid
    obtain ⟨d, hd, rfl⟩ := Option.map_eq_some_iff.mp h
    obtain ⟨d', hd', rfl⟩ := Option.map_eq_some_iff.mp h'
    exact hids hd hd' hid

theorem Stock.shows_host {stock : Stock} (hids) (hnames : ∀ name c, stock.container name = some c → ¬ IsId name) :
    Shows stock stock (stock.host hids) where
  container := by
    intro name
    show Option.Rel _ _ ((stock.container name).map _)
    cases hd : stock.container name with
    | none => exact .none
    | some d =>
      exact .some { id := rfl, running := rfl, own := (fun h => by cases h), other := fun _ => ⟨d, hd, rfl, rfl⟩ }
  networks := rfl
  names := hnames

variable {ρ α : Type} {code : ρ → Prog runtimeSig α} {arrives : ρ → Prop}

/-- The machine can follow the daemon. -/
theorem Engine.Documented.simulates (hE : E.Documented)
    (hcode : ∀ req, arrives req → (code req).Given TellsAnId Refers) (before : Stock) :
    Simulates DockerRuntime.single (E.machine code arrives) (Host.machine code arrives) TellsAnId Refers
      fun t s => Shows before (E.stock t) s where
  code := fun _ => rfl
  arrives := fun _ harrives => harrives
  given := hcode
  call := fun hshows hrefers hanswer => hE.serves hshows hrefers hanswer
  env := by
    intro t s t' hshows hmoves
    rcases hE.env hmoves with heq | ⟨name, heq⟩
    · exact ⟨s, .refl s, heq ▸ hshows⟩
    · exact ⟨s.stop name, .stop s name, heq ▸ hshows.stop name⟩

/-- A run over `DockerRuntime` and a daemon, and the run over a machine in use that follows it. -/
theorem Engine.Documented.followed (hE : E.Documented) {t₀ : E.State}
    (hnames : ∀ name c, (E.stock t₀).container name = some c → ¬ IsId name)
    (hcode : ∀ req, arrives req → (code req).Given TellsAnId Refers)
    {l : History engineSig E.State ρ} {p : Pool engineSig E.State ρ α}
    (hrun : Run (E.machine code arrives) (.idle t₀) l p) :
    ∃ s₀ l' p', Shows (E.stock t₀) (E.stock t₀) s₀ ∧
      Run (Host.machine code arrives) (.idle s₀) l' p' ∧
      List.Forall₂ (Mirrors DockerRuntime.single fun t s => Shows (E.stock t₀) (E.stock t) s) l l' ∧
      Interleave.Follows DockerRuntime.serve TellsAnId Refers (fun t s => Shows (E.stock t₀) (E.stock t) s) p p' := by
  have hshows := Stock.shows_host (hE.ids_unique (t := t₀)) hnames
  obtain ⟨l', p', hrun', hmirrors, hfollows⟩ :=
    hrun.simulated (hE.simulates hcode (E.stock t₀)) hshows
  exact ⟨_, l', p', hshows, hrun', hmirrors, hfollows⟩

/-- Programs over the port run over `DockerRuntime` and a daemon as they do over
a machine in use, event by event. -/
theorem docker_serves (hE : E.Documented) {t₀ : E.State}
    (hnames : ∀ name c, (E.stock t₀).container name = some c → ¬ IsId name)
    (hcode : ∀ req, arrives req → (code req).Given TellsAnId Refers)
    {l : History engineSig E.State ρ} {p : Pool engineSig E.State ρ α}
    (hrun : Run (E.machine code arrives) (.idle t₀) l p) :
    ∃ s₀ l' p', Shows (E.stock t₀) (E.stock t₀) s₀ ∧
      Run (Host.machine code arrives) (.idle s₀) l' p' ∧
      List.Forall₂ (Mirrors DockerRuntime.single fun t s => Shows (E.stock t₀) (E.stock t) s) l l' ∧
      Shows (E.stock t₀) (E.stock p.state) p'.state ∧
      ∀ k req a, p.thread k = some (req, .ret a) ↔ p'.thread k = some (req, .ret a) := by
  obtain ⟨s₀, l', p', h₀, hrun', hmirrors, hfollows⟩ := hE.followed hnames hcode hrun
  exact ⟨s₀, l', p', h₀, hrun', hmirrors, hfollows.state, fun k req a => hfollows.ret_iff DockerRuntime.single⟩

/-! ## A daemon that does what it is asked -/

/-- What a daemon keeps, with its ids. -/
structure DaemonState where
  stock : Stock
  ids : ∀ {name c}, stock.container name = some c → IsId c.id
  ids_unique : ∀ {name name' c c'}, stock.container name = some c →
    stock.container name' = some c' → c.id = c'.id → name = name'

/-- A daemon whose lists are exact, and which takes no name for an id. -/
def obedient : Engine where
  State := DaemonState
  stock := DaemonState.stock
  env := fun t t' => ∃ name, t'.stock = t.stock.switch name false
  answer := fun t op => match op with
    | .image _ | .docker (.events _) => fun _ t' => t'.stock = t.stock
    | .docker (.createContainer options config) => fun (ans : Except String String) t' =>
      t.stock.Outcome (fun id s' => t.stock.container options.name = none ∧
        s' = t.stock.add options.name ⟨id, config, false⟩) ans t'.stock
    | .listContainers options => fun (ans : Except String (List ContainerSummary)) t' =>
      t'.stock = t.stock ∧ ∀ containers name, ans = .ok containers →
        options = ⟨true, [("name", [name])]⟩ →
          ((∃ c ∈ containers, ∃ names, c.names = some names ∧ "/" ++ name ∈ names) ↔
            (t.stock.container name).isSome)
    | .startContainer ref => fun (ans : Except String Unit) t' => t.stock.Outcome
      (fun _ s' => ∃ name, t.stock.Meant ref name ∧ s' = t.stock.switch name true) ans t'.stock
    | .stopContainer ref _ => fun (ans : Except String Unit) t' => t.stock.Outcome
      (fun _ s' => ∃ name, t.stock.Meant ref name ∧ s' = t.stock.switch name false) ans t'.stock
    | .removeContainer ref _ => fun (ans : Except String Unit) t' => t.stock.Outcome
      (fun _ s' => ∃ name, t.stock.Meant ref name ∧ s' = t.stock.remove name) ans t'.stock
    | .createNetwork options => fun (ans : Except String String) t' =>
      t.stock.Outcome (fun _ s' => s' = t.stock.addNetwork options.name) ans t'.stock

theorem obedient_documented : obedient.Documented where
  ids := fun {t} => t.ids
  ids_unique := fun {t} => t.ids_unique
  image := id
  list := And.left
  listed := fun h _ => h.2 _ _ rfl rfl
  stop := id
  remove := fun {t} _ _ _ _ h => ⟨t.stock, .inl rfl, h⟩
  create := id
  start := id
  network := id
  env := fun h => .inr h

/-- A daemon with one container. -/
def DaemonState.single (name : String) (c : EngineContainer) (networks : List String) (hid : IsId c.id) :
    DaemonState where
  stock := ⟨fun n => if n = name then some c else none, networks⟩
  ids := by
    intro n d h
    change (if n = name then some c else none) = some d at h
    split at h
    · cases h
      exact hid
    · cases h
  ids_unique := by
    intro n n' d d' h h' _
    change (if n = name then some c else none) = some d at h
    change (if n' = name then some c else none) = some d' at h'
    split at h <;> split at h'
    · next heq heq' => rw [heq, heq']
    · cases h'
    · cases h
    · cases h

def DaemonState.bare (networks : List String) : DaemonState where
  stock := ⟨fun _ => none, networks⟩
  ids := fun h => by cases h
  ids_unique := fun h => by cases h

/-- One digit may make up an id. -/
theorem isId_replicate {digit : Char} (h : digit ∈ hexDigits) :
    IsId (String.ofList (List.replicate 64 digit)) := by
  unfold IsId
  rw [String.toList_ofList]
  refine ⟨List.length_replicate, fun c hc => ?_⟩
  rwa [List.eq_of_mem_replicate hc]

def idOfWeb : String := String.ofList (List.replicate 64 'a')

theorem idOfWeb_isId : IsId idOfWeb := isId_replicate (by decide)

/-- The configuration of a container that is made for a pod. -/
def webContainer : ContainerConfig :=
  { unknownConfig "web-0" with labels := (∅ : TextMap).insert "managed-by" "nexanet" }

/-- Make a container and start it. -/
def launchWeb (_ : Unit) : Prog runtimeSig (Except NexaError Unit) :=
  .call (.createContainer webContainer) fun
    | .error e => .ret (.error e)
    | .ok (id : String) => .call (.startContainer id) .ret

theorem launchWeb_given : (launchWeb ()).Given TellsAnId Refers := by
  refine ⟨⟨?_, rfl⟩, fun made hmade => ?_⟩
  · exact Plain.not_isId ⟨by decide, 'w', by decide, by decide⟩
  · match made with
    | .error e => exact trivial
    | .ok id => exact ⟨hmade id rfl, fun _ _ => trivial⟩

/-- What a daemon keeps of the container. -/
def web (running : Bool) : EngineContainer := ⟨idOfWeb, DockerRuntime.createConfig webContainer, running⟩

theorem DaemonState.single_switch (name : String) (c : EngineContainer) (networks : List String) (hid)
    (running : Bool) : (DaemonState.single name { c with running } networks hid).stock =
      (DaemonState.single name c networks hid).stock.switch name running := by
  simp only [DaemonState.single, Stock.switch]
  congr 1
  funext n
  split <;> rfl

theorem DaemonState.single_container (name : String) (c : EngineContainer) (networks : List String) (hid) :
    (DaemonState.single name c networks hid).stock.container name = some c := if_pos rfl

theorem DaemonState.single_remove (name : String) (c : EngineContainer) (networks : List String) (hid) :
    (DaemonState.bare networks).stock = (DaemonState.single name c networks hid).stock.remove name := by
  simp only [DaemonState.single, DaemonState.bare, Stock.remove]
  congr 1
  funext n
  split <;> rfl

/-- An empty daemon is asked for a container, and the machine has it running. -/
theorem docker_serves_web : ∃ s₀ l' p', Run (Host.machine launchWeb fun _ => True) (.idle s₀) l' p' ∧
    p'.thread 0 = some ((), .ret (.ok ())) := by
  have hcreate : obedient.answer (DaemonState.bare [])
      (.docker (.createContainer ⟨"web-0", none⟩ (DockerRuntime.createConfig webContainer)))
      (.ok idOfWeb : Except String String) (DaemonState.single "web-0" (web false) [] idOfWeb_isId) := ⟨rfl, rfl⟩
  have hstart : obedient.answer (DaemonState.single "web-0" (web false) [] idOfWeb_isId)
      (.startContainer idOfWeb) (.ok () : Except String Unit)
      (DaemonState.single "web-0" (web true) [] idOfWeb_isId) :=
    ⟨"web-0", ⟨web false, rfl, .inr (List.prefix_refl _)⟩,
      DaemonState.single_switch "web-0" (web false) [] idOfWeb_isId true⟩
  have hmoves : Prog.Moves obedient.answer ((launchWeb ()).via DockerRuntime.serve) (DaemonState.bare []) _
      (.ret (.ok ())) (DaemonState.single "web-0" (web true) [] idOfWeb_isId) :=
    .call hcreate (.call hstart (.refl _ _))
  obtain ⟨l, p, hrun, -, hk, -⟩ := Run.served (M := obedient.machine launchWeb fun _ => True) (k := 0)
    (p := .idle (DaemonState.bare [])) hmoves rfl trivial rfl
  obtain ⟨s₀, l', p', -, hrun', -, -, hthread⟩ := docker_serves obedient_documented
    (fun _ _ h => by cases h) (fun _ _ => launchWeb_given) hrun
  exact ⟨s₀, l', p', hrun', (hthread 0 () _).mp hk⟩

end Nexad.Runtime
