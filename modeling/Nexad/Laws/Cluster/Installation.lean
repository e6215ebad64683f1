import Nexad.Cluster.Installation
import Nexad.Laws.Cluster.Registration
import Nexad.Laws.Cluster.Token
import Nexad.Laws.Core.Uuid

/-!
# Workers of an installation

While a master lives, what happens to it is a run of the master alone, from the
store that it found (`Life`). A worker that has joined stands in one of two
places: its registration is a thread of this life, or its id had been drawn
when this life began. That carries the invariant over all lives (`JoinInv`).
-/

namespace Nexad.Cluster

open Interleave

variable {D : Domain} {sha256 : List UInt8 → List UInt8}

/-! ## The code of a worker -/

/-- What is left to do of a worker that has not been answered. -/
inductive Asks (D : Domain) (sha256 : List UInt8 → List UInt8) (args : WorkerArgs) :
    Prog workerSig (Except String Worker) → Prop
  | before {op : WorkerOp} {k : workerSig.Ans op → Prog workerSig (Except String Worker)}
      (own : ∀ req, op ≠ .register req) (next : ∀ ans, Asks D sha256 args (k ans)) :
      Asks D sha256 args (.call op k)
  | asking (hostname : String) (resources : NodeResources) :
      Asks D sha256 args (.call (.register (registerRequest args hostname resources)) fun resp =>
        .ret (joined D sha256 args hostname resp))
  | failed (e : String) : Asks D sha256 args (.ret (.error e))

theorem startWorker_asks (args : WorkerArgs) : Asks D sha256 args (startWorker D sha256 args) := by
  refine .before (fun _ h => by cases h) fun hostname => ?_
  match hostname with
  | .error e => exact .failed _
  | .ok hostname =>
    refine .before (fun _ h => by cases h) fun resources => ?_
    refine .before (fun _ h => by cases h) fun connected => ?_
    match connected with
    | .error e => exact .failed e
    | .ok () => exact .asking hostname resources

/-- The call of a worker, and what it makes of the answer. -/
theorem Asks.register {args : WorkerArgs} {req : RegisterRequest}
    {cont : Except String RegisterResponse → Prog workerSig (Except String Worker)}
    (h : Asks D sha256 args (.call (.register req) cont)) : ∃ hostname resources,
      req = registerRequest args hostname resources ∧
      ∀ resp, cont resp = .ret (joined D sha256 args hostname resp) := by
  cases h with
  | before own => exact absurd rfl (own req)
  | asking hostname resources => exact ⟨hostname, resources, rfl, fun _ => rfl⟩

/-- A worker that joins has been accepted, with an id that reads as its own. -/
theorem joined_eq_ok {args : WorkerArgs} {hostname : String} {resp : Except String RegisterResponse}
    {worker : Worker} (h : joined D sha256 args hostname resp = .ok worker) :
    ∃ nodeId message, resp = .ok ⟨nodeId, true, message⟩ ∧ D.uuid.parse nodeId = .ok worker.nodeId ∧
      worker.args = args ∧ worker.hostname = hostname ∧
      worker.server = ⟨hashToken sha256 args.token⟩ := by
  unfold joined at h
  match resp with
  | .error e => cases h
  | .ok ⟨nodeId, false, message⟩ => cases h
  | .ok ⟨nodeId, true, message⟩ =>
    dsimp only at h
    rw [if_neg (by decide)] at h
    cases hid : D.uuid.parse nodeId with
    | error e =>
      rw [hid] at h
      cases h
    | ok id =>
      rw [hid] at h
      cases h
      exact ⟨nodeId, message, rfl, hid, rfl, rfl, rfl⟩

/-! ## One life of the master -/

section Life

variable {server : ClusterServer} {s₀ : Shared D} {l : MasterHistory D} {p p' : MasterPool D}
  {e : Event (clusterSig D) Request} {k : Nat}

/-- The token of an accepted registration is one that the server accepts. -/
theorem IsAccepted.token {arrives : Request → Prop} {reg : RegisterRequest} {nodeId : String}
    (hrun : Run (master D sha256 server arrives) (.idle s₀) l p) (h : IsAccepted p k reg nodeId) :
    hashToken sha256 reg.token = server.tokenHash := by
  obtain ⟨message, hk⟩ := h
  have hpath : (server.register D sha256 reg).Path (l.calls k) _ := hrun.path hk
  by_contra hbad
  have hrefused : server.register D sha256 reg = .ret (refused "invalid join token") :=
    not_not.mp fun hpass => hbad ((passes_iff server reg).mp hpass)
  rw [hrefused] at hpath
  generalize l.calls k = calls at hpath
  cases hpath

/-- A machine keeps its row, unless the row is deleted. -/
theorem Step.keeps_machine {arrives : Request → Prop} (h₀ : ∀ r ∈ s₀.nodes.rows, r.id ∈ s₀.drawn)
    (hrun : Run (master D sha256 server arrives) (.idle s₀) l p)
    (hstep : Step (master D sha256 server arrives) p e p') {r : Node} (hr : r ∈ p.state.nodes.rows)
    (hkept : ¬ Deletes r.id e) : ∃ r' ∈ p'.state.nodes.rows, SameMachine r r' := by
  have hinv := (Run.origin h₀ hrun).1
  have hguar : OriginGuar s₀ l e := (Run.origin h₀ (.cons hrun hstep)).2.1
  cases hstep with
  | arrive => exact ⟨r, hr, .refl r⟩
  | env moves =>
    cases moves
    exact ⟨r, hr, .refl r⟩
  | @call j req op cont ans s' _ answered =>
    show ∃ r' ∈ s'.nodes.rows, SameMachine r r'
    cases Answered.nodes answered with
    | same kept => exact ⟨r, kept ▸ hr, .refl r⟩
    | insert done =>
      refine ⟨r, ?_, .refl r⟩
      rw [(NodeTable.insert_ok done).1]
      exact List.mem_append_left _ hr
    | @delete id done =>
      refine ⟨r, ?_, .refl r⟩
      rw [done]
      exact List.mem_filter.mpr ⟨hr, decide_eq_true fun hid => hkept ⟨j, req, hid ▸ rfl⟩⟩
    | @update n done =>
      refine ⟨NodeTable.written n r, ?_, ?_⟩
      · rw [(NodeTable.update_ok done).2]
        exact List.mem_map.mpr ⟨r, hr, rfl⟩
      · -- what is written over the row is a record of the same machine
        unfold NodeTable.written
        split
        · next hid =>
          have hsame := hinv.same_machine h₀ (hinv.known r hr) (hguar.update n ⟨_, _, rfl⟩) hid
          exact ⟨hsame.id, hsame.name, hsame.address, hsame.role⟩
        · exact .refl r

/-- The row of a machine is there, or was deleted since. -/
theorem Run.keeps_machine {arrives : Request → Prop} (h₀ : ∀ r ∈ s₀.nodes.rows, r.id ∈ s₀.drawn)
    (hrun : Run (master D sha256 server arrives) (.idle s₀) l p) {l' : MasterHistory D}
    (hlater : Run (master D sha256 server arrives) p l' p') {r : Node} (hr : r ∈ p.state.nodes.rows) :
    (∃ r' ∈ p'.state.nodes.rows, SameMachine r r') ∨ ∃ s e, (s, e) ∈ l' ∧ Deletes r.id e := by
  induction hlater with
  | nil => exact .inl ⟨r, hr, .refl r⟩
  | @cons l' q q' e hrun' hstep ih =>
    rcases ih with ⟨r', hr', hsame⟩ | ⟨s, e', hmem, hdel⟩
    · by_cases hdel : Deletes r.id e
      · exact .inr ⟨_, e, List.mem_cons_self, hdel⟩
      · obtain ⟨r'', hr'', hsame'⟩ :=
          Step.keeps_machine h₀ (hrun.trans hrun') hstep hr' (hsame.id ▸ hdel)
        exact .inl ⟨r'', hr'', hsame.trans hsame'⟩
    · exact .inr ⟨s, e', List.mem_cons_of_mem _ hmem, hdel⟩

/-- An accepted registration has drawn its node, and the node's row is there or
was deleted since. -/
theorem IsAccepted.drew {arrives : Request → Prop} (h₀ : ∀ r ∈ s₀.nodes.rows, r.id ∈ s₀.drawn)
    (hrun : Run (master D sha256 server arrives) (.idle s₀) l p) {reg : RegisterRequest}
    {nodeId : String} (h : IsAccepted p k reg nodeId) :
    ∃ n, Drew k n l ∧ nodeId = D.uuid.print n.id ∧ AsRequested D reg n ∧
      ((∃ r ∈ p.state.nodes.rows, SameMachine n r) ∨ ∃ s e, (s, e) ∈ l ∧ Deletes n.id e) := by
  obtain ⟨s, n, hmem, hn, hid⟩ := registered hrun h
  obtain ⟨later, earlier, q, q', rfl, -, hbefore, hstep, hafter⟩ := hrun.split hmem
  have hins : Inserts (D := D) k n (.call k (.register reg) (.store (.insertNode n)) (.ok ())) := ⟨_, rfl⟩
  have hguar := (Run.origin h₀ (.cons hbefore hstep)).2.1
  obtain ⟨t, f, hf, hdraws⟩ := (hguar.insert k n hins).1
  refine ⟨n, ⟨t, f, by simp [hf], hdraws⟩, hid, hn, ?_⟩
  rcases Run.keeps_machine h₀ (.cons hbefore hstep) hafter (Step.inserts hstep hins).2 with
    hrow | ⟨s', e, hmem', hdel⟩
  · exact .inl hrow
  · exact .inr ⟨s', e, List.mem_append_left _ hmem', hdel⟩

end Life

/-! ## The start of a master -/

/-- What a start leaves: every row there was, perhaps one more, with an id that it drew. -/
structure Booted (s s' : Shared D) : Prop where
  drawn : ∀ id ∈ s.drawn, id ∈ s'.drawn
  rows : ∀ r ∈ s.nodes.rows, r ∈ s'.nodes.rows
  ids : ∀ r ∈ s'.nodes.rows, r ∈ s.nodes.rows ∨ r.id ∈ s'.drawn

theorem Booted.refl (s : Shared D) : Booted s s := ⟨fun _ h => h, fun _ h => h, fun _ h => .inl h⟩

theorem Booted.trans {s s' s'' : Shared D} (h : Booted s s') (h' : Booted s' s'') : Booted s s'' where
  drawn := fun id hid => h'.drawn id (h.drawn id hid)
  rows := fun r hr => h'.rows r (h.rows r hr)
  ids := fun r hr => (h'.ids r hr).elim (fun hr' => (h.ids r hr').imp_right (h'.drawn _)) .inr

/-- No id that was drawn is forgotten. -/
theorem Answered.drawn_mono {s s' : Shared D} {op : Op D} {ans : op.Ans D} (h : Answered s op ans s')
    {id : Uuid} (hid : id ∈ s.drawn) : id ∈ s'.drawn := by
  cases h with
  | @store c answer _ run =>
    have hdrawn := c.run_drawn s
    rw [run] at hdrawn
    exact hdrawn ▸ hid
  | newNode => exact List.mem_cons_of_mem _ hid
  | _ => exact hid

/-- A call that updates and deletes nothing, and inserts only what was drawn. -/
def Starts (s : Shared D) : Op D → Prop
  | .store (.insertNode n) => n.id ∈ s.drawn
  | .store (.updateNode _) | .store (.deleteNode _) => False
  | _ => True

theorem Answered.boots {s s' : Shared D} {op : Op D} {ans : op.Ans D} (h : Answered s op ans s')
    (hop : Starts s op) : Booted s s' := by
  have hdrawn : ∀ id ∈ s.drawn, id ∈ s'.drawn := fun id => h.drawn_mono
  cases Answered.nodes h with
  | same kept =>
    refine ⟨hdrawn, fun r hr => ?_, fun r hr => .inl ?_⟩
    · rwa [kept]
    · rwa [← kept]
  | @insert n done =>
    have hrows := (NodeTable.insert_ok done).1
    refine ⟨hdrawn, fun r hr => ?_, fun r hr => ?_⟩
    · rw [hrows]
      exact List.mem_append_left _ hr
    · rw [hrows] at hr
      rcases List.mem_append.mp hr with hr | hr
      · exact .inl hr
      · cases List.mem_singleton.mp hr
        exact .inr (hdrawn _ hop)
  | update => exact hop.elim
  | delete => exact hop.elim

theorem startMaster_boots {hostname address : String} {resources : NodeResources} {s s' : Shared D}
    {calls : List (ClusterCall D)} {left : Prog (clusterSig D) (Except NexaError ClusterServer)}
    (h : (startMaster D sha256 hostname address resources).Moves Answered s calls left s') :
    Booted s s' := by
  unfold startMaster ask at h
  cases h with
  | refl => exact .refl s
  | @call _ _ _ _ s₁ _ node _ drew h =>
    have hid : node.id ∈ s₁.drawn := by
      cases drew
      exact List.mem_cons_self
    refine (Answered.boots drew trivial).trans ?_
    cases h with
    | refl => exact .refl _
    | call inserted h =>
      refine (Answered.boots inserted hid).trans ?_
      cases h with
      | refl => exact .refl _
      | @call _ _ _ _ _ _ found _ loaded h =>
        refine (Answered.boots loaded trivial).trans ?_
        match found with
        | .error e =>
          cases h
          exact .refl _
        | .ok (some hash) =>
          cases h
          exact .refl _
        | .ok none =>
          cases h with
          | refl => exact .refl _
          | call filled h =>
            refine (Answered.boots filled trivial).trans ?_
            cases h with
            | refl => exact .refl _
            | @call _ _ _ _ _ _ stored _ set h =>
              refine (Answered.boots set trivial).trans ?_
              match stored with
              | .error e =>
                cases h
                exact .refl _
              | .ok () =>
                cases h
                exact .refl _

/-! ## All lives -/

/-- The row of a worker: its own name and address under the id it was given. -/
def HasRow (s : Shared D) (worker : Worker) : Prop :=
  ∃ r ∈ s.nodes.rows, r.id = worker.nodeId ∧ r.name = worker.hostname ∧
    r.address = worker.args.listenAddr ∧ r.role = .worker

/-- The row with this id was deleted. -/
def Gone (id : Uuid) (events : List (MasterEvent D)) : Prop := ∃ e ∈ events, Deletes id e

/-- Thread `k` serves the registration of a process. -/
structure Serves (server : ClusterServer) (threads : Threads D) (l : MasterHistory D) (k : Nat)
    (p : Process) : Prop where
  busy : ∃ req q, threads k = some (.register req, q) ∧
    ∀ req' cont, p.code = .call (.register req') cont → req = req'
  joined : ∀ w, p.code = .ret (.ok w) → (∃ n, Drew k n l ∧ n.id = w.nodeId) ∧ w.server = server

/-- One life of the master, from the store `s₀`. -/
structure Life (sha256 : List UInt8 → List UInt8) (s : Installation D) (events : List (MasterEvent D))
    (server : ClusterServer) (threads : Threads D) (s₀ : Shared D) (l : MasterHistory D) : Prop where
  ids : ∀ r ∈ s₀.nodes.rows, r.id ∈ s₀.drawn
  run : Run (installed D sha256 server) (.idle s₀) l ⟨s.store, threads⟩
  recorded : ∀ t e, (t, e) ∈ l → e ∈ events
  serves : ∀ i p k, s.process i = some p → p.rpc = .sent k → Serves server threads l k p
  earlier : ∀ i p w, s.process i = some p → p.code = .ret (.ok w) → (∀ k, p.rpc ≠ .sent k) →
    w.nodeId ∈ s₀.drawn

/-- What holds of an installation at any time. -/
structure JoinInv (sha256 : List UInt8 → List UInt8) (events : List (MasterEvent D))
    (s : Installation D) : Prop where
  ids : ∀ r ∈ s.store.nodes.rows, r.id ∈ s.store.drawn
  life : ∀ server threads, s.master = some (server, threads) →
    ∃ s₀ l, Life sha256 s events server threads s₀ l
  idle : s.master = none → ∀ i p k, s.process i = some p → p.rpc ≠ .sent k
  apart : ∀ i j p p' k, s.process i = some p → s.process j = some p' → p.rpc = .sent k →
    p'.rpc = .sent k → i = j
  code : ∀ i p, s.process i = some p → Asks D sha256 p.args p.code ∨ ∃ w, p.code = .ret (.ok w)
  asked : ∀ i p, s.process i = some p → p.rpc ≠ .unsent → ∀ op k, p.code = .call op k →
    ∃ req, op = .register req
  drawn : ∀ i w, Joined s i w → w.nodeId ∈ s.store.drawn
  distinct : ∀ i j w w', Joined s i w → Joined s j w' → w.nodeId = w'.nodeId → i = j
  row : ∀ i w, Joined s i w → HasRow s.store w ∨ Gone w.nodeId events

section Process

variable {s : Installation D} {i j : Nat} {p p' : Process} {w : Worker}

theorem process_set (h : (s.setProcess i p).process j = some p') :
    j = i ∧ p' = p ∨ j ≠ i ∧ s.process j = some p' := by
  by_cases hj : j = i
  · subst hj
    have hset : (s.setProcess j p).process j = some p := Function.update_self ..
    exact .inl ⟨rfl, (Option.some.inj (hset.symm.trans h)).symm⟩
  · have hset : (s.setProcess i p).process j = s.process j := Function.update_of_ne hj ..
    exact .inr ⟨hj, hset.symm.trans h⟩

/-- Whose call is with a thread had it there before the code went on. -/
theorem sent_set {code : Prog workerSig (Except String Worker)} {k : Nat} (running : s.process i = some p)
    (h : (s.setProcess i { p with code := code }).process j = some p') (hsent : p'.rpc = .sent k) :
    ∃ q, s.process j = some q ∧ q.rpc = .sent k := by
  rcases process_set h with ⟨rfl, rfl⟩ | ⟨-, hq⟩
  · exact ⟨p, running, hsent⟩
  · exact ⟨p', hq, hsent⟩

/-- A process that does not join leaves the others where they are. -/
theorem joined_set (hnot : ∀ w, p.code ≠ .ret (.ok w)) (h : Joined (s.setProcess i p) j w) :
    Joined s j w := by
  obtain ⟨p', hp', hcode⟩ := h
  rcases process_set hp' with ⟨-, rfl⟩ | ⟨-, hp'⟩
  · exact absurd hcode (hnot w)
  · exact ⟨p', hp', hcode⟩

end Process

variable {s s' : Installation D} {events : List (MasterEvent D)}

/-- A process at a call has not been answered. -/
theorem JoinInv.asks (h : JoinInv sha256 events s) {i : Nat} {p : Process} {op : WorkerOp}
    {k : workerSig.Ans op → Prog workerSig (Except String Worker)} (running : s.process i = some p)
    (at_call : p.code = .call op k) : Asks D sha256 p.args (.call op k) := by
  rcases h.code i p running with hasks | ⟨w, hw⟩
  · exact at_call ▸ hasks
  · cases at_call.symm.trans hw

/-- A process goes on without joining, before its call or to its end. -/
theorem JoinInv.goes_on (h : JoinInv sha256 events s) {i : Nat} {p : Process}
    (running : s.process i = some p) {code : Prog workerSig (Except String Worker)}
    (hcode : Asks D sha256 p.args code) (hrpc : p.rpc = .unsent ∨ ∃ e, code = .ret (.error e)) :
    JoinInv sha256 events (s.setProcess i { p with code := code }) := by
  have hnot : ∀ w, code ≠ .ret (.ok w) := by
    rintro w rfl
    cases hcode
  have hjoined : ∀ {j w}, Joined (s.setProcess i { p with code := code }) j w → Joined s j w :=
    joined_set hnot
  refine {
    ids := h.ids
    life := fun server threads hm => ?_
    idle := fun hm j p' k hp' => ?_
    apart := fun j j' q q' k hq hq' hk hk' => ?_
    code := fun j q hq => ?_
    asked := fun j q hq hsent op k hop => ?_
    drawn := fun j w hw => h.drawn j w (hjoined hw)
    distinct := fun j j' w w' hw hw' => h.distinct j j' w w' (hjoined hw) (hjoined hw')
    row := fun j w hw => h.row j w (hjoined hw) }
  · obtain ⟨s₀, l, hlife⟩ := h.life server threads hm
    refine ⟨s₀, l, hlife.ids, hlife.run, hlife.recorded, fun j q k hq hk => ?_, fun j q w hq hw hk => ?_⟩
    · rcases process_set hq with ⟨rfl, rfl⟩ | ⟨-, hq⟩
      · obtain ⟨req, left, hthread, -⟩ := (hlife.serves j p k running hk).busy
        refine ⟨⟨req, left, hthread, fun req' cont hcall => ?_⟩, fun w hw => absurd hw (hnot w)⟩
        -- what has been sent goes on only to its end
        rcases hrpc with hunsent | ⟨e, rfl⟩
        · cases hunsent.symm.trans hk
        · cases hcall
      · exact hlife.serves j q k hq hk
    · rcases process_set hq with ⟨rfl, rfl⟩ | ⟨-, hq⟩
      · exact absurd hw (hnot w)
      · exact hlife.earlier j q w hq hw hk
  · rcases process_set hp' with ⟨rfl, rfl⟩ | ⟨-, hp'⟩
    · exact h.idle hm j p k running
    · exact h.idle hm j p' k hp'
  · obtain ⟨r, hr, hrk⟩ := sent_set running hq hk
    obtain ⟨r', hr', hrk'⟩ := sent_set running hq' hk'
    exact h.apart j j' r r' k hr hr' hrk hrk'
  · rcases process_set hq with ⟨rfl, rfl⟩ | ⟨-, hq⟩
    · exact .inl hcode
    · exact h.code j q hq
  · rcases process_set hq with ⟨rfl, rfl⟩ | ⟨-, hq⟩
    · rcases hrpc with hunsent | ⟨e, rfl⟩
      · exact absurd hunsent hsent
      · cases hop
    · exact h.asked j q hq hsent op k hop

/-- The master takes a step. -/
theorem JoinInv.master_step (h : JoinInv sha256 events s) {server : ClusterServer} {threads : Threads D}
    {e : MasterEvent D} {pool : MasterPool D} (serving : s.master = some (server, threads))
    (step : Step (installed D sha256 server) ⟨s.store, threads⟩ e pool) :
    JoinInv sha256 (e :: events) (s.setPool server pool) := by
  obtain ⟨s₀, l, hlife⟩ := h.life server threads serving
  have hrun := Run.cons hlife.run step
  have horigin := (Run.origin hlife.ids hrun).1
  have hdrawn : ∀ id ∈ s.store.drawn, id ∈ pool.state.drawn := by
    intro id hid
    cases step with
    | arrive => exact hid
    | call _ answered => exact Answered.drawn_mono answered hid
    | env moves =>
      cases moves
      exact hid
  refine {
    ids := fun r hr => horigin.drawn_of_entered hlife.ids (horigin.entered r hr)
    life := fun server' threads' hm => ?_
    idle := fun hm => by cases hm
    apart := h.apart
    code := h.code
    asked := h.asked
    drawn := fun i w hw => hdrawn _ (h.drawn i w hw)
    distinct := h.distinct
    row := fun i w hw => ?_ }
  · cases hm
    refine ⟨s₀, _, hlife.ids, hrun, fun t f hf => ?_, fun i p k hp hk => ?_, hlife.earlier⟩
    · rcases List.mem_cons.mp hf with heq | hf
      · cases heq
        exact List.mem_cons_self
      · exact List.mem_cons_of_mem _ (hlife.recorded t f hf)
    · obtain ⟨⟨req, q, hthread, hreq⟩, hjoined⟩ := hlife.serves i p k hp hk
      obtain ⟨q', hthread'⟩ := Step.thread step hthread
      refine ⟨⟨req, q', hthread', hreq⟩, fun w hw => ?_⟩
      obtain ⟨⟨n, hn, hid⟩, hserver⟩ := hjoined w hw
      exact ⟨⟨n, hn.cons _, hid⟩, hserver⟩
  · rcases h.row i w hw with ⟨r, hr, hid, hname, haddress, hrole⟩ | ⟨f, hf, hdel⟩
    · by_cases hdel : Deletes w.nodeId e
      · exact .inr ⟨e, List.mem_cons_self, hdel⟩
      · obtain ⟨r', hr', hsame⟩ := Step.keeps_machine hlife.ids hlife.run step hr (hid ▸ hdel)
        exact .inl ⟨r', hr', hsame.id.symm.trans hid, hsame.name.symm.trans hname,
          hsame.address.symm.trans haddress, hsame.role.symm.trans hrole⟩
    · exact .inr ⟨f, List.mem_cons_of_mem _ hf, hdel⟩

/-- The registration of a process has arrived. -/
theorem JoinInv.sent (h : JoinInv sha256 events s) {i k : Nat} {p : Process} {req : RegisterRequest}
    {cont : Except String RegisterResponse → Prog workerSig (Except String Worker)}
    {server : ClusterServer} {threads : Threads D} {q : Code D} (running : s.process i = some p)
    (at_call : p.code = .call (.register req) cont) (serving : s.master = some (server, threads))
    (arrived : threads k = some (.register req, q))
    (fresh : ∀ j p', s.process j = some p' → p'.rpc ≠ .sent k) :
    JoinInv sha256 events (s.setProcess i { p with rpc := .sent k }) := by
  have hnot : ∀ w, p.code ≠ .ret (.ok w) := fun w hw => by cases at_call.symm.trans hw
  have hjoined : ∀ {j w}, Joined (s.setProcess i { p with rpc := .sent k }) j w → Joined s j w :=
    joined_set hnot
  refine {
    ids := h.ids
    life := fun server' threads' hm => ?_
    idle := fun hm => by cases serving.symm.trans hm
    apart := fun j j' q q' k' hq hq' hk hk' => ?_
    code := fun j q hq => ?_
    asked := fun j q hq hsent op k' hop => ?_
    drawn := fun j w hw => h.drawn j w (hjoined hw)
    distinct := fun j j' w w' hw hw' => h.distinct j j' w w' (hjoined hw) (hjoined hw')
    row := fun j w hw => h.row j w (hjoined hw) }
  · cases serving.symm.trans hm
    obtain ⟨s₀, l, hlife⟩ := h.life server threads serving
    refine ⟨s₀, l, hlife.ids, hlife.run, hlife.recorded, fun j q' k' hq hk => ?_,
      fun j q' w hq hw hk => ?_⟩
    · rcases process_set hq with ⟨rfl, rfl⟩ | ⟨-, hq⟩
      · cases hk
        refine ⟨⟨req, q, arrived, fun req' cont' hcall => ?_⟩, fun w hw => absurd hw (hnot w)⟩
        cases at_call.symm.trans hcall
        rfl
      · exact hlife.serves j q' k' hq hk
    · rcases process_set hq with ⟨rfl, rfl⟩ | ⟨-, hq⟩
      · exact absurd hw (hnot w)
      · exact hlife.earlier j q' w hq hw hk
  · rcases process_set hq with ⟨rfl, rfl⟩ | ⟨-, hother⟩ <;>
      rcases process_set hq' with ⟨rfl, rfl⟩ | ⟨-, hother'⟩
    · rfl
    · cases hk
      exact absurd hk' (fresh j' q' hother')
    · cases hk'
      exact absurd hk (fresh j q hother)
    · exact h.apart j j' q q' k' hother hother' hk hk'
  · rcases process_set hq with ⟨rfl, rfl⟩ | ⟨-, hq⟩
    · exact h.code j p running
    · exact h.code j q hq
  · rcases process_set hq with ⟨rfl, rfl⟩ | ⟨-, hq⟩
    · cases at_call.symm.trans hop
      exact ⟨req, rfl⟩
    · exact h.asked j q hq hsent op k' hop

/-- A process joins. -/
theorem JoinInv.joins (h : JoinInv sha256 events s) (huuid : UuidText D.uuid) {i k : Nat} {p : Process}
    {req : RegisterRequest} {cont : Except String RegisterResponse → Prog workerSig (Except String Worker)}
    {server : ClusterServer} {threads : Threads D} {resp : RegisterResponse} {worker : Worker}
    (running : s.process i = some p) (at_call : p.code = .call (.register req) cont)
    (sent : p.rpc = .sent k) (serving : s.master = some (server, threads))
    (done : threads k = some (.register req, .ret (.register resp)))
    (hjoins : cont (.ok resp) = .ret (.ok worker)) :
    JoinInv sha256 events (s.setProcess i { p with code := .ret (.ok worker) }) := by
  obtain ⟨s₀, l, hlife⟩ := h.life server threads serving
  obtain ⟨hostname, resources, rfl, hcont⟩ := (h.asks running at_call).register
  obtain ⟨nodeId, message, hresp, hparse, hargs, hhostname, hserver⟩ :=
    joined_eq_ok (Prog.ret.inj ((hcont _).symm.trans hjoins))
  cases hresp
  have haccepted : IsAccepted ⟨s.store, threads⟩ k (registerRequest p.args hostname resources) nodeId :=
    ⟨message, done⟩
  have htoken := IsAccepted.token hlife.run haccepted
  obtain ⟨n, hdrew, hprint, hn, hrow⟩ := IsAccepted.drew hlife.ids hlife.run haccepted
  have hid : n.id = worker.nodeId := by
    rw [hprint, huuid.parse_print] at hparse
    exact Except.ok.inj hparse
  have horigin := (Run.origin hlife.ids hlife.run).1
  -- whoever has this id was served by this thread
  have honly : ∀ j w, Joined s j w → w.nodeId ≠ worker.nodeId := by
    rintro j w ⟨q, hq, hcode⟩ heq
    by_cases hsent : ∃ k', q.rpc = .sent k'
    · obtain ⟨k', hk'⟩ := hsent
      obtain ⟨⟨m, hm, hmid⟩, -⟩ := (hlife.serves j q k' hq hk').joined w hcode
      obtain ⟨rfl, -⟩ := horigin.once k' k m n hm hdrew (hmid.trans (heq.trans hid.symm))
      cases h.apart j i q p k' hq running hk' sent
      cases hq.symm.trans running
      cases at_call.symm.trans hcode
    · have hold := hlife.earlier j q w hq hcode fun k' hk' => hsent ⟨k', hk'⟩
      exact (horigin.drew k n hdrew).2 (hid ▸ heq ▸ hold)
  have hjoined : ∀ {j w}, Joined (s.setProcess i { p with code := .ret (.ok worker) }) j w →
      j = i ∧ w = worker ∨ j ≠ i ∧ Joined s j w := by
    rintro j w ⟨q, hq, hcode⟩
    rcases process_set hq with ⟨rfl, rfl⟩ | ⟨hj, hq⟩
    · cases hcode
      exact .inl ⟨rfl, rfl⟩
    · exact .inr ⟨hj, q, hq, hcode⟩
  refine {
    ids := h.ids
    life := fun server' threads' hm => ?_
    idle := fun hm => by cases serving.symm.trans hm
    apart := fun j j' q q' k' hq hq' hk hk' => ?_
    code := fun j q hq => ?_
    asked := fun j q hq hsent op k' hop => ?_
    drawn := fun j w hw => ?_
    distinct := fun j j' w w' hw hw' heq => ?_
    row := fun j w hw => ?_ }
  · cases serving.symm.trans hm
    refine ⟨s₀, l, hlife.ids, hlife.run, hlife.recorded, fun j q k' hq hk => ?_, fun j q w hq hw hk => ?_⟩
    · rcases process_set hq with ⟨rfl, rfl⟩ | ⟨-, hq⟩
      · cases sent.symm.trans hk
        refine ⟨⟨_, _, done, fun _ _ hcall => by cases hcall⟩, fun w hw => ?_⟩
        cases hw
        exact ⟨⟨n, hdrew, hid⟩, hserver.trans (congrArg ClusterServer.mk htoken)⟩
      · exact hlife.serves j q k' hq hk
    · rcases process_set hq with ⟨rfl, rfl⟩ | ⟨-, hq⟩
      · exact absurd sent (hk k)
      · exact hlife.earlier j q w hq hw hk
  · obtain ⟨r, hr, hrk⟩ := sent_set running hq hk
    obtain ⟨r', hr', hrk'⟩ := sent_set running hq' hk'
    exact h.apart j j' r r' k' hr hr' hrk hrk'
  · rcases process_set hq with ⟨rfl, rfl⟩ | ⟨-, hq⟩
    · exact .inr ⟨worker, rfl⟩
    · exact h.code j q hq
  · rcases process_set hq with ⟨rfl, rfl⟩ | ⟨-, hq⟩
    · cases hop
    · exact h.asked j q hq hsent op k' hop
  · rcases hjoined hw with ⟨rfl, rfl⟩ | ⟨-, hw⟩
    · exact hid ▸ (horigin.drew k n hdrew).1
    · exact h.drawn j w hw
  · rcases hjoined hw with ⟨rfl, rfl⟩ | ⟨-, hother⟩ <;>
      rcases hjoined hw' with ⟨rfl, rfl⟩ | ⟨-, hother'⟩
    · rfl
    · exact absurd heq.symm (honly j' w' hother')
    · exact absurd heq (honly j w hother)
    · exact h.distinct j j' w w' hother hother' heq
  · rcases hjoined hw with ⟨rfl, rfl⟩ | ⟨-, hw⟩
    · rcases hrow with ⟨r, hr, hsame⟩ | ⟨t, e, hmem, hdel⟩
      · refine .inl ⟨r, hr, hsame.id.symm.trans hid, ?_, ?_, hsame.role.symm.trans hn.role⟩
        · rw [← hsame.name, hn.name, hhostname]
          rfl
        · rw [← hsame.address, hn.address, hargs]
          rfl
      · exact .inr ⟨e, hlife.recorded t e hmem, hid ▸ hdel⟩
    · exact h.row j w hw

/-- A process is started. -/
theorem JoinInv.spawn (h : JoinInv sha256 events s) (i : Nat) (args : WorkerArgs) :
    JoinInv sha256 events (s.setProcess i ⟨args, startWorker D sha256 args, .unsent⟩) := by
  have hjoined : ∀ {j w}, Joined (s.setProcess i ⟨args, startWorker D sha256 args, .unsent⟩) j w →
      Joined s j w := joined_set fun _ hw => by cases hw
  have hsent : ∀ {j q k}, (s.setProcess i ⟨args, startWorker D sha256 args, .unsent⟩).process j = some q →
      q.rpc = .sent k → s.process j = some q := by
    intro j q k hq hk
    rcases process_set hq with ⟨-, rfl⟩ | ⟨-, hq⟩
    · cases hk
    · exact hq
  refine {
    ids := h.ids
    life := fun server threads hm => ?_
    idle := fun hm j q k hq hk => h.idle hm j q k (hsent hq hk) hk
    apart := fun j j' q q' k hq hq' hk hk' => h.apart j j' q q' k (hsent hq hk) (hsent hq' hk') hk hk'
    code := fun j q hq => ?_
    asked := fun j q hq hne op k hop => ?_
    drawn := fun j w hw => h.drawn j w (hjoined hw)
    distinct := fun j j' w w' hw hw' => h.distinct j j' w w' (hjoined hw) (hjoined hw')
    row := fun j w hw => h.row j w (hjoined hw) }
  · obtain ⟨s₀, l, hlife⟩ := h.life server threads hm
    refine ⟨s₀, l, hlife.ids, hlife.run, hlife.recorded,
      fun j q k hq hk => hlife.serves j q k (hsent hq hk) hk, fun j q w hq hw hk => ?_⟩
    rcases process_set hq with ⟨-, rfl⟩ | ⟨-, hq⟩
    · cases hw
    · exact hlife.earlier j q w hq hw hk
  · rcases process_set hq with ⟨-, rfl⟩ | ⟨-, hq⟩
    · exact .inl (startWorker_asks args)
    · exact h.code j q hq
  · rcases process_set hq with ⟨-, rfl⟩ | ⟨-, hq⟩
    · exact absurd rfl hne
    · exact h.asked j q hq hne op k hop

/-- The master is gone, and with it every call that it had not answered. -/
theorem JoinInv.crash (h : JoinInv sha256 events s) : JoinInv sha256 events { s with
    master := none
    process := fun i => (s.process i).map fun p => { p with rpc := p.rpc.cutOff } } := by
  have hold : ∀ {i q}, (s.process i).map (fun p => { p with rpc := p.rpc.cutOff }) = some q →
      ∃ p, s.process i = some p ∧ q = { p with rpc := p.rpc.cutOff } := by
    intro i q hq
    obtain ⟨p, hp, rfl⟩ := Option.map_eq_some_iff.mp hq
    exact ⟨p, hp, rfl⟩
  have hcut : ∀ (rpc : Rpc) k, rpc.cutOff ≠ .sent k := by
    intro rpc k hk
    cases rpc <;> cases hk
  have hjoined : ∀ {i w}, Joined { s with
      master := none
      process := fun i => (s.process i).map fun p => { p with rpc := p.rpc.cutOff } } i w →
      Joined s i w := by
    rintro i w ⟨q, hq, hcode⟩
    obtain ⟨p, hp, rfl⟩ := hold hq
    exact ⟨p, hp, hcode⟩
  refine {
    ids := h.ids
    life := fun server threads hm => by cases hm
    idle := fun _ i q k hq hk => ?_
    apart := fun i j q q' k hq hq' hk hk' => ?_
    code := fun i q hq => ?_
    asked := fun i q hq hne op k hop => ?_
    drawn := fun i w hw => h.drawn i w (hjoined hw)
    distinct := fun i j w w' hw hw' => h.distinct i j w w' (hjoined hw) (hjoined hw')
    row := fun i w hw => h.row i w (hjoined hw) }
  · obtain ⟨p, -, rfl⟩ := hold hq
    exact hcut _ k hk
  · obtain ⟨p, -, rfl⟩ := hold hq
    exact absurd hk (hcut _ k)
  · obtain ⟨p, hp, rfl⟩ := hold hq
    exact h.code i p hp
  · obtain ⟨p, hp, rfl⟩ := hold hq
    exact h.asked i p hp (fun hunsent => hne (congrArg Rpc.cutOff hunsent)) op k hop

/-- The master is started, over what the one before it left. -/
theorem JoinInv.boot (h : JoinInv sha256 events s) (down : s.master = none) {store : Shared D}
    (hboot : Booted s.store store) (server : Option ClusterServer) : JoinInv sha256 events { s with
      store
      master := server.map fun server => (server, fun _ => none) } := by
  have hids : ∀ r ∈ store.nodes.rows, r.id ∈ store.drawn := fun r hr =>
    (hboot.ids r hr).elim (fun hr => hboot.drawn _ (h.ids r hr)) id
  refine {
    ids := hids
    life := fun server' threads hm => ?_
    idle := fun _ => h.idle down
    apart := h.apart
    code := h.code
    asked := h.asked
    drawn := fun i w hw => hboot.drawn _ (h.drawn i w hw)
    distinct := h.distinct
    row := fun i w hw => (h.row i w hw).imp_left fun hrow => ?_ }
  · cases server with
    | none => cases hm
    | some server =>
      cases hm
      exact ⟨store, [], hids, .nil, fun _ _ hf => absurd hf List.not_mem_nil,
        fun i p k hp hk => absurd hk (h.idle down i p k hp),
        fun i p w hp hw _ => hboot.drawn _ (h.drawn i w ⟨p, hp, hw⟩)⟩
  · obtain ⟨r, hr, hrow⟩ := hrow
    exact ⟨r, hboot.rows r hr, hrow⟩

/-- Each step keeps the invariant. -/
theorem InstallationStep.keeps {es : List (MasterEvent D)} (huuid : UuidText D.uuid)
    (h : JoinInv sha256 events s) (hstep : InstallationStep D sha256 s es s') :
    JoinInv sha256 (es ++ events) s' := by
  cases hstep with
  | boot down moves => exact h.boot down (startMaster_boots moves) _
  | crash => exact h.crash
  | master serving step => exact h.master_step serving step
  | @spawn i free args => exact h.spawn i args
  | @own i p op k running at_call own ans =>
    have hunsent : p.rpc = .unsent := by
      by_contra hne
      obtain ⟨req, hreq⟩ := h.asked i p running hne op k at_call
      exact own req hreq
    refine h.goes_on running ?_ (.inl hunsent)
    cases h.asks running at_call with
    | before _ next => exact next ans
    | asking => exact absurd rfl (own _)
  | @ask i k p req cont server threads pool running at_call unsent serving step =>
    obtain ⟨s₀, l, hlife⟩ := h.life server threads serving
    have hafter : JoinInv sha256 (.arrive k (.register req) :: events) (s.setPool server pool) :=
      h.master_step serving step
    cases step with
    | arrive free =>
      refine hafter.sent running at_call rfl (Function.update_self ..) fun j q hq hk => ?_
      -- a thread that serves is not free
      obtain ⟨req', left, hthread, -⟩ := (hlife.serves j q k hq hk).busy
      cases free.symm.trans hthread
  | @answered i k p req cont server threads reply ans running at_call sent serving done answer =>
    obtain ⟨hostname, resources, rfl, hcont⟩ := (h.asks running at_call).register
    cases hjoined : joined D sha256 p.args hostname ans with
    | error e =>
      have hend : cont ans = .ret (.error e) := (hcont ans).trans (congrArg Prog.ret hjoined)
      exact h.goes_on running (hend ▸ .failed e) (.inr ⟨e, hend⟩)
    | ok worker =>
      have hend : cont ans = .ret (.ok worker) := (hcont ans).trans (congrArg Prog.ret hjoined)
      obtain ⟨nodeId, message, rfl, -⟩ := joined_eq_ok hjoined
      have hreply : reply = .register ⟨nodeId, true, message⟩ := by
        cases reply <;> cases answer
        rfl
      subst hreply
      rw [hend]
      exact h.joins huuid running at_call sent serving done hend
  | @failed i p req cont running at_call e =>
    obtain ⟨hostname, resources, rfl, hcont⟩ := (h.asks running at_call).register
    have hend : cont (.error e) = .ret (.error e) := hcont _
    exact h.goes_on running (hend ▸ .failed e) (.inr ⟨e, hend⟩)

/-- Before the first start there is no process. -/
theorem JoinInv.initial {store : Shared D} (h₀ : ∀ r ∈ store.nodes.rows, r.id ∈ store.drawn) :
    JoinInv sha256 [] (.initial store) := by
  have hnone : ∀ {i p}, (Installation.initial store).process i ≠ some p := fun hp => by cases hp
  have hjoined : ∀ {i w}, ¬ Joined (Installation.initial store) i w := by
    rintro i w ⟨p, hp, -⟩
    exact hnone hp
  exact {
    ids := h₀
    life := fun _ _ hm => by cases hm
    idle := fun _ _ _ _ hp => absurd hp hnone
    apart := fun _ _ _ _ _ hp => absurd hp hnone
    code := fun _ _ hp => absurd hp hnone
    asked := fun _ _ hp => absurd hp hnone
    drawn := fun _ _ hw => absurd hw hjoined
    distinct := fun _ _ _ _ hw => absurd hw hjoined
    row := fun _ _ hw => absurd hw hjoined }

theorem InstallationRun.joinInv (huuid : UuidText D.uuid) {store : Shared D}
    (h₀ : ∀ r ∈ store.nodes.rows, r.id ∈ store.drawn)
    (hrun : InstallationRun D sha256 (.initial store) events s) : JoinInv sha256 events s := by
  induction hrun with
  | nil => exact .initial h₀
  | cons _ hstep ih => exact hstep.keeps huuid ih

/-- In any run of an installation, whatever is lost and whenever the master
dies: no two workers have one id; the row of a worker is there with its own name
and address unless it was deleted; of two workers of one hostname the row of one
was deleted; and a worker that the present master has admitted checks tokens
against the same hash as that master. -/
theorem workers_apart (huuid : UuidText D.uuid) {store : Shared D}
    (h₀ : ∀ r ∈ store.nodes.rows, r.id ∈ store.drawn)
    (hrun : InstallationRun D sha256 (.initial store) events s) :
    (∀ i j w w', Joined s i w → Joined s j w' → w.nodeId = w'.nodeId → i = j) ∧
    (∀ i w, Joined s i w → HasRow s.store w ∨ Gone w.nodeId events) ∧
    (∀ i j w w', Joined s i w → Joined s j w' → w.hostname = w'.hostname →
      i = j ∨ Gone w.nodeId events ∨ Gone w'.nodeId events) ∧
    ∀ i p k w server threads, s.process i = some p → p.code = .ret (.ok w) → p.rpc = .sent k →
      s.master = some (server, threads) → w.server = server := by
  have hinv := hrun.joinInv huuid h₀
  refine ⟨hinv.distinct, hinv.row, fun i j w w' hw hw' hname => ?_,
    fun i p k w server threads hp hcode hsent hm => ?_⟩
  · rcases hinv.row i w hw with ⟨r, hr, hid, hrname, -⟩ | hgone
    · rcases hinv.row j w' hw' with ⟨r', hr', hid', hrname', -⟩ | hgone'
      · -- the names of the table are apart
        have hsame : r = r' := List.inj_on_of_nodup_map s.store.nodes.names hr hr'
          (hrname.trans (hname.trans hrname'.symm))
        exact .inl (hinv.distinct i j w w' hw hw' (hid.symm.trans ((congrArg Node.id hsame).trans hid')))
      · exact .inr (.inr hgone')
    · exact .inr (.inl hgone)
  · obtain ⟨s₀, l, hlife⟩ := hinv.life server threads hm
    exact ((hlife.serves i p k hp hsent).joined w hcode).2

section Join

/-- What the worker is started with. -/
def firstArgs : WorkerArgs := ⟨"10.0.0.1:6444", tokenOf 0, "10.0.0.2:6444"⟩

/-- The worker once it has joined. -/
def firstWorker : Worker := ⟨firstArgs, "w1", ⟨2⟩, firstServer⟩

/-- What the registration stored. -/
def admitted : Shared .plain :=
  { started with
    nodes := ⟨[masterNode, worker], by simp [masterNode, worker], by simp [masterNode, worker]⟩
    drawn := [⟨2⟩, ⟨1⟩] }

/-- The request of the worker. -/
def firstRequest : Request :=
  .register (registerRequest firstArgs "w1" Domain.plain.zeroResources)

/-- What the master did for it. -/
def firstJoin : List (MasterEvent .plain) := [
  .call 0 firstRequest (.store (.insertNode worker)) (.ok ()),
  .call 0 firstRequest (.newNode "w1" "10.0.0.2:6444" .worker Domain.plain.zeroResources) worker,
  .call 0 firstRequest (.store (.getNodeByName "w1")) (.ok none),
  .arrive 0 firstRequest]

theorem firstWorker_joins : ∃ s, InstallationRun .plain digests (.initial initialized) firstJoin s ∧
    s.store = admitted ∧ s.master = none ∧ Joined s 0 firstWorker := by
  have hfresh : (⟨1⟩ : Uuid) ∉ initialized.drawn := List.not_mem_nil
  have hself : (StoreCall.insertNode masterNode).run { initialized with drawn := [⟨1⟩] } =
      (.ok (), started) := rfl
  have hload : (StoreCall.getClusterConfig "join_token_hash").run started =
      (.ok (some firstServer.tokenHash), started) := rfl
  have hboot : (startMaster .plain digests "m1" "10.0.0.1:6444" Domain.plain.zeroResources).Moves
      Answered initialized _ (.ret (.ok firstServer)) started :=
    .call (.newNode hfresh 0 0) (.call (.store hself) (.call (.store hload) (.refl _ _)))
  have hfind : (StoreCall.getNodeByName "w1").run started = (.ok none, started) := rfl
  have hfresh' : (⟨2⟩ : Uuid) ∉ started.drawn := by simp [started]
  have hinsert : (StoreCall.insertNode worker).run { started with drawn := [⟨2⟩, ⟨1⟩] } =
      (.ok (), admitted) := rfl
  have hname : ∀ req, WorkerOp.hostname ≠ .register req := fun _ h => by cases h
  have hmeasure : ∀ req, WorkerOp.collectResources ≠ .register req := fun _ h => by cases h
  have hconnect : ∀ req, WorkerOp.connect "http://10.0.0.1:6444" ≠ .register req :=
    fun _ h => by cases h
  have hanswer : (accepted .plain worker).toWorker =
      some (.ok ⟨Uuid.hyphenated ⟨2⟩, true, "registered"⟩) := rfl
  have hstart := InstallationStep.boot (s := Installation.initial initialized) rfl hboot
  have hserves : InstallationRun .plain digests (.initial initialized) []
      ⟨started, some (firstServer, fun _ => none), fun _ => none⟩ := .cons .nil hstart
  have hrun := hserves
    |>.cons (.spawn (i := 0) rfl firstArgs)
    |>.cons (.own (i := 0) rfl rfl hname (Except.ok "w1" : Except String String))
    |>.cons (.own (i := 0) rfl rfl hmeasure Domain.plain.zeroResources)
    |>.cons (.own (i := 0) rfl rfl hconnect (Except.ok () : Except String Unit))
    |>.cons (.ask (i := 0) (k := 0) rfl rfl rfl rfl (.arrive rfl trivial))
    |>.cons (.master rfl (.call (k := 0) rfl (.store hfind)))
    |>.cons (.master rfl (.call (k := 0) rfl (.newNode hfresh' 0 0)))
    |>.cons (.master rfl (.call (k := 0) rfl (.store hinsert)))
    |>.cons (.answered (i := 0) rfl rfl rfl rfl rfl hanswer)
    |>.cons .crash
  exact ⟨_, hrun, rfl, rfl, _, rfl, rfl⟩

theorem workers_apart_crash : ∃ (events : List (MasterEvent .plain)) (s : Installation .plain),
    InstallationRun .plain digests (.initial initialized) events s ∧ s.master = none ∧
    Joined s 0 firstWorker ∧ (HasRow s.store firstWorker ∨ Gone firstWorker.nodeId events) := by
  obtain ⟨s, hrun, -, hdown, hjoined⟩ := firstWorker_joins
  exact ⟨_, s, hrun, hdown, hjoined,
    (workers_apart Domain.plain_uuid (fun _ h => by cases h) hrun).2.1 0 firstWorker hjoined⟩

end Join

end Nexad.Cluster
