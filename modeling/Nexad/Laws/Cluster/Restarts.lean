import Nexad.Laws.Cluster.Installation

/-!
# One token over all lives of the master

The hash in the store outlives every master: a start that finds one serves with
it (`startMaster_keeps`), and a start makes one only when there is none. So as
long as no handler stores another hash, there is one token for all lives
(`one_token`): who has joined has it, and who is refused for its token has not.
-/

namespace Nexad.Cluster

open Interleave

variable {D : Domain} {sha256 : List UInt8 → List UInt8} {s s' : Installation D}
  {events es : List (MasterEvent D)}

/-- A handler stores a hash. -/
def Rotates (e : MasterEvent D) : Prop :=
  ∃ k req value, e = .call k req (.store (.setClusterConfig "join_token_hash" value)) (.ok ())

/-- What leaves the configuration alone. -/
theorem Answered.config_of_ne {s s' : Shared D} {op : Op D} {ans : op.Ans D} (h : Answered s op ans s')
    (hop : ∀ key value, op ≠ .store (.setClusterConfig key value)) (key : String) :
    s'.config key = s.config key := by
  rcases h.config key with hsame | ⟨value, heq, -⟩
  · exact hsame
  · cases heq
    exact absurd rfl (hop key value)

/-- However far a start comes, a hash that is stored stays. -/
theorem startMaster_keeps {hostname address hash : String} {resources : NodeResources} {s s' : Shared D}
    {calls : List (ClusterCall D)} {left : Prog (clusterSig D) (Except NexaError ClusterServer)}
    (h : (startMaster D sha256 hostname address resources).Moves Answered s calls left s')
    (hstored : s.config "join_token_hash" = some hash) : s'.config "join_token_hash" = some hash := by
  unfold startMaster ask at h
  cases h with
  | refl => exact hstored
  | call drew h =>
    have hdrew := drew.config_of_ne (fun _ _ h => by cases h) "join_token_hash"
    cases h with
    | refl => exact hdrew.trans hstored
    | call inserted h =>
      have hinserted := inserted.config_of_ne (fun _ _ h => by cases h) "join_token_hash"
      cases h with
      | refl => exact hinserted.trans (hdrew.trans hstored)
      | @call _ _ _ _ s₃ _ found _ loaded h =>
        have hloaded := loaded.config_of_ne (fun _ _ h => by cases h) "join_token_hash"
        have hkept := hloaded.trans (hinserted.trans (hdrew.trans hstored))
        match found with
        | .error e =>
          cases h
          exact hkept
        | .ok (some other) =>
          cases h
          exact hkept
        | .ok none =>
          -- the hash is there, so it is found
          cases loaded with
          | store run =>
            obtain ⟨hnone, rfl⟩ := Prod.mk.inj run
            cases hkept.symm.trans (Except.ok.inj hnone)

/-- A hash that is stored stays, unless a handler stores another. -/
theorem InstallationStep.keeps_hash (hstep : InstallationStep D sha256 s es s')
    (unrotated : ∀ e ∈ es, ¬ Rotates e) {hash : String}
    (hstored : s.store.config "join_token_hash" = some hash) :
    s'.store.config "join_token_hash" = some hash := by
  have hmaster : ∀ {server threads e pool}, e ∈ es →
      Step (installed D sha256 server) ⟨s.store, threads⟩ e pool →
      pool.state.config "join_token_hash" = some hash := by
    intro server threads e pool he step
    rcases Step.config step "join_token_hash" with hsame | ⟨k, req, value, heq, -⟩
    · exact hsame.trans hstored
    · exact absurd ⟨k, req, value, heq⟩ (unrotated e he)
  cases hstep with
  | boot _ moves => exact startMaster_keeps moves hstored
  | crash => exact hstored
  | master _ step => exact hmaster List.mem_cons_self step
  | spawn => exact hstored
  | own => exact hstored
  | ask _ _ _ _ step => exact hmaster List.mem_cons_self step
  | answered => exact hstored
  | failed => exact hstored

/-- The master serves with the hash that is stored, unless a handler stores another. -/
theorem InstallationStep.keeps_server (hstep : InstallationStep D sha256 s es s')
    (unrotated : ∀ e ∈ es, ¬ Rotates e)
    (h : ∀ server threads, s.master = some (server, threads) →
      s.store.config "join_token_hash" = some server.tokenHash) (server : ClusterServer)
    (threads : Threads D) (hm : s'.master = some (server, threads)) :
    s'.store.config "join_token_hash" = some server.tokenHash := by
  have hkept : ∀ {threads}, s.master = some (server, threads) →
      s'.store.config "join_token_hash" = some server.tokenHash :=
    fun hm => hstep.keeps_hash unrotated (h server _ hm)
  cases hstep with
  | @boot _ _ _ _ _ left _ moves =>
    match left with
    | .ret (.ok _) =>
      cases hm
      exact startMaster_stored moves.exec
    | .ret (.error _) => cases hm
    | .call _ _ => cases hm
  | crash => cases hm
  | master serving =>
    cases hm
    exact hkept serving
  | spawn => exact hkept hm
  | own => exact hkept hm
  | ask _ _ _ serving =>
    cases hm
    exact hkept serving
  | answered => exact hkept hm
  | failed => exact hkept hm

/-- Who joins, joins the master that serves, with its token. -/
theorem InstallationStep.joins (hinv : JoinInv sha256 events s) (hstep : InstallationStep D sha256 s es s')
    {i : Nat} {w : Worker} (hw : Joined s' i w) : Joined s i w ∨
      ∃ threads, s.master = some (w.server, threads) ∧
        w.server.tokenHash = hashToken sha256 w.args.token := by
  cases hstep with
  | boot => exact .inl hw
  | crash =>
    obtain ⟨p', hp', hcode⟩ := hw
    obtain ⟨p, hp, rfl⟩ := Option.map_eq_some_iff.mp hp'
    exact .inl ⟨p, hp, hcode⟩
  | master => exact .inl hw
  | spawn => exact .inl (joined_set (fun _ hw => by cases hw) hw)
  | @own _ p op k running at_call own ans =>
    refine .inl (joined_set (fun w hw => ?_) hw)
    have hk : k ans = .ret (.ok w) := hw
    cases hinv.asks running at_call with
    | before _ next =>
      have hasks := next ans
      rw [hk] at hasks
      cases hasks
    | asking => exact own _ rfl
  | ask running at_call =>
    exact .inl (joined_set (fun w hw => by cases at_call.symm.trans hw) hw)
  | @answered j k p req cont server threads reply ans running at_call sent serving done answer =>
    obtain ⟨p', hp', hcode⟩ := hw
    rcases process_set hp' with ⟨rfl, rfl⟩ | ⟨-, hp'⟩
    · obtain ⟨hostname, resources, rfl, hcont⟩ := (hinv.asks running at_call).register
      obtain ⟨nodeId, message, rfl, -, hargs, -, hserver⟩ :=
        joined_eq_ok (Prog.ret.inj ((hcont ans).symm.trans hcode))
      have hreply : reply = .register ⟨nodeId, true, message⟩ := by
        cases reply <;> cases answer
        rfl
      subst hreply
      obtain ⟨s₀, l, hlife⟩ := hinv.life server threads serving
      have htoken := IsAccepted.token hlife.run ⟨message, done⟩
      have hsame : w.server = server := hserver.trans (congrArg ClusterServer.mk htoken)
      exact .inr ⟨threads, hsame ▸ serving, by rw [hserver, hargs]⟩
    · exact .inl ⟨p', hp', hcode⟩
  | @failed _ _ _ _ running at_call e =>
    refine .inl (joined_set (fun w hw => ?_) hw)
    obtain ⟨hostname, resources, rfl, hcont⟩ := (hinv.asks running at_call).register
    cases (hcont (.error e)).symm.trans hw

/-- One token for all lives. -/
structure OneToken (sha256 : List UInt8 → List UInt8) (s : Installation D) : Prop where
  server : ∀ server threads, s.master = some (server, threads) →
    s.store.config "join_token_hash" = some server.tokenHash
  joined : ∀ i w, Joined s i w → s.store.config "join_token_hash" = some w.server.tokenHash ∧
    w.server.tokenHash = hashToken sha256 w.args.token

theorem InstallationRun.oneToken (huuid : UuidText D.uuid) {store : Shared D}
    (h₀ : ∀ r ∈ store.nodes.rows, r.id ∈ store.drawn)
    (hrun : InstallationRun D sha256 (.initial store) events s)
    (unrotated : ∀ e ∈ events, ¬ Rotates e) : OneToken sha256 s := by
  induction hrun with
  | nil =>
    refine { server := fun server threads hm => ?_, joined := fun i w hw => ?_ }
    · cases hm
    · obtain ⟨p, hp, -⟩ := hw
      cases hp
  | @cons l es s s' hrun hstep ih =>
    have hquiet : ∀ e ∈ es, ¬ Rotates e := fun e he => unrotated e (List.mem_append_left _ he)
    obtain ⟨hserver, hjoined⟩ := ih fun e he => unrotated e (List.mem_append_right _ he)
    refine ⟨hstep.keeps_server hquiet hserver, fun i w hw => ?_⟩
    rcases hstep.joins (hrun.joinInv huuid h₀) hw with hw | ⟨threads, hm, htoken⟩
    · exact ⟨hstep.keeps_hash hquiet (hjoined i w hw).1, (hjoined i w hw).2⟩
    · exact ⟨hstep.keeps_hash hquiet (hserver _ _ hm), htoken⟩

theorem registered_ne_invalid (name : String) :
    s!"node '{name}' already registered" ≠ "invalid join token" := by
  intro h
  have hfirst := congrArg (fun t : String => t.toList.head?) h
  simp [toString, String.toList_append] at hfirst

/-- Who is refused for the token has not got it. -/
theorem register_refused {server : ClusterServer} {req : RegisterRequest} {calls : List (ClusterCall D)}
    (h : (server.register D sha256 req).Path calls (.ret (refused "invalid join token"))) :
    hashToken sha256 req.token ≠ server.tokenHash := by
  intro hpass
  have hadmit : ∀ {calls}, ¬ (admitNode D req).Path calls (.ret (refused "invalid join token")) := by
    intro calls h
    unfold admitNode ask at h
    cases h with
    | call node h =>
      cases h with
      | call inserted h =>
        match inserted with
        | .ok () => cases congrArg RegisterResponse.accepted (Reply.register.inj h.ret_eq)
        | .error e => cases h.ret_eq
  unfold ClusterServer.register at h
  rw [if_neg (by simpa [ClusterServer.verifyToken, hashToken] using hpass)] at h
  unfold ask at h
  cases h with
  | call found h =>
    match found with
    | .ok (some _) =>
      exact registered_ne_invalid req.nodeName
        (congrArg RegisterResponse.message (Reply.register.inj h.ret_eq))
    | .ok none => exact hadmit h
    | .error _ => exact hadmit h

/-- As long as no handler stores another hash, whatever is lost and however often
the master is started: every worker that has joined, in whatever life, has the
token whose hash is stored, and checks tokens as any master does that serves;
and a registration that a master refuses for its token has another token. -/
theorem one_token (huuid : UuidText D.uuid) {store : Shared D}
    (h₀ : ∀ r ∈ store.nodes.rows, r.id ∈ store.drawn)
    (hrun : InstallationRun D sha256 (.initial store) events s)
    (unrotated : ∀ e ∈ events, ¬ Rotates e) :
    (∀ i w, Joined s i w → s.store.config "join_token_hash" = some (hashToken sha256 w.args.token)) ∧
    (∀ i w server threads, Joined s i w → s.master = some (server, threads) → w.server = server) ∧
    ∀ server threads k req, s.master = some (server, threads) →
      threads k = some (.register req, .ret (refused "invalid join token")) →
      s.store.config "join_token_hash" ≠ some (hashToken sha256 req.token) := by
  have hone := hrun.oneToken huuid h₀ unrotated
  refine ⟨fun i w hw => ?_, fun i w server threads hw hm => ?_, fun server threads k req hm hk hhas => ?_⟩
  · obtain ⟨hstored, htoken⟩ := hone.joined i w hw
    rw [hstored, htoken]
  · have hsame : some w.server.tokenHash = some server.tokenHash :=
      (hone.joined i w hw).1.symm.trans (hone.server server threads hm)
    exact congrArg ClusterServer.mk (Option.some.inj hsame)
  · obtain ⟨s₀, l, hlife⟩ := (hrun.joinInv huuid h₀).life server threads hm
    have hrefused : hashToken sha256 req.token ≠ server.tokenHash := register_refused (hlife.run.path hk)
    exact hrefused (Option.some.inj (hhas.symm.trans (hone.server server threads hm)))

/-- The master is started again, and the first worker still has its token. -/
theorem one_token_restart : ∃ (s : Installation .plain) (threads : Threads .plain),
    InstallationRun .plain digests (.initial initialized) firstJoin s ∧
    s.master = some (firstServer, threads) ∧ Joined s 0 firstWorker ∧
    s.store.config "join_token_hash" = some (hashToken digests firstArgs.token) := by
  obtain ⟨s, hrun, hstore, hdown, hjoined⟩ := firstWorker_joins
  have hfresh : (⟨3⟩ : Uuid) ∉ admitted.drawn := by simp [admitted]
  have hload : (StoreCall.getClusterConfig "join_token_hash").run
      { admitted with drawn := [⟨3⟩, ⟨2⟩, ⟨1⟩] } =
      (.ok (some firstServer.tokenHash), { admitted with drawn := [⟨3⟩, ⟨2⟩, ⟨1⟩] }) := rfl
  -- the name of the machine is taken by its own row
  have hboot : (startMaster .plain digests "m1" "10.0.0.1:6444" Domain.plain.zeroResources).Moves
      Answered admitted _ (.ret (.ok firstServer)) { admitted with drawn := [⟨3⟩, ⟨2⟩, ⟨1⟩] } :=
    .call (.newNode hfresh 0 0) (.call (.store rfl) (.call (.store hload) (.refl _ _)))
  have hagain := hrun.cons (.boot hdown (hstore ▸ hboot))
  have hunrotated : ∀ e ∈ firstJoin, ¬ Rotates e := by
    rintro e he ⟨k, req, value, rfl⟩
    simp only [firstJoin, List.mem_cons, List.not_mem_nil, or_false] at he
    rcases he with heq | heq | heq | heq <;> cases heq
  exact ⟨_, _, hagain, rfl, hjoined,
    (one_token Domain.plain_uuid (fun _ h => by cases h) hagain hunrotated).1 0 firstWorker hjoined⟩

end Nexad.Cluster
