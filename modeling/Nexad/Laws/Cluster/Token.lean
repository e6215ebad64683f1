import Nexad.Laws.Cluster.System

/-!
# The join token and its hash

The hash that the HTTP handlers rewrite is a row of `cluster_config`; the hash
that `register` compares with is the one the server was started with. The two
agree on every token exactly as long as no handler has stored another hash
(`tokenAgreement_iff`): the first rotation ends the agreement.
-/

namespace Nexad.Cluster

open Interleave

variable {D : Domain} {sha256 : List UInt8 → List UInt8}

/-- A registration passes the token check. -/
def Passes (D : Domain) (sha256 : List UInt8 → List UInt8) (server : ClusterServer)
    (req : RegisterRequest) : Prop :=
  server.register D sha256 req ≠ .ret (refused "invalid join token")

theorem passes_iff (server : ClusterServer) (req : RegisterRequest) :
    Passes D sha256 server req ↔ hashToken sha256 req.token = server.tokenHash := by
  unfold Passes ClusterServer.register ClusterServer.verifyToken hashToken
  by_cases h : hexEncode (sha256 (utf8 req.token)) = server.tokenHash
  · simp [h, ask]
  · simp [h]

/-- The server accepts exactly the tokens whose hash is stored. -/
def TokenAgreement (sha256 : List UInt8 → List UInt8) (server : ClusterServer) (s : Shared D) :
    Prop :=
  ∀ req : RegisterRequest, Passes D sha256 server req ↔
    s.config "join_token_hash" = some (hashToken sha256 req.token)

theorem tokenAgreement_of_stored {server : ClusterServer} {s : Shared D}
    (h : s.config "join_token_hash" = some server.tokenHash) : TokenAgreement sha256 server s := by
  intro req
  rw [passes_iff, h, Option.some.injEq]
  exact eq_comm

/-- What a write of the configuration leaves behind. -/
theorem config_of_set {s s' : Shared D} {key value : String} {ans : Except NexaError Unit}
    (h : (StoreCall.setClusterConfig key value).run s = (ans, s')) : s'.config key = some value := by
  cases h
  exact Function.update_self ..

/-- Only hashes of tokens are stored as the hash. -/
theorem Makes.hash_of_token {req : Request} {key value : String}
    (h : Makes (D := D) sha256 req (.store (.setClusterConfig key value)))
    (hkey : key = "join_token_hash") : ∃ token, value = hashToken sha256 token := by
  cases h with
  | issueHash _ token => exact ⟨token, rfl⟩
  | issueToken => exact absurd hkey (by decide)

/-- A master that has started has the hash it compares with in its store. -/
theorem startMaster_stored {hostname address : String} {resources : NodeResources}
    {s₀ s₁ : Shared D} {server : ClusterServer}
    (h : Prog.Exec Answered (startMaster D sha256 hostname address resources) s₀ (.ok server) s₁) :
    s₁.config "join_token_hash" = some server.tokenHash := by
  unfold startMaster at h
  cases h with
  | call _ h =>
  cases h with
  | call _ h =>
  cases h with
  | @call _ _ _ s _ loaded _ answered h =>
  match loaded with
  | .error e => cases h
  | .ok (some hash) =>
    cases h
    cases answered with
    | store run =>
      obtain ⟨hfound, rfl⟩ := Prod.mk.inj run
      exact Except.ok.inj hfound
  | .ok none =>
    cases h with
    | call _ h =>
    cases h with
    | @call _ _ _ s _ stored _ answered h =>
    match stored with
    | .error e => cases h
    | .ok () =>
      cases h
      cases answered with
      | store run => exact config_of_set run

section Run

variable {server : ClusterServer} {arrives : Request → Prop} {s₀ : Shared D}
  {l : MasterHistory D} {p : MasterPool D}

/-- The event stores a hash, if at all this one. -/
def StoresHash (hash : String) (e : Event (clusterSig D) Request) : Prop :=
  ∀ k req value, e = .call k req (.store (.setClusterConfig "join_token_hash" value)) (.ok ()) →
    value = hash

/-- What the run stored is what it started with. -/
theorem stored_of_storesHash (h₀ : s₀.config "join_token_hash" = some server.tokenHash)
    (h : Run (master D sha256 server arrives) (.idle s₀) l p)
    (hstores : ∀ s e, (s, e) ∈ l → StoresHash server.tokenHash e) {s : Shared D}
    (hs : Run.Visited l p s) : s.config "join_token_hash" = some server.tokenHash := by
  refine Run.visited (I := fun s => s.config "join_token_hash" = some server.tokenHash) h₀
    (fun q e q' hstep hstore hbefore => ?_) h hstores hs
  rcases Step.config hstep "join_token_hash" with hsame | hwritten
  · exact hsame.trans hbefore
  · obtain ⟨k, req, value, heq, hvalue⟩ := hwritten
    rw [hvalue, hstore k req value heq]

/-- A hash that the run stored is in a state that the run has been in. -/
theorem visited_of_store (h : Run (master D sha256 server arrives) (.idle s₀) l p) {s : Shared D}
    {k : Nat} {req : Request} {key value : String}
    (hmem : (s, Event.call k req (Op.store (.setClusterConfig key value))
      (.ok () : Except NexaError Unit)) ∈ l) :
    ∃ s', Run.Visited l p s' ∧ s'.config key = some value := by
  obtain ⟨q, q', -, hstep, hvisited⟩ := h.visited_after hmem
  refine ⟨q'.state, hvisited, ?_⟩
  cases hstep with
  | call _ answered =>
    cases answered with
    | store run => exact config_of_set run

/-- Once a master has started, its server and its store agree on every token
in every state of a run exactly when the run stores no other hash. -/
theorem tokenAgreement_iff {hostname address : String} {resources : NodeResources}
    {s : Shared D}
    (hstart : Prog.Exec Answered (startMaster D sha256 hostname address resources) s
      (.ok server) s₀)
    (hrun : Run (master D sha256 server arrives) (.idle s₀) l p) :
    (∀ s', Run.Visited l p s' → TokenAgreement sha256 server s') ↔
      ∀ s' e, (s', e) ∈ l → StoresHash server.tokenHash e := by
  constructor
  · intro hagree s' e hmem k req value heq
    subst heq
    obtain ⟨s'', hvisited, hvalue⟩ := visited_of_store hrun hmem
    -- the handlers store hashes of tokens only, and this token the server must accept
    obtain ⟨token, rfl⟩ := (Run.makes hrun hmem).2.hash_of_token rfl
    have haccepted := (hagree s'' hvisited ⟨"", "", token, none⟩).mpr hvalue
    exact (passes_iff server _).mp haccepted
  · intro hstores s' hvisited
    exact tokenAgreement_of_stored
      (stored_of_storesHash (startMaster_stored hstart) hrun hstores hvisited)

end Run

section Rotation

/-- A digest from its 256 bits. -/
def digestOf (bits : Nat) : List UInt8 :=
  (List.range 32).map fun i => UInt8.ofNat (bits >>> (8 * (31 - i)))

/-- The token whose 32 bytes are all the same. -/
def tokenOf (byte : UInt8) : String := generateToken (List.replicate 32 byte)

/-- SHA-256 on the two tokens of this section. -/
def digests (message : List UInt8) : List UInt8 :=
  if message = utf8 (tokenOf 0) then
    digestOf 0xc792511cc33f4c7a6c5dc02cb4fa3b31da2cd2015e681a619da0c6af3ce35412
  else if message = utf8 (tokenOf 1) then
    digestOf 0xfe13b772caf1a32e136161a59b8fcb5a1a115da1f5a17a65e2ac2212956c1abe
  else []

/-- A store with the hash of the first token. -/
def initialized : Shared .plain where
  nodes := .empty
  config := fun key => if key = "join_token_hash" then some (hashToken digests (tokenOf 0)) else none
  pods := []
  clock := 0
  drawn := []

/-- The server that starts over it. -/
def firstServer : ClusterServer := ⟨hashToken digests (tokenOf 0)⟩

/-- The row of the machine itself. -/
def masterNode : Node :=
  ⟨⟨1⟩, "m1", "10.0.0.1:6444", .master, .ready, Domain.plain.zeroResources, 0, 0⟩

/-- The store once the master has registered itself. -/
def started : Shared .plain :=
  { initialized with nodes := ⟨[masterNode], by simp, by simp⟩, drawn := [⟨1⟩] }

private theorem firstServer_starts :
    Prog.Exec Answered (startMaster .plain digests "m1" "10.0.0.1:6444" Domain.plain.zeroResources)
      initialized (.ok firstServer) started := by
  have hfresh : (⟨1⟩ : Uuid) ∉ initialized.drawn := List.not_mem_nil
  have hinsert : (StoreCall.insertNode masterNode).run { initialized with drawn := [⟨1⟩] } =
      (.ok (), started) := rfl
  have hload : (StoreCall.getClusterConfig "join_token_hash").run started =
      (.ok (some firstServer.tokenHash), started) := rfl
  exact .call (.newNode hfresh 0 0) (.call (.store hinsert) (.call (.store hload) (.ret _ _)))

/-- The master that `firstServer` serves for. -/
abbrev firstMaster : Machine (clusterSig .plain) (Shared .plain) Request Reply :=
  master .plain digests firstServer fun _ => True

private theorem firstMaster_idle : Run firstMaster (.idle started) [] (.idle started) := .nil

/-- The store once the first token has been stored anew. -/
def reissued : Shared .plain :=
  { started with
    config := Function.update started.config "join_token_hash" (hashToken digests (tokenOf 0)) }

/-- The same with the token itself, and the id of a second node drawn. -/
def shown : Shared .plain :=
  { reissued with
    config := Function.update reissued.config "join_token" (tokenOf 0)
    drawn := [⟨2⟩, ⟨1⟩] }

/-- The registration of a worker that has the token of this byte. -/
def joinWith (byte : UInt8) : RegisterRequest := ⟨"w1", "10.0.0.2:6444", tokenOf byte, none⟩

private theorem key_eq_of_call {k k' : Nat} {req req' : Request} {key key' value value' : String}
    {ans ans' : Except NexaError Unit}
    (h : (Event.call k req (Op.store (.setClusterConfig key value)) ans :
        Event (clusterSig .plain) Request) =
      .call k' req' (Op.store (.setClusterConfig key' value')) ans') : key = key' := by
  cases h
  rfl

/-- An initialization draws the token anew that the server knows, a rotation
fails at the store, a worker joins between their calls, and one that has the
other token does not. -/
theorem tokenAgreement_unrotated : ∃ l p, Run firstMaster (.idle started) l p ∧
    p.thread 0 = some (.clusterInit, .ret (.http 200 (some ("token", tokenOf 0)))) ∧
    p.thread 1 = some (.clusterTokenRotate, .ret (.http 500 (some ("error", "error")))) ∧
    p.thread 2 = some (.register (joinWith 0),
      .ret (.register ⟨Uuid.hyphenated ⟨2⟩, true, "registered"⟩)) ∧
    p.thread 3 = some (.register (joinWith 1), .ret (refused "invalid join token")) ∧
    ∀ s', Run.Visited l p s' → TokenAgreement digests firstServer s' := by
  have hzeros : (List.replicate 32 (0 : UInt8)).length = 32 := rfl
  have hones : (List.replicate 32 (1 : UInt8)).length = 32 := rfl
  have hfind : (StoreCall.getNodeByName "w1").run started = (.ok none, started) := rfl
  have hstore : (StoreCall.setClusterConfig "join_token_hash" (hashToken digests (tokenOf 0))).run
      started = (.ok (), reissued) := rfl
  have hfresh : (⟨2⟩ : Uuid) ∉ reissued.drawn := by decide
  have hshow : (StoreCall.setClusterConfig "join_token" (tokenOf 0)).run
      { reissued with drawn := [⟨2⟩, ⟨1⟩] } = (.ok (), shown) := rfl
  have hinsert : (StoreCall.insertNode worker).run shown =
      (.ok (), { shown with nodes := ⟨[masterNode, worker], by decide, by decide⟩ }) := rfl
  have hrun := firstMaster_idle.arrive 0 .clusterInit rfl trivial
    |>.arrive 1 .clusterTokenRotate rfl trivial
    |>.arrive 2 (.register (joinWith 0)) rfl trivial
    |>.arrive 3 (.register (joinWith 1)) rfl trivial
    |>.call 0 rfl (.fillBytes ⟨_, hzeros⟩) |>.call 1 rfl (.fillBytes ⟨_, hones⟩)
    |>.call 2 rfl (.store hfind)
    |>.call 0 rfl (.store hstore) |>.call 1 rfl (.fault _ (.runtime "database is locked"))
    |>.call 2 rfl (.newNode hfresh 0 0) |>.call 0 rfl (.store hshow)
    |>.call 2 rfl (.store hinsert)
  refine ⟨_, _, hrun, rfl, rfl, rfl, rfl,
    (tokenAgreement_iff firstServer_starts hrun).mpr ?_⟩
  intro s' e hmem k req value heq
  subst heq
  simp only [List.mem_cons, List.not_mem_nil, or_false, Prod.mk.injEq] at hmem
  rcases hmem with h | ⟨-, h⟩ | h | h | ⟨-, h⟩ | h
  · cases h.2
  · exact absurd (key_eq_of_call h) (by decide)
  · cases h.2
  · cases h.2
  · -- the initialization has stored the hash that the server knows
    cases h
    rfl
  · rcases h with h | h | h | h | h | h | h <;> cases h.2

/-- The store after the rotation to the second token. -/
def rotated : Shared .plain :=
  { started with
    config := Function.update started.config "join_token_hash" (hashToken digests (tokenOf 1)) }

/-- After a rotation the store has the hash of the new token; the server
refuses that token, and still takes the one before. -/
theorem rotated_token_refused : ∃ l p, Run firstMaster (.idle started) l p ∧
    p.state.config "join_token_hash" = some (hashToken digests (tokenOf 1)) ∧
    ¬ Passes .plain digests firstServer ⟨"w1", "10.0.0.2:6444", tokenOf 1, none⟩ ∧
    Passes .plain digests firstServer ⟨"w1", "10.0.0.2:6444", tokenOf 0, none⟩ ∧
    ¬ TokenAgreement digests firstServer p.state := by
  have hbytes : (List.replicate 32 (1 : UInt8)).length = 32 := rfl
  have hwrite : (StoreCall.setClusterConfig "join_token_hash" (hashToken digests (tokenOf 1))).run
      started = (.ok (), rotated) := rfl
  have hstored : rotated.config "join_token_hash" = some (hashToken digests (tokenOf 1)) := by
    simp [rotated]
  have hrun := firstMaster_idle.arrive 0 .clusterTokenRotate rfl trivial |>.call 0 rfl
    (.fillBytes ⟨_, hbytes⟩) |>.call 0 rfl (.store hwrite)
  have hrefused : ¬ Passes .plain digests firstServer ⟨"w1", "10.0.0.2:6444", tokenOf 1, none⟩ := by
    rw [passes_iff]
    decide
  exact ⟨_, _, hrun, hstored, hrefused, (passes_iff _ _).mpr rfl,
    fun hagree => hrefused ((hagree _).mpr hstored)⟩

end Rotation

end Nexad.Cluster
