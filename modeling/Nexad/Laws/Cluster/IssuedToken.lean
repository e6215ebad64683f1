import Nexad.Laws.Cluster.Registration
import Nexad.Laws.Cluster.Token

/-!
# The token that is shown

Making a token takes two statements, the hash first and the token after it,
and nothing ties them together: another request may write in between, and the
second may fail without anyone hearing of it. What `cluster_token_show`
answers has the stored hash when one request stored both last, and, unless
tokens collide, only then (`shown_token_matches`).
-/

namespace Nexad.Cluster

open Interleave

variable {D : Domain} {sha256 : List UInt8 → List UInt8} {server : ClusterServer}

/-- `cluster_token_show` may answer with this token. -/
def Shows (s : Shared D) (token : String) : Prop :=
  ∃ s', Prog.Exec Answered (Api.clusterTokenShow D) s (.http 200 (some ("token", token))) s'

/-- Any token that is shown has the stored hash. -/
def ShownMatches (sha256 : List UInt8 → List UInt8) (s : Shared D) : Prop :=
  ∀ token, Shows s token → s.config "join_token_hash" = some (hashToken sha256 token)

theorem shows_token_iff {s : Shared D} {token : String} :
    Shows s token ↔ s.config "join_token" = some token := by
  unfold Shows Api.clusterTokenShow ask
  constructor
  · rintro ⟨s', h⟩
    cases h with
    | @call _ _ _ _ _ found _ answered h =>
    match found with
    | .error e => cases h
    | .ok none => cases h
    | .ok (some t) =>
      cases h
      cases answered with
      | store run => exact Except.ok.inj (Prod.mk.inj run).1
  · intro h
    have hread : (StoreCall.getClusterConfig "join_token").run s = (.ok (some token), s) := by
      rw [StoreCall.run, h]
    exact ⟨s, .call (.store hread) (.ret _ _)⟩

/-! ## Who wrote last -/

/-- The thread that an event stores for under a key, and what it stores. -/
def sets (key : String) : Event (clusterSig D) Request → Option (Nat × String)
  | .call k _ (.store (.setClusterConfig key' value)) (.ok ()) =>
    if key' = key then some (k, value) else none
  | _ => none

/-- The thread that stored last under a key, and what it stored. -/
def lastSet (key : String) (l : MasterHistory D) : Option (Nat × String) :=
  l.findSome? fun step => sets key step.2

theorem lastSet_cons (key : String) (s : Shared D) (e : Event (clusterSig D) Request)
    (l : MasterHistory D) : lastSet key ((s, e) :: l) = (sets key e).or (lastSet key l) := by
  rw [lastSet, List.findSome?_cons]
  cases sets key e <;> rfl

theorem sets_eq_some {key value : String} {k : Nat} {e : Event (clusterSig D) Request} :
    sets key e = some (k, value) ↔
      ∃ req, e = .call k req (.store (.setClusterConfig key value)) (.ok ()) := by
  constructor
  · intro h
    unfold sets at h
    split at h
    · split at h
      · next hkey =>
        subst hkey
        cases h
        exact ⟨_, rfl⟩
      · cases h
    · cases h
  · rintro ⟨req, rfl⟩
    exact if_pos rfl

/-- The thread has stored a value under a key. -/
def Stored (l : MasterHistory D) (k : Nat) (key value : String) : Prop :=
  ∃ s req, (s, .call k req (.store (.setClusterConfig key value)) (.ok ())) ∈ l

theorem stored_of_lastSet {key value : String} {k : Nat} {l : MasterHistory D}
    (h : lastSet key l = some (k, value)) : Stored l k key value := by
  obtain ⟨⟨s, e⟩, hmem, hsets⟩ := List.exists_of_findSome?_eq_some h
  obtain ⟨req, rfl⟩ := sets_eq_some.mp hsets
  exact ⟨s, req, hmem⟩

theorem lastSet_ne_none {key value : String} {k : Nat} {l : MasterHistory D}
    (h : Stored l k key value) : lastSet key l ≠ none := by
  obtain ⟨s, req, hmem⟩ := h
  intro hnone
  have hsets := List.findSome?_eq_none_iff.mp hnone _ hmem
  rw [sets_eq_some.mpr ⟨req, rfl⟩] at hsets
  cases hsets

section Run

variable {arrives : Request → Prop} {s₀ : Shared D} {l : MasterHistory D} {p : MasterPool D}

/-- What a step leaves under a key. -/
theorem Step.sets {p p' : MasterPool D} {e : Event (clusterSig D) Request}
    (h : Step (master D sha256 server arrives) p e p') (key : String) :
    p'.state.config key = ((sets key e).map Prod.snd).or (p.state.config key) := by
  cases hsets : Cluster.sets key e with
  | some written =>
    obtain ⟨k, value⟩ := written
    obtain ⟨req, rfl⟩ := sets_eq_some.mp hsets
    cases h with
    | call _ answered =>
      cases answered with
      | store run => exact config_of_set run
  | none =>
    rcases Step.config h key with hsame | hwritten
    · exact hsame
    · obtain ⟨k, req, value, rfl, -⟩ := hwritten
      rw [sets_eq_some.mpr ⟨req, rfl⟩] at hsets
      cases hsets

/-- Under a key is what was stored last, or what was there. -/
theorem config_eq_lastSet (hrun : Run (master D sha256 server arrives) (.idle s₀) l p)
    (key : String) :
    p.state.config key = ((lastSet key l).map Prod.snd).or (s₀.config key) := by
  induction hrun with
  | nil => rfl
  | @cons l q q' e _ hstep ih =>
    rw [Step.sets hstep, ih, lastSet_cons]
    cases sets key e <;> rfl

end Run

/-! ## What one request stores -/

/-- The call that stores a value under a key, and its answer. -/
abbrev setCall (key value : String) (ans : Except NexaError Unit) : ClusterCall D :=
  ⟨.store (.setClusterConfig key value), ans⟩

theorem setCall_inj {key key' value value' : String} {ans ans' : Except NexaError Unit}
    (h : (setCall key value ans : ClusterCall D) = setCall key' value' ans') :
    key = key' ∧ value = value' := by
  cases h
  exact ⟨rfl, rfl⟩

/-- A request stores a hash, and once that is done the token it is the hash of. -/
theorem issueToken_path {calls : List (ClusterCall D)} {q : Code D}
    (h : (Api.issueToken D sha256).Path calls q) :
    calls = [] ∨ ∃ bytes, calls = [⟨.fillBytes, bytes⟩] ∨
      ∃ token, (∃ ans, calls = [⟨.fillBytes, bytes⟩,
          setCall "join_token_hash" (hashToken sha256 token) ans]) ∨
        ∃ ans, calls = [⟨.fillBytes, bytes⟩,
          setCall "join_token_hash" (hashToken sha256 token) (.ok ()), setCall "join_token" token ans] := by
  unfold Api.issueToken ask at h
  cases h with
  | refl => exact .inl rfl
  | call bytes h =>
    refine .inr ⟨bytes, ?_⟩
    cases h with
    | refl => exact .inl rfl
    | call stored h =>
      refine .inr ⟨generateToken bytes.val, ?_⟩
      match stored with
      | .error e =>
        cases h
        exact .inl ⟨_, rfl⟩
      | .ok () =>
        cases h with
        | refl => exact .inl ⟨_, rfl⟩
        | call ans h =>
          cases h
          exact .inr ⟨ans, rfl⟩

/-- Of one request: the hash stored is that of the token stored, and a token
is stored only after its hash. -/
theorem issueToken_stores {calls : List (ClusterCall D)} {q : Code D}
    (h : (Api.issueToken D sha256).Path calls q) {token : String} {ans : Except NexaError Unit}
    (htoken : setCall "join_token" token ans ∈ calls) :
    setCall "join_token_hash" (hashToken sha256 token) (.ok ()) ∈ calls ∧
      ∀ value ans', setCall "join_token_hash" value ans' ∈ calls → value = hashToken sha256 token := by
  rcases issueToken_path h with rfl | ⟨bytes, rfl | ⟨token', ⟨ans₁, rfl⟩ | ⟨ans₂, rfl⟩⟩⟩
  · cases htoken
  · cases List.mem_singleton.mp htoken
  · rcases List.mem_cons.mp htoken with heq | hmem
    · cases heq
    · exact absurd (setCall_inj (List.mem_singleton.mp hmem)).1 (by decide)
  · have hsame : token = token' := by
      rcases List.mem_cons.mp htoken with heq | hmem
      · cases heq
      rcases List.mem_cons.mp hmem with heq | hmem
      · exact absurd (setCall_inj heq).1 (by decide)
      · exact (setCall_inj (List.mem_singleton.mp hmem)).2
    subst hsame
    refine ⟨List.mem_cons_of_mem _ List.mem_cons_self, fun value ans' hmem => ?_⟩
    rcases List.mem_cons.mp hmem with heq | hmem
    · cases heq
    rcases List.mem_cons.mp hmem with heq | hmem
    · exact (setCall_inj heq).2
    · exact absurd (setCall_inj (List.mem_singleton.mp hmem)).1 (by decide)

section Run

variable {arrives : Request → Prop} {s₀ : Shared D} {l : MasterHistory D} {p : MasterPool D}

/-- What a thread stored are calls of a request that issues a token. -/
theorem Stored.path (hrun : Run (master D sha256 server arrives) (.idle s₀) l p) {k : Nat}
    {key value : String} (h : Stored l k key value) :
    ∃ q, (Api.issueToken D sha256).Path (l.calls k) q := by
  obtain ⟨s, req, hmem⟩ := h
  obtain ⟨q, hk⟩ := Run.thread_of_call hrun hmem
  have hpath := hrun.path hk
  have hissues : req = .clusterInit ∨ req = .clusterTokenRotate := by
    cases (Run.makes hrun hmem).2 with
    | issueHash issues => exact issues
    | issueToken issues => exact issues
  rcases hissues with rfl | rfl
  · exact ⟨q, hpath⟩
  · exact ⟨q, hpath⟩

/-- A thread that stored a token stored its hash, and no other. -/
theorem Stored.hash (hrun : Run (master D sha256 server arrives) (.idle s₀) l p) {k : Nat}
    {token : String} (h : Stored l k "join_token" token) :
    Stored l k "join_token_hash" (hashToken sha256 token) ∧
      ∀ value, Stored l k "join_token_hash" value → value = hashToken sha256 token := by
  obtain ⟨q, hpath⟩ := h.path hrun
  obtain ⟨s, req, hmem⟩ := h
  obtain ⟨hhash, honly⟩ := issueToken_stores hpath (History.mem_calls.mpr ⟨s, req, hmem⟩)
  exact ⟨History.mem_calls.mp hhash, fun value ⟨s', req', hmem'⟩ =>
    honly value _ (History.mem_calls.mpr ⟨s', req', hmem'⟩)⟩

/-- One request stored both last, or no token was ever stored. -/
def SameRequest (s₀ : Shared D) (l : MasterHistory D) : Prop :=
  (lastSet "join_token" l).map Prod.fst = (lastSet "join_token_hash" l).map Prod.fst ∨
    lastSet "join_token" l = none ∧ s₀.config "join_token" = none

/-- No request stores the hash of a token that is not its own. -/
structure NoCollision (sha256 : List UInt8 → List UInt8) (s₀ : Shared D) (l : MasterHistory D) :
    Prop where
  between : ∀ j k token hash, j ≠ k → Stored l j "join_token" token →
    Stored l k "join_token_hash" hash → hash ≠ hashToken sha256 token
  initial : ∀ token k hash, s₀.config "join_token" = some token →
    Stored l k "join_token_hash" hash → hash ≠ hashToken sha256 token

/-- What one request stored last is shown with its hash. -/
theorem SameRequest.matches (h : SameRequest s₀ l) (h₀ : ShownMatches sha256 s₀)
    (hrun : Run (master D sha256 server arrives) (.idle s₀) l p) :
    ShownMatches sha256 p.state := by
  intro token hshows
  have htoken := (config_eq_lastSet hrun "join_token").symm.trans (shows_token_iff.mp hshows)
  rw [config_eq_lastSet hrun "join_token_hash"]
  cases hlast : lastSet "join_token" l with
  | none =>
    rw [hlast] at htoken
    rcases h with hsame | ⟨-, hnone⟩
    · rw [hlast] at hsame
      rw [Option.map_eq_none_iff.mp hsame.symm]
      exact h₀ token (shows_token_iff.mpr htoken)
    · cases hnone.symm.trans htoken
  | some last =>
    obtain ⟨k, t⟩ := last
    rw [hlast] at htoken
    cases htoken
    rcases h with hsame | ⟨hnone, -⟩
    · rw [hlast] at hsame
      obtain ⟨⟨j, hash⟩, hlastHash, hj⟩ := Option.map_eq_some_iff.mp hsame.symm
      cases hj
      obtain ⟨-, honly⟩ := (stored_of_lastSet hlast).hash hrun
      rw [hlastHash]
      exact congrArg some (honly hash (stored_of_lastSet hlastHash))
    · cases hlast.symm.trans hnone

/-- Without collisions nothing else is shown with its hash. -/
theorem NoCollision.sameRequest (h : NoCollision sha256 s₀ l)
    (hrun : Run (master D sha256 server arrives) (.idle s₀) l p)
    (hshown : ShownMatches sha256 p.state) : SameRequest s₀ l := by
  have htoken := config_eq_lastSet hrun "join_token"
  have hhash := config_eq_lastSet hrun "join_token_hash"
  cases hlast : lastSet "join_token" l with
  | none =>
    cases hfirst : s₀.config "join_token" with
    | none => exact .inr ⟨hlast, hfirst⟩
    | some token =>
      cases hlastHash : lastSet "join_token_hash" l with
      | none => exact .inl (by rw [hlast, hlastHash])
      | some last =>
        obtain ⟨k, hash⟩ := last
        rw [hlast, hfirst] at htoken
        rw [hlastHash] at hhash
        have heq := hhash.symm.trans (hshown token (shows_token_iff.mpr htoken))
        exact absurd (Option.some.inj heq) (h.initial token k hash hfirst (stored_of_lastSet hlastHash))
  | some last =>
    obtain ⟨j, token⟩ := last
    have hstored := stored_of_lastSet hlast
    cases hlastHash : lastSet "join_token_hash" l with
    | none => exact absurd hlastHash (lastSet_ne_none (hstored.hash hrun).1)
    | some last =>
      obtain ⟨k, hash⟩ := last
      rw [hlast] at htoken
      rw [hlastHash] at hhash
      have heq := hhash.symm.trans (hshown token (shows_token_iff.mpr htoken))
      by_cases hjk : j = k
      · exact .inl (by rw [hlast, hlastHash, hjk]; rfl)
      · exact absurd (Option.some.inj heq)
          (h.between j k token hash hjk hstored (stored_of_lastSet hlastHash))

/-- At any moment of any run, what may be shown has the stored hash when one
request stored both last; and when tokens do not collide, only then. -/
theorem shown_token_matches (h₀ : ShownMatches sha256 s₀)
    (hrun : Run (master D sha256 server arrives) (.idle s₀) l p) :
    (SameRequest s₀ l → ShownMatches sha256 p.state) ∧
      (NoCollision sha256 s₀ l → (ShownMatches sha256 p.state ↔ SameRequest s₀ l)) :=
  ⟨fun h => h.matches h₀ hrun, fun hfree =>
    ⟨fun hshown => hfree.sameRequest hrun hshown, fun h => h.matches h₀ hrun⟩⟩

end Run

section Faulty

/-- No request that issues a token is in progress. -/
def NoneIssuing (p : MasterPool D) : Prop :=
  ∀ k req q, p.thread k = some (req, q) → req = .clusterInit ∨ req = .clusterTokenRotate →
    ∃ reply, q = .ret reply

/-- The store after `cluster_init`, with its first token. -/
def issued : Shared .plain :=
  { started with config := Function.update started.config "join_token" (tokenOf 0) }

private theorem issued_matches : ShownMatches digests issued := by
  intro token hshows
  cases shows_token_iff.mp hshows
  rfl

/-- The bytes of the second token. -/
def secondBytes : { bytes : List UInt8 // bytes.length = 32 } := ⟨List.replicate 32 1, rfl⟩

/-- The store between the two statements of a rotation. -/
def hashStored : Shared .plain :=
  { issued with
    config := Function.update issued.config "join_token_hash" (hashToken digests (tokenOf 1)) }

/-- A rotation whose second statement answers as given, into the state given. -/
private theorem rotation {ans : Except NexaError Unit} {s : Shared .plain}
    (hanswered : Answered hashStored (.store (.setClusterConfig "join_token" (tokenOf 1))) ans s) :
    ∃ l p, Run firstMaster (.idle issued) l p ∧ NoneIssuing p ∧ p.state = s ∧
      p.thread 0 = some (.clusterTokenRotate, .ret (.http 200 (some ("token", tokenOf 1)))) ∧
      (ans = .ok () → SameRequest issued l) := by
  have hstart : Run firstMaster (.idle issued) [] (.idle issued) := .nil
  have hwrite : (StoreCall.setClusterConfig "join_token_hash" (hashToken digests (tokenOf 1))).run
      issued = (.ok (), hashStored) := rfl
  have hrun := hstart.arrive 0 .clusterTokenRotate rfl trivial |>.call 0 rfl
    (.fillBytes secondBytes) |>.call 0 rfl (.store hwrite) |>.call 0 rfl hanswered
  refine ⟨_, _, hrun, fun k req q hk _ => ?_, rfl, rfl, fun hok => .inl ?_⟩
  · by_cases hzero : k = 0
    · subst hzero
      cases hk
      exact ⟨_, rfl⟩
    · rw [Pool.set_thread_ne _ _ _ hzero, Pool.set_thread_ne _ _ _ hzero,
        Pool.set_thread_ne _ _ _ hzero, Pool.set_thread_ne _ _ _ hzero] at hk
      cases hk
  · subst hok
    simp [lastSet, sets]

theorem shown_token_matches_rotated : ∃ (l : MasterHistory .plain) (p : MasterPool .plain),
    Run firstMaster (.idle issued) l p ∧ NoneIssuing p ∧ Shows p.state (tokenOf 1) ∧
    ShownMatches digests p.state := by
  obtain ⟨l, p, hrun, hquiet, hstate, -, hsame⟩ := rotation (.store rfl)
  refine ⟨l, p, hrun, hquiet, shows_token_iff.mpr ?_,
    (shown_token_matches issued_matches hrun).1 (hsame rfl)⟩
  rw [hstate]
  exact Function.update_self "join_token" (some (tokenOf 1)) hashStored.config

/-- The second statement of a rotation fails, and no one hears of it: the first
token is still shown, beside the hash of the second. -/
theorem lost_token_shown : ∃ (l : MasterHistory .plain) (p : MasterPool .plain),
    ShownMatches digests issued ∧ Run firstMaster (.idle issued) l p ∧ NoneIssuing p ∧
    p.thread 0 = some (.clusterTokenRotate, .ret (.http 200 (some ("token", tokenOf 1)))) ∧
    Shows p.state (tokenOf 0) ∧
    p.state.config "join_token_hash" = some (hashToken digests (tokenOf 1)) ∧
    ¬ ShownMatches digests p.state := by
  obtain ⟨l, p, hrun, hquiet, hstate, hdone, -⟩ := rotation (.fault _ (.runtime "disk I/O error"))
  have hshown : Shows p.state (tokenOf 0) := by
    rw [shows_token_iff, hstate]
    rfl
  have hhash : p.state.config "join_token_hash" = some (hashToken digests (tokenOf 1)) := by
    rw [hstate]
    exact Function.update_self "join_token_hash" (some (hashToken digests (tokenOf 1))) issued.config
  refine ⟨l, p, issued_matches, hrun, hquiet, hdone, hshown, hhash, fun hmatches => ?_⟩
  have hother : hashToken digests (tokenOf 1) ≠ hashToken digests (tokenOf 0) := by decide
  exact hother (Option.some.inj (hhash.symm.trans (hmatches _ hshown)))

end Faulty

end Nexad.Cluster
