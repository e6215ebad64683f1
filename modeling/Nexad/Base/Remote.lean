import Mathlib.Logic.Function.Basic
import Nexad.Base.Interleave

/-!
# Requests to other machines

Programs that also send requests to servers, each a machine with a pool of its
own, and wait for the replies. A request that arrives becomes a thread of its
server, and the reply is what that thread has come to. The request, the word of
its arrival and the reply may all get lost, and a server goes on with a request
that nobody waits for any more.

What a server does in a run of the whole is a run of the server by itself, on
the requests that were sent to it and its own (`Run.at_server`), and a reply is
the answer to the request it was waited for with (`Run.replied`).
-/

namespace Interleave

variable {σ κ : Sig} {S T ι ρ α β γ τ : Type}

/-- A machine that is asked for other requests. -/
def Machine.asked (M : Machine κ T ρ α) (arrives : ρ → Prop) : Machine κ T ρ α :=
  { M with arrives := arrives }

theorem Step.asked {M : Machine κ T ρ α} {arrives : ρ → Prop} {p q : Pool κ T ρ α} {e : Event κ ρ}
    (h : Step M p e q) (hasked : ∀ req, M.arrives req → arrives req) : Step (M.asked arrives) p e q := by
  cases h with
  | arrive free arrived => exact .arrive free (hasked _ arrived)
  | call at_call answered => exact .call at_call answered
  | env moves => exact .env moves

/-- A thread stays at its end. -/
theorem Step.thread_ret {M : Machine κ T ρ α} {p q : Pool κ T ρ α} {e : Event κ ρ} (h : Step M p e q) {k : Nat}
    {req : ρ} {a : α} (hk : p.thread k = some (req, .ret a)) : q.thread k = some (req, .ret a) := by
  cases h with
  | @arrive j req' free _ =>
    have hj : k ≠ j := by
      rintro rfl
      rw [free] at hk
      cases hk
    exact (Pool.set_thread_ne _ _ _ hj).trans hk
  | @call j req' op cont ans s' at_call _ =>
    have hj : k ≠ j := by
      rintro rfl
      rw [at_call] at hk
      cases hk
    exact (Pool.set_thread_ne _ _ _ hj).trans hk
  | env => exact hk

/-- A thread keeps its request, and stays at its end. -/
theorem Run.thread {M : Machine κ T ρ α} {p q : Pool κ T ρ α} {l : History κ T ρ} (h : Run M p l q) {k : Nat}
    {req : ρ} {c : Prog κ α} (hk : p.thread k = some (req, c)) :
    (∃ c', q.thread k = some (req, c')) ∧ ∀ a, c = .ret a → q.thread k = some (req, .ret a) := by
  induction h with
  | nil => exact ⟨⟨c, hk⟩, fun a hret => hret ▸ hk⟩
  | cons _ hstep ih =>
    obtain ⟨⟨c', hc'⟩, hret⟩ := ih
    exact ⟨hstep.thread hc', fun a heq => hstep.thread_ret (hret a heq)⟩

/-- The operations of a program with servers: its own, and those on requests. -/
inductive NetOp (σ : Sig) (ι ρ : Type) where
  | own (op : σ.Op)
  | send (server : ι) (req : ρ)
  /-- The reply of this thread of the server. -/
  | await (server : ι) (thread : Nat)

/-- A request that has arrived is answered with its thread. -/
abbrev netSig (σ : Sig) (ι ρ γ : Type) : Sig where
  Op := NetOp σ ι ρ
  Ans
    | .own op => σ.Ans op
    | .send .. => Except String Nat
    | .await .. => Except String γ

/-- What the programs keep themselves, and the servers. -/
structure Net (S ι : Type) (κ : Sig) (T ρ α : Type) where
  here : S
  server : ι → Pool κ T ρ α

namespace Net

/-- One server has moved from one pool to another, and nothing else has. -/
structure Turned (i : ι) (q : Pool κ T ρ α) (s s' : Net S ι κ T ρ α) : Prop where
  here : s'.here = s.here
  server : s'.server i = q
  others : ∀ j, j ≠ i → s'.server j = s.server j

/-- A request has become a thread of a server. -/
structure Arrived (N : ι → Machine κ T ρ α) (i : ι) (req : ρ) (k : Nat) (s s' : Net S ι κ T ρ α) : Prop where
  free : (s.server i).thread k = none
  turned : Turned i ((s.server i).set (s.server i).state k (req, (N i).code req)) s s'

variable (N : ι → Machine κ T ρ α) (own : S → (op : σ.Op) → σ.Ans op → S → Prop) (told : γ → α)

/-- How the operations are answered, with `told` from what is sent back to what
the thread has come to. -/
def answer (s : Net S ι κ T ρ α) (op : NetOp σ ι ρ) : (netSig σ ι ρ γ).Ans op → Net S ι κ T ρ α → Prop :=
  match op with
  | .own op => fun (ans : σ.Ans op) s' => own s.here op ans s'.here ∧ s'.server = s.server
  | .send i req => fun (ans : Except String Nat) s' => match ans with
    | .ok k => Arrived N i req k s s'
    | .error _ => s' = s ∨ ∃ k, Arrived N i req k s s'
  | .await i k => fun (ans : Except String γ) s' =>
    s' = s ∧ ∀ c, ans = .ok c → ∃ req, (s.server i).thread k = some (req, .ret (told c))

/-- What happens by itself is a step of a server. -/
def env (s s' : Net S ι κ T ρ α) : Prop :=
  ∃ i e q, Step (N i) (s.server i) e q ∧ Turned i q s s'

/-- Programs with servers. -/
def machine (code : τ → Prog (netSig σ ι ρ γ) β) (arrives : τ → Prop) :
    Machine (netSig σ ι ρ γ) (Net S ι κ T ρ α) τ β where
  code := code
  arrives := arrives
  answer := answer N own told
  env := env N

end Net

section Net

variable {N : ι → Machine κ T ρ α} {own : S → (op : σ.Op) → σ.Ans op → S → Prop} {told : γ → α}
  {code : τ → Prog (netSig σ ι ρ γ) β} {arrives : τ → Prop}
  {p p' q : Pool (netSig σ ι ρ γ) (Net S ι κ T ρ α) τ β} {e : Event (netSig σ ι ρ γ) τ}
  {l : History (netSig σ ι ρ γ) (Net S ι κ T ρ α) τ} {asked : ι → ρ → Prop} {i : ι}

/-- A request that has arrived is a step of its server. -/
theorem Net.Arrived.step {s s' : Net S ι κ T ρ α} {j : ι} {req : ρ} {k : Nat} (h : Net.Arrived N j req k s s')
    (hreq : asked j req) : s'.server i = s.server i ∨
      ∃ e, Step ((N i).asked (asked i)) (s.server i) e (s'.server i) := by
  by_cases hi : i = j
  · subst hi
    refine .inr ⟨.arrive k req, ?_⟩
    rw [h.turned.server]
    exact .arrive h.free hreq
  · exact .inl (h.turned.others i hi)

/-- A step of the whole is none of a server, or one. -/
theorem Net.server_step (hown : ∀ i req, (N i).arrives req → asked i req)
    (hsent : ∀ k r j req ans, e = .call k r (.send j req) ans → asked j req)
    (h : Step (Net.machine N own told code arrives) p e p') : p'.state.server i = p.state.server i ∨
      ∃ e', Step ((N i).asked (asked i)) (p.state.server i) e' (p'.state.server i) := by
  cases h with
  | arrive => exact .inl rfl
  | @call k r op cont ans s' at_call answered =>
    cases op with
    | own op => exact .inl (congrFun answered.2 i)
    | await j k' => exact .inl (congrArg (fun s => s.server i) answered.1)
    | send j req =>
      have hreq := hsent k r j req ans rfl
      match ans, answered with
      | .ok _, arrived => exact arrived.step hreq
      | .error _, .inl heq => exact .inl (congrArg (fun s => s.server i) heq)
      | .error _, .inr ⟨_, arrived⟩ => exact arrived.step hreq
  | env moves =>
    obtain ⟨j, e', q, hstep, hturned⟩ := moves
    by_cases hi : i = j
    · subst hi
      refine .inr ⟨e', ?_⟩
      show Step _ _ _ (Net.server _ i)
      rw [hturned.server]
      exact hstep.asked (hown i)
    · exact .inl (hturned.others i hi)

/-- What a server does in a run of the whole is a run of the server. -/
theorem Run.at_server (hrun : Run (Net.machine N own told code arrives) p l p') (asked : ι → ρ → Prop)
    (hown : ∀ i req, (N i).arrives req → asked i req)
    (hsent : ∀ s k r j req ans, (s, .call k r (.send j req) ans) ∈ l → asked j req) (i : ι) :
    ∃ l', Run ((N i).asked (asked i)) (p.state.server i) l' (p'.state.server i) := by
  induction hrun with
  | nil => exact ⟨[], .nil⟩
  | cons _ hstep ih =>
    obtain ⟨l', hl'⟩ := ih fun s k r j req ans hmem => hsent s k r j req ans (List.mem_cons_of_mem _ hmem)
    rcases Net.server_step (i := i) hown
      (fun k r j req ans heq => hsent _ k r j req ans (List.mem_cons.mpr (.inl (congrArg _ heq.symm)))) hstep
      with heq | ⟨e', he'⟩
    · exact ⟨l', heq ▸ hl'⟩
    · exact ⟨_, hl'.cons he'⟩

/-- What a thread of a server is at, at the end of a run. -/
theorem Run.server_thread (hrun : Run (Net.machine N own told code arrives) p l p') {k : Nat} {req : ρ}
    {c : Prog κ α} (hk : (p.state.server i).thread k = some (req, c)) :
    (∃ c', (p'.state.server i).thread k = some (req, c')) ∧
      ∀ a, c = .ret a → (p'.state.server i).thread k = some (req, .ret a) := by
  obtain ⟨l', hl'⟩ := hrun.at_server (fun _ _ => True) (fun _ _ _ => trivial)
    (fun _ _ _ _ _ _ _ => trivial) i
  exact hl'.thread hk

/-- A reply is what the request that it was waited for with has come to. -/
theorem Run.replied (hrun : Run (Net.machine N own told code arrives) p l p') {k k' j : Nat} {r r' : τ} {req : ρ}
    {c : γ} {s s' : Net S ι κ T ρ α}
    (hsent : (s, .call k r (.send i req) (.ok j : Except String Nat)) ∈ l)
    (hreplied : (s', .call k' r' (.await i j) (.ok c : Except String γ)) ∈ l) :
    (p'.state.server i).thread j = some (req, .ret (told c)) := by
  obtain ⟨_, _, q, q', -, rfl, -, hsend, hafter⟩ := hrun.split hsent
  obtain ⟨_, _, u, u', -, rfl, -, hawait, hlast⟩ := hrun.split hreplied
  have harrived : (q'.state.server i).thread j = some (req, (N i).code req) := by
    cases hsend with
    | @call _ _ _ _ _ t _ answered =>
      show (t.server i).thread j = _
      rw [answered.turned.server]
      exact Pool.set_thread_self ..
  obtain ⟨req', hended⟩ : ∃ req', (u'.state.server i).thread j = some (req', .ret (told c)) := by
    cases hawait with
    | call _ answered =>
      obtain ⟨rfl, hreply⟩ := answered
      exact hreply c rfl
  obtain ⟨c', hc'⟩ := (hafter.server_thread harrived).1
  have hend := (hlast.server_thread hended).2 _ rfl
  rw [hc'] at hend
  cases hend
  exact hc'

/-- A server may take any steps of its own, with no other step in between. -/
theorem Run.serve [DecidableEq ι] {u v : Pool κ T ρ α} {l' : History κ T ρ} (h : Run (N i) u l' v)
    (p : Pool (netSig σ ι ρ γ) (Net S ι κ T ρ α) τ β) (hp : p.state.server i = u) :
    ∃ l p', Run (Net.machine N own told code arrives) p l p' ∧ p'.thread = p.thread ∧
      p'.state = ⟨p.state.here, Function.update p.state.server i v⟩ := by
  induction h with
  | nil =>
    subst hp
    refine ⟨[], p, .nil, rfl, ?_⟩
    rw [Function.update_eq_self]
  | @cons _ u' w e _ hstep ih =>
    obtain ⟨l, q, hrun, hthread, hstate⟩ := ih
    have hq : q.state.server i = u' := by
      rw [hstate]
      exact Function.update_self ..
    have hturned : Net.Turned i w q.state ⟨p.state.here, Function.update p.state.server i w⟩ := by
      rw [hstate]
      refine ⟨rfl, Function.update_self .., fun j hj => ?_⟩
      show Function.update p.state.server i w j = Function.update p.state.server i u' j
      rw [Function.update_of_ne hj, Function.update_of_ne hj]
    exact ⟨_, _, hrun.cons (.env ⟨i, e, w, hq ▸ hstep, hturned⟩), hthread, rfl⟩

end Net

end Interleave
