import Nexad.Runtime.Types

/-!
# The machine behind the port

What a container runtime keeps: containers under unique names, each with its
configuration and a flag, and networks, whose names are a space of their own.
`Host.answer` says how a call is answered and what it leaves. A call may fail
at any time, and then leaves everything as it was.

A machine refuses a second container of one name, and gives a new one an id
that no other has. It does not refuse a second network of one name.
-/

namespace Nexad.Runtime

open Interleave

/-- A container of a machine. -/
structure Container where
  id : String
  config : ContainerConfig
  running : Bool
  deriving DecidableEq

/-- The containers under their names, and the names of the networks. -/
structure Host where
  container : String → Option Container
  networks : List String
  /-- A container goes by the name it was made with. -/
  named : ∀ {name c}, container name = some c → c.config.name = name
  /-- Two containers have two ids. -/
  ids : ∀ {name name' c c'}, container name = some c → container name' = some c' →
    c.id = c'.id → name = name'

namespace Host

/-- The machine without containers and networks. -/
def empty : Host where
  container := fun _ => none
  networks := []
  named := fun h => by cases h
  ids := fun h => by cases h

/-- Set the flag of the containers that are meant. -/
def switch (s : Host) (meant : Container → Bool) (running : Bool) : Host where
  container := fun name => (s.container name).map fun c =>
    if meant c then { c with running := running } else c
  networks := s.networks
  named := by
    intro name c h
    obtain ⟨d, hd, rfl⟩ := Option.map_eq_some_iff.mp h
    rw [← s.named hd]
    split <;> rfl
  ids := by
    intro name name' c c' h h' hid
    obtain ⟨d, hd, rfl⟩ := Option.map_eq_some_iff.mp h
    obtain ⟨d', hd', rfl⟩ := Option.map_eq_some_iff.mp h'
    refine s.ids hd hd' ?_
    have hkept : ∀ e : Container, (if meant e then { e with running := running } else e).id = e.id := by
      intro e
      split <;> rfl
    rwa [hkept, hkept] at hid

/-- The container of a name no longer runs. -/
def stop (s : Host) (name : String) : Host := s.switch (fun c => c.config.name = name) false

/-- The container of an id runs. -/
def start (s : Host) (id : String) : Host := s.switch (fun c => c.id = id) true

/-- The container of a name is gone. -/
def remove (s : Host) (name : String) : Host where
  container := fun n => if n = name then none else s.container n
  networks := s.networks
  named := by
    intro n c h
    split at h
    · cases h
    · exact s.named h
  ids := by
    intro n n' c c' h h' hid
    split at h <;> split at h'
    · cases h
    · cases h
    · cases h'
    · exact s.ids h h' hid

/-- One more network. -/
def addNetwork (s : Host) (name : String) : Host := { s with networks := name :: s.networks }

/-- Neither the name nor the id is in use. -/
structure Fresh (s : Host) (config : ContainerConfig) (id : String) : Prop where
  name_free : s.container config.name = none
  id_free : ∀ {name c}, s.container name = some c → c.id ≠ id

/-- A new container, which does not run yet. -/
def create (s : Host) (config : ContainerConfig) (id : String) (h : s.Fresh config id) : Host where
  container := fun n => if n = config.name then some ⟨id, config, false⟩ else s.container n
  networks := s.networks
  named := by
    intro n c hc
    split at hc
    · next heq =>
      cases hc
      exact heq.symm
    · exact s.named hc
  ids := by
    intro n n' c c' hc hc' hid
    split at hc <;> split at hc'
    · next heq heq' => rw [heq, heq']
    · cases hc
      exact absurd hid.symm (h.id_free hc')
    · cases hc'
      exact absurd hid (h.id_free hc)
    · exact s.ids hc hc' hid

/-- A call that succeeds leaves what `done` says, one that fails nothing new. -/
def Outcome {β : Type} (s : Host) (done : β → Host → Prop) : Except NexaError β → Host → Prop
  | .ok b, s' => done b s'
  | .error _, s' => s' = s

/-- How a call is answered, and what it leaves. -/
def answer (s : Host) : (op : RuntimeOp) → runtimeSig.Ans op → Host → Prop
  | .pullImage _ => Outcome (β := Unit) s fun _ s' => s' = s
  | .containerExists name => Outcome (β := Bool) s fun found s' =>
    found = (s.container name).isSome ∧ s' = s
  | .stopContainer name _ => Outcome (β := Unit) s fun _ s' => s' = s.stop name
  | .removeContainer name _ => Outcome (β := Unit) s fun _ s' => s' = s.remove name
  | .createNetwork name => Outcome (β := String) s fun _ s' => s' = s.addNetwork name
  | .createContainer config => Outcome (β := String) s fun id s' =>
    ∃ h : s.Fresh config id, s' = s.create config id h
  | .startContainer id => Outcome (β := Unit) s fun _ s' => s' = s.start id

/-! ## A machine in use -/

/-- The call failed. -/
def Failed : (op : RuntimeOp) → runtimeSig.Ans op → Prop
  | .containerExists _ => fun (ans : Except NexaError Bool) => ans.isOk = false
  | .createNetwork _ | .createContainer _ => fun (ans : Except NexaError String) => ans.isOk = false
  | .pullImage _ | .stopContainer .. | .removeContainer .. | .startContainer _ =>
    fun (ans : Except NexaError Unit) => ans.isOk = false

/-- Some containers have come to their end. -/
def Wanes (s s' : Host) : Prop := ∃ ended, s' = s.switch ended false

/-- How a call is answered on a machine whose containers may end at any moment,
and whose answers may be lost: a call that failed may have done its work. -/
def serves (s : Host) (op : RuntimeOp) (ans : runtimeSig.Ans op) (s' : Host) : Prop :=
  ∃ u, s.Wanes u ∧ (u.answer op ans s' ∨ Failed op ans ∧ ∃ done, u.answer op done s')

/-- Programs over the port on such a machine. -/
def machine {ρ α : Type} (code : ρ → Prog runtimeSig α) (arrives : ρ → Prop) :
    Machine runtimeSig Host ρ α where
  code := code
  arrives := arrives
  answer := serves
  env := Wanes

/-- The machine has this container. -/
def Has (s : Host) (c : Container) : Prop := s.container c.config.name = some c

theorem has_of_container {s : Host} {name : String} {c : Container} (h : s.container name = some c) :
    s.Has c := by
  obtain rfl := s.named h
  exact h

/-- A call that succeeded, or one that changed nothing. -/
theorem Outcome.cases {β : Type} {s s' : Host} {done : β → Host → Prop} {ans : Except NexaError β}
    (h : s.Outcome done ans s') : (∃ b, ans = .ok b ∧ done b s') ∨ (∃ e, ans = .error e) ∧ s' = s := by
  cases ans with
  | ok b => exact .inl ⟨b, rfl, h⟩
  | error e => exact .inr ⟨⟨e, rfl⟩, h⟩

variable (s : Host)

@[simp] theorem remove_self (name : String) : (s.remove name).container name = none := if_pos rfl

theorem remove_ne {name n : String} (h : n ≠ name) : (s.remove name).container n = s.container n :=
  if_neg h

theorem stop_self (name : String) :
    (s.stop name).container name = (s.container name).map ({ · with running := false }) := by
  show (s.container name).map _ = _
  refine Option.map_congr fun c hc => ?_
  rw [if_pos (decide_eq_true (s.named hc))]

theorem stop_ne {name n : String} (h : n ≠ name) : (s.stop name).container n = s.container n := by
  show (s.container n).map _ = _
  cases hc : s.container n with
  | none => rfl
  | some c =>
    have hname : ¬ c.config.name = name := by
      rw [s.named hc]
      exact h
    rw [Option.map_some, if_neg (by simpa using hname)]

section Created

variable {s} {config : ContainerConfig} {id : String} (h : s.Fresh config id)

@[simp] theorem create_self :
    (s.create config id h).container config.name = some ⟨id, config, false⟩ := if_pos rfl

theorem create_ne {n : String} (hn : n ≠ config.name) :
    (s.create config id h).container n = s.container n := if_neg hn

/-- Only the new container has the new id. -/
theorem start_created_ne {n : String} (hn : n ≠ config.name) :
    ((s.create config id h).start id).container n = s.container n := by
  show ((s.create config id h).container n).map _ = _
  rw [create_ne h hn]
  cases hc : s.container n with
  | none => rfl
  | some c => rw [Option.map_some, if_neg (by simpa using h.id_free hc)]

theorem start_created_self :
    ((s.create config id h).start id).container config.name = some ⟨id, config, true⟩ := by
  show ((s.create config id h).container config.name).map _ = _
  rw [create_self, Option.map_some, if_pos (decide_eq_true rfl)]

/-- An id that is neither the new one's nor in use stays out of use. -/
theorem start_created_id {id' : String} (hnew : id ≠ id')
    (hold : ∀ {n c}, s.container n = some c → c.id ≠ id') {n : String} {c : Container}
    (hc : ((s.create config id h).start id).container n = some c) : c.id ≠ id' := by
  by_cases hn : n = config.name
  · subst hn
    rw [start_created_self] at hc
    cases hc
    exact hnew
  · rw [start_created_ne h hn] at hc
    exact hold hc

end Created

end Host

end Nexad.Runtime
