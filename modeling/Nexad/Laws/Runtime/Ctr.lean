import Nexad.Runtime.Ctr

/-!
# What the containerd runtime asks for

Each call of the port runs commands about its own container only
(`serve_every`). A container that was made has the name it was to have, by two
calls (`createContainer_path`), and one that was started by one command
(`startContainer_path`). What one command can do to the container of a name is
said once (`Containerd.Documented.container`).
-/

namespace Nexad.Runtime

open Interleave

variable {self : ContainerdRuntime}

/-- A command is read off the call for it. -/
theorem CtrCommand.op_injective : Function.Injective (CtrCommand.op self) := by
  intro c c' h
  injection h with h
  injection h with h
  injection h with _ h
  injection h with _ h
  cases c <;> cases c' <;> simp_all [CtrCommand.args]

namespace CtrCommand

/-- What follows does not change how a text begins. -/
theorem head_append {a b : String} {c : Char} (h : a.toList.head? = some c) :
    (a ++ b).toList.head? = some c := by
  rw [String.toList_append, List.head?_append, h]
  rfl

theorem operand_of_head {arg : String} {c : Char} (h : arg.toList.head? = some c) (hc : c ≠ '-') :
    Operand arg := by
  unfold Operand
  rw [h]
  exact fun heq => hc (Option.some.inj heq)

/-- The key of an entry that an insertion leaves is the new one, or it was there. -/
theorem key_of_insert {m : TextMap} {key value : String} {e : Sigma fun _ : String => String}
    (h : e ∈ (m.insert key value).entries) : e.1 = key ∨ e ∈ m.entries := by
  rw [AList.entries_insert] at h
  rcases List.mem_cons.mp h with rfl | h
  · exact .inl rfl
  · exact .inr ((List.kerase_sublist key m.entries).subset h)

/-- Where the name, the image and the environment are no flags to `ctr`, and the
labels neither, nothing of the command is. -/
theorem creation_plain {config : ContainerConfig} (hname : Operand config.name)
    (himage : Operand (normalizeImageRef config.image))
    (henv : ∀ e ∈ config.env.entries, Operand s!"{e.1}={e.2}")
    (hlabels : ∀ e ∈ config.labels.entries, Operand s!"{e.1}={e.2}") : (creation config).Plain := by
  refine ⟨himage, hname, fun flag hflag => ?_⟩
  rcases List.mem_append.mp hflag with hflag | hflag
  · rcases List.mem_append.mp hflag with hflag | hflag
    · obtain ⟨e, he, hflag⟩ := List.mem_flatMap.mp hflag
      rcases List.mem_pair.mp hflag with rfl | rfl
      · exact .inl (by decide)
      · exact .inr (henv e he)
    · obtain ⟨e, he, hflag⟩ := List.mem_flatMap.mp hflag
      rcases List.mem_pair.mp hflag with rfl | rfl
      · exact .inl (by decide)
      · exact .inr (hlabels e he)
  · obtain ⟨vol, -, hflag⟩ := List.mem_flatMap.mp hflag
    rcases List.mem_pair.mp hflag with rfl | rfl
    · exact .inl (by decide)
    · have hbegins : ("type=bind,src=" : String).toList.head? = some 't' := by decide
      exact .inr (operand_of_head (head_append (head_append (head_append (head_append
        (head_append hbegins))))) (by decide))

end CtrCommand

/-- A call for a command. -/
def CtrCommand.ran (self : ContainerdRuntime) (c : CtrCommand) (output : CtrOutput) :
    (op : ContainerdOp) × containerdSig.Ans op :=
  ⟨c.op self, (.ok output : Except String CtrOutput)⟩

/-- An operation that runs no command, or one that changes no other container. -/
def CtrAbout (self : ContainerdRuntime) (name : String) (op : ContainerdOp) : Prop :=
  op.Quiet ∨ ∃ c, op = CtrCommand.op self c ∧ c.Plain ∧ ∀ n, c.about = some n → n = name

/-- A command is not one of the other operations. -/
theorem CtrCommand.not_quiet (c : CtrCommand) : ¬ (c.op self).Quiet := id

theorem CtrAbout.of_command {name : String} {c : CtrCommand} (h : CtrAbout self name (c.op self)) {n : String}
    (hn : c.about = some n) : n = name := by
  obtain hquiet | ⟨c', heq, -, habout⟩ := h
  · exact absurd hquiet c.not_quiet
  · cases CtrCommand.op_injective heq
    exact habout n hn

/-- The call of the port is about this container, and `ctr` takes nothing of it
for a flag. -/
def Concerns (name : String) : RuntimeOp → Prop
  | .pullImage image => (CtrCommand.pull (normalizeImageRef image)).Plain
  | .containerExists n => (CtrCommand.info n).Plain
  | .createNetwork _ => True
  | .stopContainer n _ | .removeContainer n _ | .startContainer n =>
    n = name ∧ CtrCommand.Operand name
  | .createContainer config => config.name = name ∧ (CtrCommand.creation config).Plain

/-- The answer to a new container is its name. -/
def TellsItsName : (op : RuntimeOp) → runtimeSig.Ans op → Prop
  | .createContainer config => fun (ans : Except NexaError String) => ∀ id, ans = .ok id → id = config.name
  | .pullImage _ | .containerExists _ | .stopContainer .. | .removeContainer .. | .createNetwork _
  | .startContainer _ => fun _ => True

namespace ContainerdRuntime

/-! ## Commands -/

section Commands

variable {α : Type} {p : Prog ctrSig α} {P : ContainerdOp → Prop}

theorem commands_every (h : p.Every fun op => P (.ctr op)) : (p.via commands).Every P := by
  induction p with
  | ret => exact trivial
  | call op k ih => exact ⟨h.1, fun ans => ih ans (h.2 ans)⟩

/-- The calls of a program of commands are its commands. -/
theorem commands_path {l : List ((op : ContainerdOp) × containerdSig.Ans op)} {a : α}
    (h : (p.via commands).Path l (.ret a)) :
    ∃ calls, p.Path calls (.ret a) ∧ l = calls.map fun c => ⟨.ctr c.1, c.2⟩ := by
  induction p generalizing l with
  | ret b =>
    cases h
    exact ⟨[], .refl _, rfl⟩
  | call op k ih =>
    cases h with
    | call ans rest =>
      obtain ⟨calls, hpath, rfl⟩ := ih ans rest
      exact ⟨⟨op, (ans : ctrSig.Ans op)⟩ :: calls, Prog.Path.call (k := k) ans hpath, rfl⟩

theorem ctr_every {β : Type} {args : List String} {k : CtrOutput → Prog ctrSig (Except NexaError β)}
    {P : CtrOp → Prop} (hcommand : P (.output ("--namespace" :: self.nspace :: args)))
    (hk : ∀ output, (k output).Every P) : (self.ctr args k).Every P := by
  refine ⟨hcommand, fun ans => ?_⟩
  match ans with
  | .error _ => exact trivial
  | .ok output => exact hk output

end Commands

variable {name : String}

/-- A command about the container is one that the call may run. -/
theorem about_command (c : CtrCommand) (hplain : c.Plain) (h : ∀ n, c.about = some n → n = name) :
    CtrAbout self name (CtrCommand.op self c) := .inr ⟨c, rfl, hplain, h⟩

theorem waitLoop_every (hname : CtrCommand.Operand name) (rounds : Nat) :
    (self.waitLoop name rounds).Every fun op => CtrAbout self name (.ctr op) := by
  induction rounds with
  | zero =>
    exact ctrOk_every (about_command (.kill "SIGKILL" name) hname fun n h => (Option.some.inj h).symm)
      fun _ => trivial
  | succ rounds ih =>
    refine ctr_every (about_command .list trivial fun n h => by cases h) fun check => ?_
    split
    · exact ih
    · exact trivial

/-- Each call of the port runs commands about its own container only. -/
theorem serve_every {op : RuntimeOp} (h : Concerns name op) : (self.serve op).Every (CtrAbout self name) := by
  cases op with
  | pullImage image =>
    exact commands_every (ctrOk_every (about_command (.pull (normalizeImageRef image)) h fun n h => by cases h)
      fun _ => trivial)
  | containerExists n =>
    exact commands_every (ctr_every (about_command (.info n) h fun n h => by cases h) fun _ => trivial)
  | stopContainer n timeoutSecs =>
    obtain ⟨rfl, hname⟩ := h
    refine ⟨.inl trivial, fun rounds => commands_every (ctr_every
      (about_command (.kill "SIGTERM" n) hname fun m h => (Option.some.inj h).symm) fun output => ?_)⟩
    split
    · exact waitLoop_every hname rounds
    · exact trivial
  | removeContainer n force =>
    obtain ⟨rfl, hname⟩ := h
    refine Prog.Every.bind (commands_every (ctr_every
      (about_command (.deleteTask n) hname fun m h => (Option.some.inj h).symm) fun _ =>
        ctrOk_every (about_command (.delete n) hname fun m h => (Option.some.inj h).symm) fun _ => trivial))
      fun _ removed _ => ?_
    match removed with
    | .error _ => exact trivial
    | .ok () => exact ⟨.inl trivial, fun _ => ⟨.inl trivial, fun _ => trivial⟩⟩
  | createNetwork n =>
    refine ⟨.inl trivial, fun ans => ?_⟩
    match ans with
    | .error _ => exact trivial
    | .ok () => exact trivial
  | createContainer config =>
    obtain ⟨rfl, hplain⟩ := h
    exact commands_every (createContainer_every
      (about_command (.creation config) hplain fun n h => (Option.some.inj h).symm) (.inl trivial))
  | startContainer n =>
    obtain ⟨rfl, hname⟩ := h
    refine ⟨about_command (.start n) hname fun m h => (Option.some.inj h).symm, fun ans => ?_⟩
    match ans with
    | .error _ => exact trivial
    | .ok output =>
      dsimp only
      split
      · split
        · exact ⟨.inl trivial, fun _ => trivial⟩
        · exact trivial
      · exact trivial

/-! ## Calls that succeed -/

/-- A container that was made has the name it was to have, by a command that succeeded. -/
theorem createContainer_path {config : ContainerConfig} {l : List ((op : ContainerdOp) × containerdSig.Ans op)}
    {id : String} (h : (self.serve (.createContainer config)).Path l (.ret (.ok id : Except NexaError String))) :
    id = config.name ∧ ∃ output last, output.success = true ∧
      l = [(CtrCommand.creation config).ran self output, last] ∧ last.1.Quiet := by
  obtain ⟨calls, hpath, rfl⟩ := commands_path h
  cases hpath with
  | call ans hpath =>
    match ans, hpath with
    | .error e, hpath => cases hpath
    | .ok output, hpath =>
      dsimp only at hpath
      split at hpath
      · rename_i hsuccess
        cases hpath with
        | call made hpath =>
          match made, hpath with
          | .error e, hpath => cases hpath
          | .ok (), hpath =>
            cases hpath
            exact ⟨rfl, output, _, hsuccess, rfl, trivial⟩
      · cases hpath

/-- A container that was started was started by a command that succeeded. -/
theorem startContainer_path {id : String} {l : List ((op : ContainerdOp) × containerdSig.Ans op)}
    (h : (self.serve (.startContainer id)).Path l (.ret (.ok () : Except NexaError Unit))) :
    ∃ output after, output.success = true ∧ l = (CtrCommand.start id).ran self output :: after ∧
      ∀ call ∈ after, call.1.Quiet := by
  cases h with
  | call ans hpath =>
    match ans, hpath with
    | .error e, hpath => cases hpath
    | .ok output, hpath =>
      dsimp only at hpath
      split at hpath
      · rename_i hsuccess
        split at hpath
        · cases hpath with
          | call ans hpath =>
            cases hpath
            refine ⟨output, _, hsuccess, rfl, fun call hmem => ?_⟩
            cases List.mem_singleton.mp hmem
            exact trivial
        · cases hpath
          exact ⟨output, [], hsuccess, rfl, fun call hmem => by cases hmem⟩
      · cases hpath

end ContainerdRuntime

/-! ## What one command can do -/

namespace CtrStock

variable {s s' : CtrStock}

@[simp] theorem add_container_self (s : CtrStock) (name : String) (made : List String) :
    (s.add name made).container name = some made := if_pos rfl

theorem add_container_ne {n name : String} (h : n ≠ name) (made : List String) :
    (s.add name made).container n = s.container n := if_neg h

theorem setTask_self (s : CtrStock) (name : String) (task : Option Bool) :
    (s.setTask name task).task name = task := if_pos rfl

theorem setTask_ne {n name : String} (h : n ≠ name) (task : Option Bool) :
    (s.setTask name task).task n = s.task n := if_neg h

theorem remove_container_self (s : CtrStock) (name : String) :
    (s.remove name).container name = none := if_pos rfl

theorem remove_container_ne {n name : String} (h : n ≠ name) :
    (s.remove name).container n = s.container n := if_neg h

/-- A task that has come to its end is still there. -/
theorem ended_isSome (s : CtrStock) (name n : String) :
    ((s.ended name).task n).isSome = (s.task n).isSome := by
  by_cases hn : n = name
  · subst hn
    show (if n = n then _ else _ : Option Bool).isSome = _
    rw [if_pos rfl, Option.isSome_map]
  · exact congrArg Option.isSome (setTask_ne hn _)

/-- The container under a name stays what it is, unless it is deleted, or there was none. -/
theorem Does.container {c : CtrCommand} (h : s.Does c s') {name : String} (hdelete : c ≠ .delete name) :
    s'.container name = s.container name ∨ s.container name = none := by
  cases c with
  | pull | info | list => exact .inl (congrArg (fun u => u.container name) h)
  | create image n flags =>
    obtain ⟨hfree, rfl⟩ := h
    by_cases hn : name = n
    · exact .inr (hn ▸ hfree)
    · exact .inl (add_container_ne hn _)
  | start | deleteTask =>
    obtain ⟨-, rfl⟩ := h
    exact .inl rfl
  | kill =>
    obtain rfl | rfl := h
    · exact .inl rfl
    · exact .inl rfl
  | delete n =>
    obtain ⟨-, rfl⟩ := h
    refine .inl (remove_container_ne ?_)
    rintro rfl
    exact hdelete rfl

/-- What is under a name that the command is not about stays as it is. -/
theorem Does.frame {c : CtrCommand} (h : s.Does c s') {name : String} (hother : c.about ≠ some name) :
    s'.container name = s.container name ∧ (s'.task name).isSome = (s.task name).isSome := by
  have hne : ∀ {n}, some n ≠ some name → name ≠ n := fun hn heq => hn (congrArg some heq.symm)
  cases c with
  | pull | info | list =>
    subst h
    exact ⟨rfl, rfl⟩
  | create image n flags =>
    obtain ⟨-, rfl⟩ := h
    exact ⟨add_container_ne (hne hother) _, rfl⟩
  | start n | deleteTask n =>
    obtain ⟨-, rfl⟩ := h
    exact ⟨rfl, congrArg Option.isSome (setTask_ne (hne hother) _)⟩
  | kill signal n =>
    obtain rfl | rfl := h
    · exact ⟨rfl, rfl⟩
    · exact ⟨rfl, s.ended_isSome n name⟩
  | delete n =>
    obtain ⟨-, rfl⟩ := h
    exact ⟨remove_container_ne (hne hother), congrArg Option.isSome (setTask_ne (hne hother) _)⟩

end CtrStock

namespace Containerd.Documented

variable {E : Containerd} {t t' : E.State} {op : ContainerdOp} {ans : containerdSig.Ans op} {name : String}

/-- A command that was answered with success did what it does. -/
theorem of_ran (h : E.Documented self) {c : CtrCommand} (hplain : c.Plain) {output : CtrOutput}
    (hans : E.answer t (c.op self) (.ok output : Except String CtrOutput) t') (hsuccess : output.success = true) :
    (E.stock t).Does c (E.stock t') := by
  rcases h.command hplain hans with ⟨_, -, -, hdoes⟩ | ⟨hfailed, -⟩
  · exact hdoes
  · exact absurd hsuccess (Bool.eq_false_iff.mp (hfailed output rfl))

/-- The container of a name is kept by every call but the command that deletes it. -/
theorem container (h : E.Documented self) (hans : E.answer t op ans t') {n : String} (habout : CtrAbout self n op)
    (hdelete : op ≠ (CtrCommand.delete name).op self) :
    (E.stock t').container name = (E.stock t).container name ∨ (E.stock t).container name = none := by
  obtain hquiet | ⟨c, rfl, hplain, -⟩ := habout
  · exact .inl (congrArg (fun u => u.container name) (h.quiet hans hquiet))
  · have hc : c ≠ .delete name := by
      rintro rfl
      exact hdelete rfl
    rcases h.command hplain hans with ⟨-, -, -, hdoes⟩ | ⟨-, hdoes | ⟨hsame, -⟩⟩
    · exact hdoes.container hc
    · exact hdoes.container hc
    · exact .inl (congrFun hsame name)

/-- A call about one container leaves what is under other names. -/
theorem frame (h : E.Documented self) (hans : E.answer t op ans t') {n : String} (habout : CtrAbout self n op)
    (hne : n ≠ name) : (E.stock t').container name = (E.stock t).container name ∧
      ((E.stock t').task name).isSome = ((E.stock t).task name).isSome := by
  obtain hquiet | ⟨c, rfl, hplain, hn⟩ := habout
  · rw [h.quiet hans hquiet]
    exact ⟨rfl, rfl⟩
  · have hc : c.about ≠ some name := fun hname => hne (hn name hname).symm
    rcases h.command hplain hans with ⟨-, -, -, hdoes⟩ | ⟨-, hdoes | ⟨hsame, htask⟩⟩
    · exact hdoes.frame hc
    · exact hdoes.frame hc
    · exact ⟨congrFun hsame name, congrArg Option.isSome (htask name hc)⟩

/-- What happens by itself leaves the containers, and the tasks where they are. -/
theorem env_frame (h : E.Documented self) (hmoves : E.env t t') (name : String) :
    (E.stock t').container name = (E.stock t).container name ∧
      ((E.stock t').task name).isSome = ((E.stock t).task name).isSome := by
  rcases h.env hmoves with heq | ⟨n, heq⟩
  · rw [heq]
    exact ⟨rfl, rfl⟩
  · rw [heq]
    exact ⟨rfl, (E.stock t).ended_isSome n name⟩

end Containerd.Documented

/-! ## A daemon of that kind -/

/-- What a command does where nothing gets in the way: it fails, and then it does nothing, or succeeds. -/
def CtrStock.run (s : CtrStock) : CtrCommand → Option CtrStock
  | .pull _ | .list => some s
  | .info name => if (s.container name).isSome then some s else none
  | .create image name flags =>
    if s.container name = none then some (s.add name (image :: flags)) else none
  | .start name =>
    if (s.container name).isSome ∧ s.task name = none then some (s.setTask name (some true)) else none
  | .kill _ name => if s.task name = some true then some (s.ended name) else none
  | .deleteTask name => if s.task name = some false then some (s.setTask name none) else none
  | .delete name =>
    if (s.container name).isSome ∧ s.task name ≠ some true then some (s.remove name) else none

theorem CtrStock.does_of_run {s s' : CtrStock} {c : CtrCommand} (h : s.run c = some s') : s.Does c s' := by
  cases c with
  | pull | list => exact (Option.some.inj h).symm
  | info =>
    obtain ⟨-, heq⟩ := Option.ite_none_right_eq_some.mp h
    exact (Option.some.inj heq).symm
  | create | deleteTask =>
    obtain ⟨hfree, heq⟩ := Option.ite_none_right_eq_some.mp h
    exact ⟨hfree, (Option.some.inj heq).symm⟩
  | start | delete =>
    obtain ⟨⟨-, htask⟩, heq⟩ := Option.ite_none_right_eq_some.mp h
    exact ⟨htask, (Option.some.inj heq).symm⟩
  | kill =>
    obtain ⟨-, heq⟩ := Option.ite_none_right_eq_some.mp h
    exact .inr (Option.some.inj heq).symm

/-- A containerd whose commands all start, and whose tasks end when they will. -/
def faithful (self : ContainerdRuntime) : Containerd where
  State := CtrStock
  stock := id
  env := fun s s' => ∃ name, s' = s.ended name
  answer := fun s op => match op with
    | .ctr (.output args) => fun (ans : Except String CtrOutput) s' =>
      ∀ c : CtrCommand, args = "--namespace" :: self.nspace :: c.args →
        ∃ output, ans = .ok output ∧ output.success = (s.run c).isSome ∧ s' = (s.run c).getD s
    | _ => fun _ s' => s' = s

theorem faithful_documented (self : ContainerdRuntime) : (faithful self).Documented self where
  command := by
    intro s c ans s' _ h
    obtain ⟨output, rfl, hsuccess, rfl⟩ := h c rfl
    cases hrun : s.run c with
    | some u =>
      rw [hrun] at hsuccess
      exact .inl ⟨output, rfl, hsuccess, CtrStock.does_of_run hrun⟩
    | none =>
      rw [hrun] at hsuccess
      exact .inr ⟨fun output' heq => (Except.ok.inj heq) ▸ hsuccess, .inr ⟨rfl, fun _ _ => rfl⟩⟩
  quiet := by
    intro s op ans s' h hquiet
    cases op with
    | ctr op =>
      cases op with
      | output | spawn => cases hquiet
      | createDirAll => exact h
    | deadline | insertNetns | forget | removeLogs | ensureNetwork => exact h
  env := .inr

/-- The answer of a command that can do its work, and of one that cannot. -/
theorem faithful_answer {s : CtrStock} {c : CtrCommand} {output : CtrOutput}
    (h : output.success = (s.run c).isSome) : (faithful self).answer s (c.op self)
      (.ok output : Except String CtrOutput) ((s.run c).getD s) := by
  intro c' heq
  have hop : c.op self = c'.op self := congrArg (fun args => ContainerdOp.ctr (.output args)) heq
  cases CtrCommand.op_injective hop
  exact ⟨output, rfl, h, rfl⟩

theorem faithful_done {s s' : CtrStock} {c : CtrCommand} {output : CtrOutput} (h : s.run c = some s')
    (hsuccess : output.success = true) :
    (faithful self).answer s (c.op self) (.ok output : Except String CtrOutput) s' := by
  have hran : output.success = (s.run c).isSome := by
    rw [hsuccess, h]
    rfl
  have hanswer : (faithful self).answer s (c.op self) (.ok output : Except String CtrOutput)
      ((s.run c).getD s) := faithful_answer hran
  rwa [h] at hanswer

theorem faithful_refused {s : CtrStock} {c : CtrCommand} {output : CtrOutput} (h : s.run c = none)
    (hsuccess : output.success = false) :
    (faithful self).answer s (c.op self) (.ok output : Except String CtrOutput) s := by
  have hran : output.success = (s.run c).isSome := by
    rw [hsuccess, h]
    rfl
  have hanswer : (faithful self).answer s (c.op self) (.ok output : Except String CtrOutput)
      ((s.run c).getD s) := faithful_answer hran
  rwa [h] at hanswer

end Nexad.Runtime
