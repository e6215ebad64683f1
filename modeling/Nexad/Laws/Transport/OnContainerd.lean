import Nexad.Laws.Runtime.Ctr
import Nexad.Laws.Transport.Concurrent

/-!
# Assignments on containerd

A call of the port is several commands here, and the commands of other
assignments come in between. A command that succeeds still takes hold of a
container that was not there (`containers create`) and of a task that was not
(`tasks start`), so whoever is told that a pod is there has made its container
and started it, and only a `containers delete` of another assignment of the same
name takes it away (`containerd_assignments`).
-/

namespace Nexad

open Interleave Nexad.Runtime

variable {D : Domain} {W : Workload D} {pod : Pod D} {spec : D.DeploymentSpec} {self : ContainerdRuntime}

/-- The step of a request that ran a command. -/
def Runtime.CtrCommand.step (self : ContainerdRuntime) (c : CtrCommand) {ρ : Type} (k : Nat) (req : ρ)
    (output : CtrOutput) : Event containerdSig ρ :=
  .call k req (c.op self) (.ok output : Except String CtrOutput)

/-- A request, well or not, for the deletion of this container. -/
def Runtime.CtrCommand.Deletes (self : ContainerdRuntime) {ρ : Type} (name : String)
    (e : Event containerdSig ρ) : Prop :=
  ∃ k req ans, e = .call k req ((CtrCommand.delete name).op self) ans

/-! ## The commands of one assignment -/

/-- `ctr` takes neither the name of a pod's container nor its image or
environment for a flag. -/
def NoFlags (W : Workload D) (pod : Pod D) (spec : D.DeploymentSpec) : Prop :=
  CtrCommand.Operand (W.containerName pod) ∧ CtrCommand.Operand (normalizeImageRef (W.image spec)) ∧
    ∀ e ∈ (W.env spec).entries, CtrCommand.Operand s!"{e.1}={e.2}"

/-- So it takes nothing of the command that makes the container for one. -/
theorem NoFlags.creation_plain (h : NoFlags W pod spec) :
    (CtrCommand.creation (W.containerConfig pod spec)).Plain := by
  refine CtrCommand.creation_plain h.1 h.2.1 h.2.2 fun e he => ?_
  have hkey : e.1.toList.head? = some 'm' ∨ e.1.toList.head? = some 'n' := by
    rcases CtrCommand.key_of_insert he with heq | he
    · exact .inr (heq ▸ by decide)
    rcases CtrCommand.key_of_insert he with heq | he
    · exact .inr (heq ▸ by decide)
    rcases CtrCommand.key_of_insert he with heq | he
    · exact .inr (heq ▸ by decide)
    rcases CtrCommand.key_of_insert he with heq | he
    · exact .inl (heq ▸ by decide)
    · cases he
  rcases hkey with hkey | hkey
  · exact CtrCommand.operand_of_head (CtrCommand.head_append (CtrCommand.head_append hkey)) (by decide)
  · exact CtrCommand.operand_of_head (CtrCommand.head_append (CtrCommand.head_append hkey)) (by decide)

/-- The name of a network begins with the name of the program. -/
theorem networkName_operand (spec : D.DeploymentSpec) : CtrCommand.Operand (Workload.networkName spec) := by
  have hbegins : ("nexa-" : String).toList.head? = some 'n' := by decide
  exact CtrCommand.operand_of_head (CtrCommand.head_append hbegins) (by decide)

/-- The commands of a request are about its own container. -/
theorem AssignRequest.code_about (req : AssignRequest D)
    (hplain : ∀ pod spec, req.For W pod spec → NoFlags W pod spec) :
    ((req.code W).via self.serve).Every fun op => ∃ name, req.Names W name ∧ CtrAbout self name op := by
  refine Prog.Given.via (A := TellsItsName) (P := fun op => ∃ name, req.Names W name ∧ Concerns name op) ?_ ?_ ?_
  · rintro op ⟨name, hnames, hconcerns⟩
    exact (ContainerdRuntime.serve_every hconcerns).imp fun _ habout => ⟨name, hnames, habout⟩
  · rintro op l ans - hpath
    cases op with
    | createContainer config =>
      rintro id rfl
      exact (ContainerdRuntime.createContainer_path hpath).1
    | pullImage | containerExists | stopContainer | removeContainer | createNetwork | startContainer =>
      exact trivial
  · refine AssignRequest.given_of_for fun pod spec hfor => ?_
    have hown : ∀ {op}, Concerns (W.containerName pod) op → ∃ name, req.Names W name ∧ Concerns name op :=
      fun hconcerns => ⟨W.containerName pod, ⟨pod, spec, hfor, rfl⟩, hconcerns⟩
    have hflags := hplain pod spec hfor
    exact hfor.given (hown hflags.2.1) (hown hflags.1) (hown ⟨rfl, hflags.1⟩) (hown ⟨rfl, hflags.1⟩)
      (hown (networkName_operand spec)) (hown trivial) (hown ⟨rfl, hflags.creation_plain⟩)
      fun id hid => hown ⟨hid id rfl, hflags.1⟩

/-- The last calls of an assignment that succeeded make its container by one
command and start it by another. -/
theorem AssignRequest.For.commanded {req : AssignRequest D} (hfor : req.For W pod spec)
    {l : List ((op : ContainerdOp) × containerdSig.Ans op)} {reply : AssignReply}
    (h : ((req.code W).via self.serve).Path l (.ret reply)) (hok : reply.success = true) :
    ∃ before created last started after, created.success = true ∧ started.success = true ∧
      l = before ++ (CtrCommand.creation (W.containerConfig pod spec)).ran self created ::
        ([last] ++ (CtrCommand.start (W.containerName pod)).ran self started :: after) ∧
      last.1.Quiet ∧ ∀ call ∈ after, call.1.Quiet := by
  obtain ⟨calls, hpath, hcarried⟩ := h.of_via
  obtain ⟨before, id, rfl⟩ := hfor.launched hpath hok
  obtain ⟨l₁, l₂, rfl, -, hlaunch⟩ := hcarried.of_append
  cases hlaunch with
  | cons hcreate hlaunch =>
    obtain ⟨rfl, created, last, hcreated, rfl, hlast⟩ := ContainerdRuntime.createContainer_path hcreate
    cases hlaunch with
    | cons hstart hlaunch =>
      obtain ⟨started, after, hstarted, rfl, hafter⟩ := ContainerdRuntime.startContainer_path hstart
      cases hlaunch
      refine ⟨l₁, created, last, started, after, hcreated, hstarted, ?_, hlast, hafter⟩
      rw [List.append_nil]
      rfl

/-! ## Runs -/

section Run

variable {E : Containerd} {arrives : AssignRequest D → Prop} {t₀ : E.State}
  {l : History containerdSig E.State (AssignRequest D)}
  {p₀ p : Pool containerdSig E.State (AssignRequest D) AssignReply}

/-- Every call of a run is about the container of the request that makes it. -/
theorem commands_about (hplain : ∀ req pod spec, arrives req → req.For W pod spec → NoFlags W pod spec)
    (hrun : Run (E.machine self (AssignRequest.code W) arrives) (.idle t₀) l p) {t : E.State}
    {k : Nat} {req : AssignRequest D} {op : ContainerdOp} {ans : containerdSig.Ans op}
    (hmem : (t, .call k req op ans) ∈ l) :
    arrives req ∧ ∃ name, req.Names W name ∧ CtrAbout self name op :=
  (hrun.every (P := fun req op => arrives req ∧ ∃ name, req.Names W name ∧ CtrAbout self name op)
    (fun req harrives => (req.code_about fun pod spec => hplain req pod spec harrives).imp
      fun _ habout => ⟨harrives, habout⟩)
    (Pool.idle_every _ _)).2 t k req op ans hmem

/-- The command that makes a container finds none, and makes it from the config. -/
theorem created_by (hE : E.Documented self) {config : ContainerConfig}
    (hplain : (CtrCommand.creation config).Plain) {k : Nat} {req : AssignRequest D}
    {output : CtrOutput}
    (h : Step (E.machine self (AssignRequest.code W) arrives) p₀
      (CtrCommand.step self (.creation config) k req output) p)
    (hsuccess : output.success = true) : (E.stock p₀.state).container config.name = none ∧
      (E.stock p.state).container config.name = some (CtrCommand.made config) := by
  cases h with
  | @call _ _ _ _ _ t' _ answered =>
    obtain ⟨hfree, heq⟩ := hE.of_ran hplain answered hsuccess
    refine ⟨hfree, ?_⟩
    show (E.stock t').container config.name = _
    rw [heq]
    exact CtrStock.add_container_self ..

/-- The command that starts a container finds no task of it. -/
theorem started_by (hE : E.Documented self) {name : String} (hplain : CtrCommand.Operand name)
    {k : Nat} {req : AssignRequest D} {output : CtrOutput}
    (h : Step (E.machine self (AssignRequest.code W) arrives) p₀
      (CtrCommand.step self (.start name) k req output) p)
    (hsuccess : output.success = true) : (E.stock p₀.state).task name = none := by
  cases h with
  | call _ answered => exact (hE.of_ran (c := .start name) hplain answered hsuccess).1

/-- Once it has made its container, a request that succeeds asks for no deletion. -/
theorem not_deleted {k : Nat} {name : String} {last : (op : ContainerdOp) × containerdSig.Ans op}
    {started : CtrOutput} {after : List ((op : ContainerdOp) × containerdSig.Ans op)}
    (h : l.calls k = [last] ++ (CtrCommand.start name).ran self started :: after) (hlast : last.1.Quiet)
    (hafter : ∀ call ∈ after, call.1.Quiet) {t : E.State} {req : AssignRequest D}
    {ans : containerdSig.Ans ((CtrCommand.delete name).op self)} :
    (t, .call k req ((CtrCommand.delete name).op self) ans) ∉ l := by
  intro hmem
  have hcall := History.mem_calls.mpr ⟨t, req, hmem⟩
  rw [h] at hcall
  rcases List.mem_cons.mp hcall with rfl | hcall
  · exact CtrCommand.not_quiet _ hlast
  rcases List.mem_cons.mp hcall with heq | hcall
  · cases CtrCommand.op_injective (congrArg Sigma.fst heq)
  · exact CtrCommand.not_quiet _ (hafter _ hcall)

/-- A container is what it is for as long as no one asks for its deletion. -/
theorem container_kept (hE : E.Documented self) {name : String} {made : List String}
    (hmade : (E.stock p₀.state).container name = some made)
    (hrun : Run (E.machine self (AssignRequest.code W) arrives) p₀ l p)
    (hkept : ∀ t e, (t, e) ∈ l → ¬ CtrCommand.Deletes self name e ∧
      ∀ k req op ans, e = .call k req op ans → ∃ n, CtrAbout self n op) :
    (E.stock p.state).container name = some made := by
  refine hrun.visited (I := fun t => (E.stock t).container name = some made) hmade
    (fun q e q' hstep hquiet hq => ?_) hkept (.inl rfl)
  cases hstep with
  | arrive => exact hq
  | @call k req op cont ans t' at_call answered =>
    obtain ⟨n, habout⟩ := hquiet.2 k req op ans rfl
    have hdelete : op ≠ (CtrCommand.delete name).op self := by
      rintro rfl
      exact hquiet.1 ⟨k, req, ans, rfl⟩
    rcases hE.container answered habout hdelete with hsame | hnone
    · exact hsame.trans hq
    · rw [hnone] at hq
      cases hq
  | env moves => exact (hE.env_frame moves name).1.trans hq

/-- What is under a name that no request is for stays as it was: its container,
and whether it has a task. -/
theorem others_left (hE : E.Documented self)
    (hplain : ∀ req pod spec, arrives req → req.For W pod spec → NoFlags W pod spec)
    (hrun : Run (E.machine self (AssignRequest.code W) arrives) (.idle t₀) l p) {name : String}
    (hother : ∀ req, arrives req → ¬ req.Names W name) :
    (E.stock p.state).container name = (E.stock t₀).container name ∧
      ((E.stock p.state).task name).isSome = ((E.stock t₀).task name).isSome := by
  refine Run.visited (I := fun t => (E.stock t).container name = (E.stock t₀).container name ∧
      ((E.stock t).task name).isSome = ((E.stock t₀).task name).isSome)
    (A := fun _ e => ∀ k req op ans, e = .call k req op ans → ∃ n, n ≠ name ∧ CtrAbout self n op) ⟨rfl, rfl⟩
    (fun q e q' hstep hquiet hq => ?_) hrun (fun t e he k req op ans heq => ?_) (.inl rfl)
  · cases hstep with
    | arrive => exact hq
    | @call k req op cont ans t' at_call answered =>
      obtain ⟨n, hn, habout⟩ := hquiet k req op ans rfl
      obtain ⟨hcontainer, htask⟩ := hE.frame answered habout hn
      exact ⟨hcontainer.trans hq.1, htask.trans hq.2⟩
    | env moves =>
      obtain ⟨hcontainer, htask⟩ := hE.env_frame moves name
      exact ⟨hcontainer.trans hq.1, htask.trans hq.2⟩
  · subst heq
    obtain ⟨harrives, n, hnames, habout⟩ := commands_about hplain hrun he
    refine ⟨n, ?_, habout⟩
    rintro rfl
    exact hother req harrives hnames

/-- On containerd, in any interleaving of assignments, with tasks that end by
themselves and commands that fail after they have done their work: whoever is
told that a pod is there has made its container by a command of its own, where
there was none, and started it by another, where no task was left; the container
is there as it was made, or another request for the name has asked for its
deletion since. The containers that no request names are what they were, with
their tasks. -/
theorem containerd_assignments (hE : E.Documented self)
    (hplain : ∀ req pod spec, arrives req → req.For W pod spec → NoFlags W pod spec)
    (hrun : Run (E.machine self (AssignRequest.code W) arrives) (.idle t₀) l p) :
    (∀ k req reply pod spec, req.For W pod spec → p.thread k = some (req, .ret reply) →
      reply.success = true →
      ∃ created started t₁ t₂ l₁ l₂ l₃, l = l₃ ++
          (t₂, CtrCommand.step self (.start (W.containerName pod)) k req started) :: (l₂ ++
          (t₁, CtrCommand.step self (.creation (W.containerConfig pod spec)) k req created) :: l₁) ∧
        created.success = true ∧ started.success = true ∧
        (E.stock t₁).container (W.containerName pod) = none ∧
        (E.stock t₂).task (W.containerName pod) = none ∧
        ((E.stock p.state).container (W.containerName pod) =
            some (CtrCommand.made (W.containerConfig pod spec)) ∨
          ∃ t j req' ans, j ≠ k ∧ req'.Names W (W.containerName pod) ∧
            (t, .call j req' ((CtrCommand.delete (W.containerName pod)).op self) ans) ∈
              l₃ ++ (t₂, CtrCommand.step self (.start (W.containerName pod)) k req started) :: l₂)) ∧
    ∀ name, (∀ req, arrives req → ¬ req.Names W name) →
      (E.stock p.state).container name = (E.stock t₀).container name ∧
        ((E.stock p.state).task name).isSome = ((E.stock t₀).task name).isSome := by
  refine ⟨fun k req reply pod spec hfor hk hok => ?_, fun name hother => others_left hE hplain hrun hother⟩
  obtain ⟨before, created, last, started, after, hcreated, hstarted, hcalls, hlast, hafter⟩ :=
    hfor.commanded (hrun.path hk) hok
  obtain ⟨later, t₁, req₁, l₁, rfl, -, hown⟩ := History.exists_split hcalls
  obtain rfl := hrun.request_eq hk (List.mem_append_right _ List.mem_cons_self)
  obtain ⟨harrives, -⟩ := commands_about hplain hrun (List.mem_append_right later List.mem_cons_self)
  have hflags := hplain req₁ pod spec harrives hfor
  obtain ⟨q₁, q₁', rfl, -, hcreate, hlater⟩ := hrun.around
  obtain ⟨l₃, t₂, req₂, l₂, rfl, -, -⟩ := History.exists_split hown
  obtain rfl := hrun.request_eq hk (List.mem_append_left _ (List.mem_append_right l₃ List.mem_cons_self))
  obtain ⟨q₂, q₂', rfl, -, hstart, -⟩ := hlater.around
  obtain ⟨hfree, hmade⟩ := created_by hE hflags.creation_plain hcreate hcreated
  refine ⟨created, started, q₁.state, q₂.state, l₁, l₂, l₃, ?_, hcreated, hstarted, hfree,
    started_by hE hflags.1 hstart hstarted, ?_⟩
  · rw [List.append_assoc]
    rfl
  by_cases hdeleted : ∃ t e, (t, e) ∈ l₃ ++ (q₂.state, CtrCommand.step self (.start (W.containerName pod)) k
      req₂ started) :: l₂ ∧ CtrCommand.Deletes self (W.containerName pod) e
  · obtain ⟨t, e, hmem, j, req', ans, rfl⟩ := hdeleted
    refine .inr ⟨t, j, req', ans, ?_, ?_, hmem⟩
    · rintro rfl
      exact not_deleted hown hlast hafter hmem
    · obtain ⟨-, name, hnames, habout⟩ := commands_about hplain hrun (List.mem_append_left _ hmem)
      exact habout.of_command rfl ▸ hnames
  · exact .inl (container_kept hE hmade hlater fun t e he => ⟨fun hdeletes => hdeleted ⟨t, e, he, hdeletes⟩,
      fun k req op ans heq => by
        subst heq
        obtain ⟨-, n, -, habout⟩ := commands_about hplain hrun (List.mem_append_left _ he)
        exact ⟨n, habout⟩⟩)

end Run

/-! ## A run -/

/-- The runtime of a machine. -/
def cartRuntime : ContainerdRuntime := .new "/var/lib/nexa"

/-- The pod's container, as it is to be. -/
def cartConfig : ContainerConfig := Workload.plain.containerConfig cartPod ("shop", "cart")

/-- What a machine has of the pod: nothing, its container, and the container with its task. -/
def cartStock : CtrStock := ⟨fun _ => none, fun _ => none⟩

def cartCreated : CtrStock := cartStock.add cartName (CtrCommand.made cartConfig)

def cartStarted : CtrStock := cartCreated.setTask cartName (some true)

/-- And then without the task, without the container, and with another one. -/
def cartStopped : CtrStock := (cartStarted.ended cartName).setTask cartName none

def cartRemoved : CtrStock := cartStopped.remove cartName

def cartReplaced : CtrStock := cartRemoved.add cartName (CtrCommand.made cartConfig)

def cartRunning : CtrStock := cartReplaced.setTask cartName (some true)

/-- The output of a command, and of one about a container that is not there. -/
def done : CtrOutput := ⟨true, "", ""⟩

def notFound : CtrOutput := ⟨false, "", "not found"⟩

/-- A machine with containerd that is asked for the pod only. -/
def cartContainerd : Machine containerdSig CtrStock (AssignRequest Domain.plain) AssignReply :=
  (faithful cartRuntime).machine cartRuntime (AssignRequest.code Workload.plain) (· = cartRequest)

section Answers

variable {s : CtrStock}

/-- The image may be pulled at any time. -/
theorem cart_fetched : cartContainerd.answer s ((CtrCommand.pull (normalizeImageRef "nginx:1.25")).op cartRuntime)
    (.ok done : Except String CtrOutput) s := faithful_done rfl rfl

theorem cart_known (h : (s.container cartName).isSome = true) :
    cartContainerd.answer s ((CtrCommand.info cartName).op cartRuntime) (.ok done : Except String CtrOutput) s :=
  faithful_done (if_pos h) rfl

theorem cart_unknown {name : String} (h : s.container name = none) :
    cartContainerd.answer s ((CtrCommand.info name).op cartRuntime) (.ok notFound : Except String CtrOutput) s := by
  refine faithful_refused (if_neg ?_) rfl
  rw [h]
  exact Bool.false_ne_true

theorem cart_made (h : s.container cartName = none) : cartContainerd.answer s
    ((CtrCommand.creation cartConfig).op cartRuntime) (.ok done : Except String CtrOutput)
    (s.add cartName (CtrCommand.made cartConfig)) := faithful_done (if_pos h) rfl

theorem cart_run (hcontainer : (s.container cartName).isSome = true) (htask : s.task cartName = none) :
    cartContainerd.answer s ((CtrCommand.start cartName).op cartRuntime) (.ok done : Except String CtrOutput)
      (s.setTask cartName (some true)) := faithful_done (if_pos ⟨hcontainer, htask⟩) rfl

theorem cart_killed (htask : s.task cartName = some true) : cartContainerd.answer s
    ((CtrCommand.kill "SIGTERM" cartName).op cartRuntime) (.ok done : Except String CtrOutput)
    (s.ended cartName) := faithful_done (if_pos htask) rfl

theorem cart_checked : cartContainerd.answer s (CtrCommand.list.op cartRuntime)
    (.ok done : Except String CtrOutput) s := faithful_done rfl rfl

theorem cart_taskDeleted (htask : s.task cartName = some false) : cartContainerd.answer s
    ((CtrCommand.deleteTask cartName).op cartRuntime) (.ok done : Except String CtrOutput)
    (s.setTask cartName none) := faithful_done (if_pos htask) rfl

theorem cart_deleted (hcontainer : (s.container cartName).isSome = true) (htask : s.task cartName = none) :
    cartContainerd.answer s ((CtrCommand.delete cartName).op cartRuntime)
      (.ok done : Except String CtrOutput) (s.remove cartName) := by
  refine faithful_done (if_pos ⟨hcontainer, ?_⟩) rfl
  rw [htask]
  exact fun h => by cases h

theorem cart_networkEnsured : cartContainerd.answer s (.ensureNetwork cartNetwork)
    (.ok () : Except String Unit) s := rfl

theorem cart_logDirMade : cartContainerd.answer s (.ctr (.createDirAll (cartRuntime.logDir cartName)))
    (.ok () : Except String Unit) s := rfl

/-- A wait of five seconds may find its deadline not yet reached once. -/
theorem cart_waited : cartContainerd.answer s (.deadline 5) (1 : Nat) s := rfl

theorem cart_forgotten : cartContainerd.answer s (.forget cartName) () s := rfl

theorem cart_logsRemoved : cartContainerd.answer s (.removeLogs (cartRuntime.logDir cartName)) () s := rfl

end Answers

/-- One assignment makes the container, and another finds it there. -/
theorem cartCreated_container : (cartCreated.container cartName).isSome = true :=
  congrArg Option.isSome (cartStock.add_container_self cartName _)

theorem cartRemoved_container : cartRemoved.container cartName = none :=
  cartStopped.remove_container_self cartName

theorem cartRemoved_network : cartRemoved.container cartNetwork = none := by
  have hne : cartNetwork ≠ cartName := by decide
  rw [cartRemoved, CtrStock.remove_container_ne hne]
  exact cartStock.add_container_ne hne (CtrCommand.made cartConfig)

/-- Nothing of the pod is a flag to `ctr`. -/
theorem cartPod_noFlags : NoFlags Workload.plain cartPod ("shop", "cart") := by
  refine ⟨?_, ?_, fun e he => by cases he⟩
  · unfold CtrCommand.Operand
    decide
  · unfold CtrCommand.Operand
    decide

/-- It is asked for the pod twice, and the second assignment replaces what the
first has made. -/
theorem cart_commanded : ∃ l p, Run cartContainerd (.idle cartStock) l p ∧ p.state = cartRunning ∧
    p.thread 0 = some (cartRequest, .ret (.localTransport (.ok ()))) ∧
    p.thread 1 = some (cartRequest, .ret (.localTransport (.ok ()))) := by
  have hrunning : cartStarted.task cartName = some true := cartCreated.setTask_self cartName _
  have hended : (cartStarted.ended cartName).task cartName = some false := by
    rw [CtrStock.ended, CtrStock.setTask_self, hrunning]
    rfl
  have hstopped : cartStopped.task cartName = none := CtrStock.setTask_self ..
  have hreplaced : (cartReplaced.container cartName).isSome = true :=
    congrArg Option.isSome (cartRemoved.add_container_self cartName _)
  have hidle : cartReplaced.task cartName = none := cartStopped.setTask_self cartName none
  obtain ⟨a₁, c₂, c₄, hmade, hstarted⟩ : ∃ q made started,
      (cartContainerd.code cartRequest).Moves cartContainerd.answer cartStock made q cartCreated ∧
        q.Moves cartContainerd.answer cartCreated started (.ret (.localTransport (.ok ()))) cartStarted :=
    ⟨_, _, _, .call cart_fetched (.call (cart_unknown rfl) (.call (cart_unknown rfl)
      (.call cart_networkEnsured (.call (cart_made rfl) (.refl _ _))))),
      .call cart_logDirMade (.call (cart_run cartCreated_container rfl) (.refl _ _))⟩
  obtain ⟨b₁, b₂, c₁, c₃, c₅, hpulled, hseen, hagain⟩ : ∃ q₁ q₂ pulled found replaced,
      (cartContainerd.code cartRequest).Moves cartContainerd.answer cartStock pulled q₁ cartStock ∧
        q₁.Moves cartContainerd.answer cartCreated found q₂ cartCreated ∧
        q₂.Moves cartContainerd.answer cartStarted replaced (.ret (.localTransport (.ok ()))) cartRunning :=
    ⟨_, _, _, _, _, .call cart_fetched (.refl _ _), .call (cart_known cartCreated_container) (.refl _ _),
      .call cart_waited (.call (cart_killed hrunning) (.call cart_checked (.call (cart_taskDeleted hended)
        (.call (cart_deleted cartCreated_container hstopped) (.call cart_forgotten (.call cart_logsRemoved
          (.call (cart_unknown cartRemoved_network) (.call cart_networkEnsured
            (.call (cart_made cartRemoved_container) (.call cart_logDirMade
              (.call (cart_run hreplaced hidle) (.refl _ _))))))))))))⟩
  obtain ⟨l₀, p₀, harrived, hs, ha, hb⟩ : ∃ l p, Run cartContainerd (.idle cartStock) l p ∧
      p.state = cartStock ∧ p.thread 0 = some (cartRequest, cartContainerd.code cartRequest) ∧
        p.thread 1 = some (cartRequest, cartContainerd.code cartRequest) :=
    ⟨_, _, (Run.start cartContainerd _).arrive 0 cartRequest rfl rfl |>.arrive 1 cartRequest rfl rfl,
      rfl, rfl, rfl⟩
  obtain ⟨l, p, hserved, hstate, h₀, h₁⟩ :=
    Run.turns (by decide) hs ha hb hpulled hmade hseen hstarted hagain
  exact ⟨_, p, harrived.trans hserved, hstate, h₀, h₁⟩

/-- Each of the two has made the container where there was none, and started it
where no task was left; it is there, or the other has asked for its deletion. -/
theorem containerd_assignments_cart : ∃ l p, Run cartContainerd (.idle cartStock) l p ∧
    p.state = cartRunning ∧ ∀ k < 2, p.thread k = some (cartRequest, .ret (.localTransport (.ok ()))) ∧
      ∃ created started t₁ t₂ l₁ l₂ l₃, l = l₃ ++
          (t₂, CtrCommand.step cartRuntime (.start cartName) k cartRequest started) :: (l₂ ++
          (t₁, CtrCommand.step cartRuntime (.creation cartConfig) k cartRequest created) :: l₁) ∧
        t₁.container cartName = none ∧ t₂.task cartName = none ∧
        (p.state.container cartName = some (CtrCommand.made cartConfig) ∨
          ∃ t j req' ans, j ≠ k ∧ req'.Names Workload.plain cartName ∧
            (t, .call j req' ((CtrCommand.delete cartName).op cartRuntime) ans) ∈
              l₃ ++ (t₂, CtrCommand.step cartRuntime (.start cartName) k cartRequest started) :: l₂) := by
  obtain ⟨l, p, hrun, hstate, h₀, h₁⟩ := cart_commanded
  have hplain : ∀ req pod spec, req = cartRequest → req.For Workload.plain pod spec →
      NoFlags Workload.plain pod spec := by
    rintro req pod spec rfl hfor
    obtain ⟨rfl, rfl⟩ := cartRequest_for hfor
    exact cartPod_noFlags
  obtain ⟨hmade, -⟩ := containerd_assignments (faithful_documented cartRuntime) hplain hrun
  refine ⟨l, p, hrun, hstate, fun k hk => ?_⟩
  have hreplied : p.thread k = some (cartRequest, .ret (.localTransport (.ok ()))) := by
    obtain rfl | rfl : k = 0 ∨ k = 1 := by omega
    · exact h₀
    · exact h₁
  obtain ⟨created, started, t₁, t₂, l₁, l₂, l₃, hl, -, -, hfree, htask, hfate⟩ :=
    hmade k cartRequest _ cartPod ("shop", "cart") (.localTransport _ _) hreplied rfl
  exact ⟨hreplied, created, started, t₁, t₂, l₁, l₂, l₃, hl, hfree, htask, hfate⟩

end Nexad
