import Nexad.Base.Handlers
import Nexad.Runtime.Images
import Nexad.Runtime.Tasks

/-!
# The containerd runtime over its daemon

The calls of the port as `ContainerdRuntime` carries them out: each is one run of
`ctr` or several, and others may come in between. `Containerd` stands for what
`ctr` works on, of which nothing is known but what the commands document
(`Containerd.Documented`). A container and its task are two things there: a task
that runs is not deleted, and a container with such a task is not either.
-/

namespace Nexad.Runtime

open Interleave

/-- What the calls of the port come to: commands, the clock, the map of network
namespaces, the logs, and the networks, which `CniManager` keeps. -/
inductive ContainerdOp where
  | ctr (op : CtrOp)
  /-- How often a wait finds its deadline not yet reached. -/
  | deadline (timeoutSecs : UInt64)
  | insertNetns (id path : String)
  /-- The container is taken out of both maps. -/
  | forget (id : String)
  | removeLogs (path : String)
  | ensureNetwork (name : String)

abbrev containerdSig : Sig where
  Op := ContainerdOp
  Ans
    | .ctr op => ctrSig.Ans op
    | .deadline _ => Nat
    | .ensureNetwork _ => Except String Unit
    | _ => Unit

namespace ContainerdRuntime

/-- The commands of an operation. -/
def commands : Handler ctrSig containerdSig := fun op => .call (.ctr op) .ret

variable (self : ContainerdRuntime)

/-- `ContainerdRuntime::start_container`. -/
def startContainer (id : String) : Prog containerdSig (Except NexaError Unit) :=
  .call (.ctr (.output ["--namespace", self.nspace, "tasks", "start", "--detach", id])) fun
    | .error e => .ret (.error (.runtime s!"failed to run ctr tasks start: {e}"))
    | .ok (output : CtrOutput) =>
      if output.success then
        match Text.parseUnsigned (2 ^ 64) (Text.trim output.stdout.toList) with
        | some pid => .call (.insertNetns id s!"/proc/{pid}/ns/net") fun _ => .ret (.ok ())
        | none => .ret (.ok ())
      else
        let stderr := String.ofList (Text.trim output.stderr.toList)
        .ret (.error (.runtime s!"ctr tasks start failed: {stderr}"))

/-- The commands of `remove_container`: whether the task could be deleted does not matter. -/
def deleteContainer (id : String) : Prog ctrSig (Except NexaError Unit) :=
  self.ctr ["tasks", "delete", id] fun _ =>
    self.ctrOk ["containers", "delete", id] fun _ => .ret (.ok ())

/-- `ContainerdRuntime::remove_container`, which does no more when it is forced. -/
def removeContainer (id : String) (_force : Bool) : Prog containerdSig (Except NexaError Unit) :=
  ((self.deleteContainer id).via commands).bind fun
    | .error e => .ret (.error e)
    | .ok () => .call (.forget id) fun _ => .call (.removeLogs (self.logDir id)) fun _ => .ret (.ok ())

/-- `ContainerdRuntime::container_exists`. -/
def containerExists (name : String) : Prog ctrSig (Except NexaError Bool) :=
  self.ctr ["containers", "info", name] fun output => .ret (.ok output.success)

/-- `ContainerdRuntime::create_network`. -/
def createNetwork (name : String) : Prog containerdSig (Except NexaError String) :=
  .call (.ensureNetwork name) fun
    | .error e => .ret (.error (.runtime s!"create network: {e}"))
    | .ok () => .ret (.ok name)

/-- The port, carried out by `ContainerdRuntime`. -/
def serve : Handler runtimeSig containerdSig
  | .pullImage image => (self.pullImage image).via commands
  | .containerExists name => (self.containerExists name).via commands
  | .stopContainer id timeoutSecs => .call (.deadline timeoutSecs) fun (rounds : Nat) =>
    (self.stopContainer id rounds).via commands
  | .removeContainer id force => self.removeContainer id force
  | .createNetwork name => createNetwork name
  | .createContainer config => (self.createContainer config).via commands
  | .startContainer id => self.startContainer id

end ContainerdRuntime

/-! ## The daemon -/

/-- The commands that the runtime runs. -/
inductive CtrCommand where
  | pull (image : String)
  | create (image name : String) (flags : List String)
  | info (name : String)
  | start (name : String)
  | kill (signal name : String)
  | list
  | deleteTask (name : String)
  | delete (name : String)

namespace CtrCommand

def args : CtrCommand → List String
  | .pull image => ["images", "pull", image]
  | .create image name flags => "containers" :: "create" :: image :: name :: flags
  | .info name => ["containers", "info", name]
  | .start name => ["tasks", "start", "--detach", name]
  | .kill signal name => ["tasks", "kill", "--signal", signal, name]
  | .list => ["tasks", "list"]
  | .deleteTask name => ["tasks", "delete", name]
  | .delete name => ["containers", "delete", name]

/-- The container that a command may change. -/
def about : CtrCommand → Option String
  | .pull _ | .info _ | .list => none
  | .create _ name _ | .start name | .kill _ name | .deleteTask name | .delete name => some name

/-- The flags of a new container. -/
def flags (config : ContainerConfig) : List String :=
  (config.env.entries.flatMap fun e => ["--env", s!"{e.1}={e.2}"]) ++
    (config.labels.entries.flatMap fun e => ["--label", s!"{e.1}={e.2}"]) ++
    config.volumes.flatMap ContainerdRuntime.mount

/-- The command that makes the container of a config. -/
def creation (config : ContainerConfig) : CtrCommand :=
  .create (normalizeImageRef config.image) config.name (flags config)

/-- What containerd keeps of the container of a config: the reference of its
image, and the flags. -/
def made (config : ContainerConfig) : List String := normalizeImageRef config.image :: flags config

/-- An argument that `ctr` does not take for a flag. -/
def Operand (arg : String) : Prop := arg.toList.head? ≠ some '-'

/-- `ctr` takes nothing that the command is given for a flag. -/
def Plain : CtrCommand → Prop
  | .pull image => Operand image
  | .create image name flags => Operand image ∧ Operand name ∧
    ∀ flag ∈ flags, flag ∈ ["--env", "--label", "--mount"] ∨ Operand flag
  | .info name | .start name | .kill _ name | .deleteTask name | .delete name => Operand name
  | .list => True

/-- The command in the namespace of the runtime. -/
def op (self : ContainerdRuntime) (c : CtrCommand) : ContainerdOp :=
  .ctr (.output ("--namespace" :: self.nspace :: c.args))

end CtrCommand

/-- The containers with the image and the flags they were created from, and the
tasks, each with whether it runs. -/
structure CtrStock where
  container : String → Option (List String)
  task : String → Option Bool

namespace CtrStock

def add (s : CtrStock) (name : String) (made : List String) : CtrStock :=
  { s with container := fun n => if n = name then some made else s.container n }

def setTask (s : CtrStock) (name : String) (task : Option Bool) : CtrStock :=
  { s with task := fun n => if n = name then task else s.task n }

/-- A container is gone, with its task. -/
def remove (s : CtrStock) (name : String) : CtrStock :=
  { s.setTask name none with container := fun n => if n = name then none else s.container n }

/-- The task of this name, if it runs, has come to its end. -/
def ended (s : CtrStock) (name : String) : CtrStock := s.setTask name ((s.task name).map fun _ => false)

/-- What a command that succeeds may come to. -/
def Does (s : CtrStock) : CtrCommand → CtrStock → Prop
  | .pull _, s' | .info _, s' | .list, s' => s' = s
  | .create image name flags, s' => s.container name = none ∧ s' = s.add name (image :: flags)
  | .start name, s' => s.task name = none ∧ s' = s.setTask name (some true)
  | .kill _ name, s' => s' = s ∨ s' = s.ended name
  | .deleteTask name, s' => s.task name = some false ∧ s' = s.setTask name none
  | .delete name, s' => s.task name ≠ some true ∧ s' = s.remove name

/-- What a command that fails may come to: all of what it does, or something with
the task it is about. -/
def Fails (s : CtrStock) (c : CtrCommand) (s' : CtrStock) : Prop :=
  s.Does c s' ∨ s'.container = s.container ∧ ∀ n, c.about ≠ some n → s'.task n = s.task n

end CtrStock

/-- What `ctr` works on. -/
structure Containerd where
  State : Type
  answer : State → (op : ContainerdOp) → containerdSig.Ans op → State → Prop
  env : State → State → Prop
  stock : State → CtrStock

/-- An operation that runs no command. -/
def ContainerdOp.Quiet : ContainerdOp → Prop
  | .ctr (.output _) | .ctr (.spawn _) => False
  | _ => True

/-- What is documented of the commands that a runtime runs. -/
structure Containerd.Documented (E : Containerd) (runtime : ContainerdRuntime) : Prop where
  command : ∀ {t c} {ans : Except String CtrOutput} {t'}, CtrCommand.Plain c →
    E.answer t (CtrCommand.op runtime c) ans t' →
    (∃ output, ans = .ok output ∧ output.success = true ∧ (E.stock t).Does c (E.stock t')) ∨
      (∀ output, ans = .ok output → output.success = false) ∧ (E.stock t).Fails c (E.stock t')
  quiet : ∀ {t op ans t'}, E.answer t op ans t' → op.Quiet → E.stock t' = E.stock t
  /-- What happens by itself is that a task comes to its end. -/
  env : ∀ {t t'}, E.env t t' →
    E.stock t' = E.stock t ∨ ∃ name, E.stock t' = (E.stock t).ended name

/-- Programs over the port, carried out by a `ContainerdRuntime`. -/
def Containerd.machine (E : Containerd) (self : ContainerdRuntime) {ρ α : Type}
    (code : ρ → Prog runtimeSig α) (arrives : ρ → Prop) : Machine containerdSig E.State ρ α where
  code := fun req => (code req).via self.serve
  arrives := arrives
  answer := E.answer
  env := E.env

end Nexad.Runtime
