import Nexad.Base.Handlers
import Nexad.Runtime.Host
import Nexad.Runtime.Images

/-!
# The Docker runtime over its daemon

The calls of the port as `DockerRuntime` carries them out: each is one request
to the daemon. `Engine` stands for a daemon, of which nothing is known but what
its interface documents (`Engine.Documented`): it names a container by its name,
by its id or by the beginning of its id, and a request that fails has done its
work or not.
-/

namespace Nexad.Runtime

open Interleave

/-- The fields of `ListContainersOptions` that the runtime sets. -/
structure ListContainersOptions where
  all : Bool
  filters : List (String × List String)
  deriving DecidableEq, Repr

/-- A container in a list, as far as it is looked at. -/
structure ContainerSummary where
  names : Option (List String)
  deriving DecidableEq, Repr

structure StopContainerOptions where
  t : Int64
  deriving DecidableEq

/-- The fields of `RemoveContainerOptions` that the runtime sets. -/
structure RemoveContainerOptions where
  force : Bool
  v : Bool
  deriving DecidableEq, Repr

/-- The fields of `CreateNetworkOptions` that the runtime sets. -/
structure CreateNetworkOptions where
  name : String
  driver : String
  labels : TextMap
  deriving DecidableEq

/-- The requests to the daemon that the calls of the port come to. -/
inductive EngineOp where
  | image (op : ImageOp)
  | docker (op : DockerOp)
  | listContainers (options : ListContainersOptions)
  | startContainer (id : String)
  | stopContainer (id : String) (options : StopContainerOptions)
  | removeContainer (id : String) (options : RemoveContainerOptions)
  | createNetwork (options : CreateNetworkOptions)

/-- Making a network answers with its id. -/
abbrev engineSig : Sig where
  Op := EngineOp
  Ans
    | .image op => imageSig.Ans op
    | .docker op => dockerSig.Ans op
    | .listContainers _ => Except String (List ContainerSummary)
    | .createNetwork _ => Except String String
    | _ => Except String Unit

namespace DockerRuntime

/-- The requests of `pull_image` and of `create_container`. -/
def image : Handler imageSig engineSig := fun op => .call (.image op) .ret

def docker : Handler dockerSig engineSig := fun op => .call (.docker op) .ret

/-- `DockerRuntime::start_container`. -/
def startContainer (id : String) : Prog engineSig (Except NexaError Unit) :=
  .call (.startContainer id) fun (ans : Except String Unit) => .ret (ans.mapError NexaError.runtime)

/-- `DockerRuntime::stop_container`. -/
def stopContainer (id : String) (timeoutSecs : UInt64) : Prog engineSig (Except NexaError Unit) :=
  .call (.stopContainer id ⟨timeoutSecs.toInt64⟩)
    fun (ans : Except String Unit) => .ret (ans.mapError NexaError.runtime)

/-- `DockerRuntime::remove_container`. -/
def removeContainer (id : String) (force : Bool) : Prog engineSig (Except NexaError Unit) :=
  .call (.removeContainer id ⟨force, true⟩)
    fun (ans : Except String Unit) => .ret (ans.mapError NexaError.runtime)

/-- What `container_exists` asks for: all containers whose name matches. -/
def listOptions (name : String) : ListContainersOptions := ⟨true, [("name", [name])]⟩

/-- A container of this very name is in the list. -/
def listed (name : String) (containers : List ContainerSummary) : Bool :=
  containers.any fun c => c.names.any fun names => names.contains ("/" ++ name)

/-- `DockerRuntime::container_exists`. -/
def containerExists (name : String) : Prog engineSig (Except NexaError Bool) :=
  .call (.listContainers (listOptions name)) fun (ans : Except String (List ContainerSummary)) =>
    .ret ((ans.map (listed name)).mapError NexaError.runtime)

/-- What `create_network` asks for. -/
def networkOptions (name : String) : CreateNetworkOptions where
  name
  driver := "bridge"
  labels := (∅ : TextMap).insert "managed-by" "nexanet"

/-- `DockerRuntime::create_network`. -/
def createNetwork (name : String) : Prog engineSig (Except NexaError String) :=
  .call (.createNetwork (networkOptions name))
    fun (ans : Except String String) => .ret (ans.mapError NexaError.runtime)

/-- A pull that failed. That it is a pull that failed, no caller of the port looks at. -/
def pulled (ans : Except PullError Unit) : Except NexaError Unit :=
  ans.mapError fun | .imagePull message => .runtime message

/-- The port, carried out by `DockerRuntime`. -/
def serve : Handler runtimeSig engineSig
  | .pullImage i => ((pullImage i).via image).bind fun ans => .ret (pulled ans)
  | .containerExists name => containerExists name
  | .stopContainer id timeoutSecs => stopContainer id timeoutSecs
  | .removeContainer id force => removeContainer id force
  | .createNetwork name => createNetwork name
  | .createContainer config => (createContainer config).via docker
  | .startContainer id => startContainer id

/-- The request of a call. -/
def requestOf : RuntimeOp → EngineOp
  | .pullImage i => .image (.createImage (createImageOptions i))
  | .containerExists name => .listContainers (listOptions name)
  | .stopContainer id timeoutSecs => .stopContainer id ⟨timeoutSecs.toInt64⟩
  | .removeContainer id force => .removeContainer id ⟨force, true⟩
  | .createNetwork name => .createNetwork (networkOptions name)
  | .createContainer config => .docker (.createContainer ⟨config.name, none⟩ (createConfig config))
  | .startContainer id => .startContainer id

/-- What the answer to its request comes to. -/
def answerOf : (op : RuntimeOp) → engineSig.Ans (requestOf op) → runtimeSig.Ans op
  | .pullImage _ => fun (stream : List (Except String Unit)) =>
    pulled ((stream.forM id).mapError PullError.imagePull)
  | .containerExists name => fun (ans : Except String (List ContainerSummary)) =>
    (ans.map (listed name)).mapError NexaError.runtime
  | .stopContainer .. => fun (ans : Except String Unit) => ans.mapError NexaError.runtime
  | .removeContainer .. => fun (ans : Except String Unit) => ans.mapError NexaError.runtime
  | .createNetwork _ => fun (ans : Except String String) => ans.mapError NexaError.runtime
  | .createContainer _ => fun (ans : Except String String) => ans.mapError NexaError.runtime
  | .startContainer _ => fun (ans : Except String Unit) => ans.mapError NexaError.runtime

theorem serve_eq (op : RuntimeOp) :
    serve op = .call (requestOf op) fun ans => .ret (answerOf op ans) := by
  cases op <;> rfl

/-- Each call of the port is one request. -/
def single : serve.Single := ⟨requestOf, answerOf, serve_eq⟩

end DockerRuntime

/-! ## The daemon -/

/-- A container of the daemon. -/
structure EngineContainer where
  id : String
  config : DockerConfig
  running : Bool
  deriving DecidableEq

/-- The containers of a daemon under their names, and the names of its networks. -/
structure Stock where
  container : String → Option EngineContainer
  networks : List String

namespace Stock

/-- Set the flag of a container. -/
def switch (s : Stock) (name : String) (running : Bool) : Stock :=
  { s with container := fun n =>
      if n = name then (s.container n).map ({ · with running := running }) else s.container n }

def remove (s : Stock) (name : String) : Stock :=
  { s with container := fun n => if n = name then none else s.container n }

def add (s : Stock) (name : String) (c : EngineContainer) : Stock :=
  { s with container := fun n => if n = name then some c else s.container n }

def addNetwork (s : Stock) (name : String) : Stock :=
  { s with networks := name :: s.networks }

/-- A reference may mean the container of this name: it is its name, its id, or
the beginning of its id. -/
def Meant (s : Stock) (ref name : String) : Prop :=
  ∃ c, s.container name = some c ∧ (name = ref ∨ ref.toList <+: c.id.toList)

/-- A request that succeeds leaves what `done` says, one that fails that, or nothing new. -/
def Outcome {β : Type} (s : Stock) (done : β → Stock → Prop) : Except String β → Stock → Prop
  | .ok b, s' => done b s'
  | .error _, s' => s' = s ∨ ∃ b, done b s'

end Stock

def hexDigits : List Char := "0123456789abcdef".toList

/-- The form of an id. -/
def IsId (id : String) : Prop := id.toList.length = 64 ∧ ∀ c ∈ id.toList, c ∈ hexDigits

/-- A daemon: how it answers, how it moves by itself, and what is there. -/
structure Engine where
  State : Type
  answer : State → (op : EngineOp) → engineSig.Ans op → State → Prop
  env : State → State → Prop
  stock : State → Stock

/-- What is documented of a daemon. -/
structure Engine.Documented (E : Engine) : Prop where
  ids : ∀ {t name c}, (E.stock t).container name = some c → IsId c.id
  ids_unique : ∀ {t name name' c c'}, (E.stock t).container name = some c →
    (E.stock t).container name' = some c' → c.id = c'.id → name = name'
  image : ∀ {t op ans t'}, E.answer t (.image op) ans t' → E.stock t' = E.stock t
  list : ∀ {t options} {ans : Except String (List ContainerSummary)} {t'},
    E.answer t (.listContainers options) ans t' → E.stock t' = E.stock t
  /-- A list of all containers whose name matches has the one of this name, if
  there is one, under the name after a slash. -/
  listed : ∀ {t name} {containers : List ContainerSummary} {t'},
    E.answer t (.listContainers ⟨true, [("name", [name])]⟩) (.ok containers) t' → '/' ∉ name.toList →
    ((∃ c ∈ containers, ∃ names, c.names = some names ∧ "/" ++ name ∈ names) ↔
      ((E.stock t).container name).isSome)
  stop : ∀ {t ref options} {ans : Except String Unit} {t'},
    E.answer t (.stopContainer ref options) ans t' → (E.stock t).Outcome
      (fun _ s' => ∃ name, (E.stock t).Meant ref name ∧ s' = (E.stock t).switch name false) ans (E.stock t')
  /-- A container is stopped before it is removed. -/
  remove : ∀ {t ref options} {ans : Except String Unit} {t'},
    E.answer t (.removeContainer ref options) ans t' → ∃ u : Stock,
      (u = E.stock t ∨ ∃ name, (E.stock t).Meant ref name ∧ u = (E.stock t).switch name false) ∧
      u.Outcome (fun _ s' => ∃ name, u.Meant ref name ∧ s' = u.remove name) ans (E.stock t')
  create : ∀ {t options config} {ans : Except String String} {t'},
    E.answer t (.docker (.createContainer options config)) ans t' → (E.stock t).Outcome
      (fun id s' => (E.stock t).container options.name = none ∧
        s' = (E.stock t).add options.name ⟨id, config, false⟩) ans (E.stock t')
  start : ∀ {t ref} {ans : Except String Unit} {t'},
    E.answer t (.startContainer ref) ans t' → (E.stock t).Outcome
      (fun _ s' => ∃ name, (E.stock t).Meant ref name ∧ s' = (E.stock t).switch name true) ans (E.stock t')
  network : ∀ {t options} {ans : Except String String} {t'},
    E.answer t (.createNetwork options) ans t' → (E.stock t).Outcome
      (fun _ s' => s' = (E.stock t).addNetwork options.name) ans (E.stock t')
  /-- What a daemon does by itself is that a container comes to its end. -/
  env : ∀ {t t'}, E.env t t' →
    E.stock t' = E.stock t ∨ ∃ name, E.stock t' = (E.stock t).switch name false

/-- Programs over the port, carried out by `DockerRuntime` over a daemon. -/
def Engine.machine (E : Engine) {ρ α : Type} (code : ρ → Prog runtimeSig α) (arrives : ρ → Prop) :
    Machine engineSig E.State ρ α where
  code := fun req => (code req).via DockerRuntime.serve
  arrives := arrives
  answer := E.answer
  env := E.env

end Nexad.Runtime
