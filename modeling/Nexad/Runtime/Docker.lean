import Nexad.Runtime.Types

/-!
# The Docker runtime

`DockerRuntime`, as far as a pod's container comes to be and its end is
reported: the request that makes a container, the subscription to the daemon's
events, and the reading of each of them. The client library carries requests
to the daemon and answers to the runtime as they are.
-/

namespace Nexad.Runtime

open Interleave

/-- `bollard`'s `PortBinding`. -/
structure BollardPortBinding where
  hostIp : Option String
  hostPort : Option String
  deriving DecidableEq, Repr

/-- The fields of `HostConfig` that the runtime sets. -/
structure HostConfig where
  portBindings : Option (AList fun _ : String => Option (List BollardPortBinding))
  binds : Option (List String)
  networkMode : Option String
  dns : Option (List String)
  dnsSearch : Option (List String)
  deriving DecidableEq

/-- The fields of `Config` that the runtime sets. -/
structure DockerConfig where
  image : Option String
  cmd : Option (List String)
  env : Option (List String)
  /-- Each port with an empty object. -/
  exposedPorts : Option (AList fun _ : String => Unit)
  labels : Option TextMap
  hostConfig : Option HostConfig
  deriving DecidableEq

structure CreateContainerOptions where
  name : String
  platform : Option String
  deriving DecidableEq, Repr

/-- The container that an event is about. -/
structure EventActor where
  attributes : Option TextMap
  deriving DecidableEq

structure EventMessage where
  action : Option String
  actor : Option EventActor
  deriving DecidableEq

/-- Which events the daemon sends, without a bound in time. -/
structure EventsOptions where
  filters : List (String × List String)
  deriving DecidableEq, Repr

inductive DockerOp where
  | createContainer (options : CreateContainerOptions) (config : DockerConfig)
  | events (options : EventsOptions)
  deriving DecidableEq

/-- Making a container answers with its id, a subscription with what comes in over it. -/
abbrev dockerSig : Sig where
  Op := DockerOp
  Ans
    | .createContainer .. => Except String String
    | .events _ => List (Except String EventMessage)

namespace DockerRuntime

/-- A port, as the daemon names it. -/
def portKey (port : PortBinding) : String := s!"{port.containerPort}/tcp"

/-- A port is bound on every address of the host. -/
def portBindings (ports : List PortBinding) :
    AList fun _ : String => Option (List BollardPortBinding) :=
  ports.foldl (fun m port => m.insert (portKey port)
    (some [⟨some "0.0.0.0", port.hostPort.map fun p => s!"{p}"⟩])) ∅

def exposedPorts (ports : List PortBinding) : AList fun _ : String => Unit :=
  ports.foldl (fun m port => m.insert (portKey port) ()) ∅

def bind (v : VolumeBinding) : String :=
  if v.readOnly then s!"{v.source}:{v.target}:ro" else s!"{v.source}:{v.target}"

/-- A list that is left out when it is empty. -/
def unlessEmpty (l : List String) : Option (List String) := if l.isEmpty then none else some l

/-- What `create_container` asks the daemon for. -/
def createConfig (config : ContainerConfig) : DockerConfig where
  image := some config.image
  cmd := unlessEmpty config.command
  env := some (config.env.entries.map fun e => s!"{e.1}={e.2}")
  exposedPorts := some (exposedPorts config.ports)
  labels := some config.labels
  hostConfig := some {
    portBindings := some (portBindings config.ports)
    binds := some (config.volumes.map bind)
    networkMode := config.network
    dns := unlessEmpty config.dns
    dnsSearch := unlessEmpty config.dnsSearch }

/-- `DockerRuntime::create_container`. -/
def createContainer (config : ContainerConfig) : Prog dockerSig (Except NexaError String) :=
  .call (.createContainer ⟨config.name, none⟩ (createConfig config))
    fun (ans : Except String String) => .ret (ans.mapError NexaError.runtime)

/-- What `events` subscribes to. -/
def eventsOptions : EventsOptions where
  filters := [("type", ["container"]), ("event", ["die", "start", "oom"]),
    ("label", ["managed-by=nexanet"])]

/-- The event of a message, for the container its pod's id names. -/
def toEvent : Except String EventMessage → Option RuntimeEvent
  | .error _ => none
  | .ok event =>
    let attr (key : String) : Option String :=
      (event.actor.bind (·.attributes)).bind (·.lookup key)
    let containerId := (attr "nexa.pod-id").getD ""
    match event.action.getD "" with
    | "die" =>
      let exitCode := ((attr "exitCode").bind fun code => parseI64 code.toList).getD (-1)
      some (.containerDied containerId exitCode)
    | "start" => some (.containerStarted containerId)
    | "oom" => some (.containerOom containerId)
    | _ => none

/-- `DockerRuntime::events`. -/
def events : Prog dockerSig (Except NexaError (List RuntimeEvent)) :=
  .call (.events eventsOptions)
    fun (stream : List (Except String EventMessage)) => .ret (.ok (stream.filterMap toEvent))

end DockerRuntime

end Nexad.Runtime
