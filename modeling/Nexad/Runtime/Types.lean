import Mathlib.Data.List.AList
import Nexad.Base.Interleave
import Nexad.Base.Text
import Nexad.Core.Models

/-!
# The port of a container runtime

What the daemon asks of a runtime, and the events a runtime reports. A map of
texts is the list of its entries, in the order in which they are iterated.
-/

namespace Nexad.Runtime

open Interleave

/-- A `HashMap` from texts to texts. -/
abbrev TextMap := AList fun _ : String => String

/-- A port of a container, and the one of the host it is bound to. -/
structure PortBinding where
  containerPort : UInt16
  hostPort : Option UInt16
  deriving DecidableEq, Repr

/-- A directory of the host, and where a container sees it. -/
structure VolumeBinding where
  source : String
  target : String
  readOnly : Bool
  deriving DecidableEq, Repr

/-- What a container is made from. -/
structure ContainerConfig where
  name : String
  image : String
  command : List String
  env : TextMap
  ports : List PortBinding
  volumes : List VolumeBinding
  labels : TextMap
  network : Option String
  dns : List String
  dnsSearch : List String
  deriving DecidableEq

/-- The state of a container. -/
inductive ContainerState where
  | created
  | running
  | paused
  | restarting
  | removing
  | exited
  | dead
  | unknown
  deriving DecidableEq, Repr

/-- What an inspection tells. -/
structure ContainerInfo where
  id : String
  name : String
  image : String
  state : ContainerState
  deriving DecidableEq, Repr

/-- What a runtime reports about its containers. -/
inductive RuntimeEvent where
  | containerDied (containerId : String) (exitCode : Int64)
  | containerOom (containerId : String)
  | containerStarted (containerId : String)
  deriving DecidableEq, Repr

/-- The calls of `ContainerRuntime` that an assignment makes. -/
inductive RuntimeOp where
  | pullImage (image : String)
  | containerExists (name : String)
  | stopContainer (id : String) (timeoutSecs : UInt64)
  | removeContainer (id : String) (force : Bool)
  | createNetwork (name : String)
  | createContainer (config : ContainerConfig)
  | startContainer (id : String)
  deriving DecidableEq

/-- Making a network or a container answers with its id. -/
abbrev runtimeSig : Sig where
  Op := RuntimeOp
  Ans
    | .containerExists _ => Except NexaError Bool
    | .createNetwork _ | .createContainer _ => Except NexaError String
    | _ => Except NexaError Unit

/-- `str::parse::<i64>`. -/
def parseI64 (s : List Char) : Option Int64 :=
  (Text.parseSigned 64 s).map Int64.ofInt

/-- The decimal text of a 64-bit integer is read back. -/
theorem parseI64_decimal (n : Int64) : parseI64 (Text.decimal n.toInt) = some n := by
  have hparse : Text.parseSigned 64 (Text.decimal n.toInt) = some n.toInt :=
    Text.parseSigned_decimal n.le_toInt n.toInt_lt
  rw [parseI64, hparse, Option.map_some, Int64.ofInt_toInt]

end Nexad.Runtime
