import Nexad.Runtime.Types

/-!
# The event watcher

`handle_event_stream` turns a runtime's events into commands for the
orchestrator, and on the way counts and announces each of them. It stops at
the end of the stream, or when the orchestrator no longer takes commands.
-/

namespace Nexad.Runtime

open Interleave

/-- The command that the watcher gives the orchestrator. -/
inductive Command where
  | containerExited (podId : Uuid) (exitCode : Int64)
  deriving DecidableEq, Repr

/-- What the watcher announces to the clients of the API. -/
structure ClusterEvent where
  timestamp : DateTime
  kind : String
  name : String
  action : String
  message : String
  deriving DecidableEq, Repr

inductive WatchOp where
  | recordContainerEvent (kind : String)
  | now
  | broadcast (event : ClusterEvent)
  | send (cmd : Command)
  deriving DecidableEq

/-- A command is answered with whether the orchestrator's channel is closed. -/
abbrev watchSig : Sig where
  Op := WatchOp
  Ans
    | .now => DateTime
    | .send _ => Bool
    | _ => Unit

/-- Whether the watcher was given metrics to count in, and a channel to announce on. -/
structure Watcher where
  metrics : Bool
  eventBroadcast : Bool
  deriving DecidableEq, Repr

namespace Watcher

variable (D : Domain) (self : Watcher)

def record (kind : String) (rest : Prog watchSig Unit) : Prog watchSig Unit :=
  if self.metrics then .call (.recordContainerEvent kind) fun _ => rest else rest

def announce (name action message : String) (rest : Prog watchSig Unit) : Prog watchSig Unit :=
  if self.eventBroadcast then
    .call .now fun (timestamp : DateTime) =>
      .call (.broadcast ⟨timestamp, "pod", name, action, message⟩) fun _ => rest
  else rest

/-- `extract_pod_id`. -/
def extractPodId (containerId : String) : Option Uuid := (D.uuid.parse containerId).toOption

/-- Report the exit of a pod's container, when the id of the container is a pod's. -/
def report (containerId : String) (exitCode : Int64) (rest : Prog watchSig Unit) :
    Prog watchSig Unit :=
  match extractPodId D containerId with
  | none => rest
  | some podId => .call (.send (.containerExited podId exitCode)) fun (closed : Bool) =>
    if closed then .ret () else rest

/-- `handle_event_stream`, over the events of its stream. -/
def handleEventStream : List RuntimeEvent → Prog watchSig Unit
  | [] => .ret ()
  | .containerDied containerId exitCode :: rest =>
    self.record "died" <|
    self.announce containerId (if exitCode = 137 then "OOMKilled" else "died")
      s!"Container exited with code {exitCode}" <|
    report D containerId exitCode (handleEventStream rest)
  | .containerOom containerId :: rest =>
    self.record "oom" <|
    self.announce containerId "OOMKilled" "Container killed by OOM" <|
    report D containerId 137 (handleEventStream rest)
  | .containerStarted containerId :: rest =>
    self.record "started" <|
    self.announce containerId "started" "Container started" (handleEventStream rest)

end Watcher

end Nexad.Runtime
