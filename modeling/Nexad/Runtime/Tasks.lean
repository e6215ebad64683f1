import Nexad.Base.Lines
import Nexad.Runtime.Containerd

/-!
# The tasks of containerd

`stop_container` and `inspect_container` of `ContainerdRuntime`. Whether a
container runs is read off the lines of `ctr tasks list`. While it waits for a
container to stop the runtime looks at the clock before each list: how often it
finds the deadline not yet reached is a parameter.
-/

namespace Nexad.Runtime.ContainerdRuntime

open Interleave

/-- The last word of a line. -/
def lastWord (line : List Char) : Option (List Char) :=
  ((line.splitOnP Text.isWhiteSpace).filter (!·.isEmpty)).getLast?

/-- The image in the output of `ctr containers info`. -/
def imageOf (infoOutput : String) : String :=
  let line := (Lines.lines infoOutput.toList).find? fun line =>
    Text.contains "Image:".toList line || Text.contains "image:".toList line
  ((line.bind lastWord).map String.ofList).getD "unknown"

/-- The state that a line of `ctr tasks list` shows. -/
def lineState (line : List Char) : ContainerState :=
  if Text.contains "RUNNING".toList line then .running
  else if Text.contains "STOPPED".toList line then .exited
  else if Text.contains "PAUSED".toList line then .paused
  else if Text.contains "CREATED".toList line then .created
  else .unknown

/-- The state of a container in the output of `ctr tasks list`, that of a
container without a task if no line is about it. -/
def taskState (id tasksStdout : String) : ContainerState :=
  (((Lines.lines tasksStdout.toList).find? (Text.contains id.toList)).map lineState).getD .created

/-- `still_running` -/
def stillRunning (id stdout : String) : Bool :=
  (Lines.lines stdout.toList).any fun line =>
    Text.contains id.toList line && Text.contains "RUNNING".toList line

variable (self : ContainerdRuntime) {α : Type}

/-- `ctr`: run a command and go on with what it leaves. -/
def ctr (args : List String) (k : CtrOutput → Prog ctrSig (Except NexaError α)) :
    Prog ctrSig (Except NexaError α) :=
  .call (.output ("--namespace" :: self.nspace :: args)) fun
    | .error e => .ret (.error (.runtime s!"failed to run ctr: {e}"))
    | .ok (output : CtrOutput) => k output

/-- `ContainerdRuntime::inspect_container`. -/
def inspectContainer (id : String) : Prog ctrSig (Except NexaError ContainerInfo) :=
  self.ctrOk ["containers", "info", id] fun infoOutput =>
    self.ctr ["tasks", "list"] fun tasksOutput =>
      .ret (.ok {
        id
        name := id
        image := imageOf infoOutput
        state := taskState id tasksOutput.stdout })

/-- The wait of `stop_container`, which finds the deadline not yet reached
`rounds` times, and what it does then. -/
def waitLoop (id : String) : Nat → Prog ctrSig (Except NexaError Unit)
  | 0 => self.ctrOk ["tasks", "kill", "--signal", "SIGKILL", id] fun _ => .ret (.ok ())
  | rounds + 1 => self.ctr ["tasks", "list"] fun check =>
    if stillRunning id check.stdout then waitLoop id rounds else .ret (.ok ())

/-- `ContainerdRuntime::stop_container`. -/
def stopContainer (id : String) (rounds : Nat) : Prog ctrSig (Except NexaError Unit) :=
  self.ctr ["tasks", "kill", "--signal", "SIGTERM", id] fun result =>
    if result.success then self.waitLoop id rounds else .ret (.ok ())

end Nexad.Runtime.ContainerdRuntime
