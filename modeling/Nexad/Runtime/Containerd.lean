import Nexad.Runtime.Types

/-!
# The containerd runtime

`ContainerdRuntime`, as far as a pod's container comes to be and its end is
reported. Every operation is a run of the `ctr` command: a container is made
under the name the caller chose, and events are lines of text from which the
container and the exit status are picked out.
-/

namespace Nexad.Runtime

open Interleave

/-- `ContainerdRuntime`, without the maps of its network calls. -/
structure ContainerdRuntime where
  nspace : String
  dataDir : String
  deriving DecidableEq, Repr

/-- What a finished command leaves: whether it succeeded, and what it printed. -/
structure CtrOutput where
  success : Bool
  stdout : String
  stderr : String
  deriving DecidableEq, Repr

inductive CtrOp where
  /-- Run `ctr` to its end. -/
  | output (args : List String)
  /-- Start `ctr` and read its lines. -/
  | spawn (args : List String)
  | createDirAll (path : String)
  deriving DecidableEq, Repr

/-- A command may fail to start. One that is read from may have no output to read. -/
abbrev ctrSig : Sig where
  Op := CtrOp
  Ans
    | .output _ => Except String CtrOutput
    | .spawn _ => Except String (Option (List (Except String String)))
    | .createDirAll _ => Except String Unit

/-- `normalize_image_ref`. -/
def normalizeImageRef (image : String) : String :=
  let cs := image.toList
  let firstSegment := (cs.splitOn '/').headD cs
  let hostPart := (firstSegment.splitOn ':').headD firstSegment
  -- the host is what stands before a tag, whose dots name no registry
  if '.' ∈ hostPart then
    if ':' ∈ cs then image else image ++ ":latest"
  else
    let (name, tag) := (Text.rsplitOnce ':' cs).getD (cs, "latest".toList)
    if '/' ∈ name then s!"docker.io/{String.ofList name}:{String.ofList tag}"
    else s!"docker.io/library/{String.ofList name}:{String.ofList tag}"

/-- `extract_container_id`: the second text in quotes after the key, or what
stands between the key's colon and the next one. -/
def extractContainerId (line : List Char) : Option (List Char) :=
  (Text.findFrom "container_id".toList line).bind fun rest =>
    let value := (rest.splitOn '"')[2]?.or
      ((rest.splitOn ':')[1]?.map (Text.trimMatches '"'))
    value.map Text.trim

/-- `extract_exit_code`: the first run of digits and hyphens after the key. -/
def extractExitCode (line : List Char) : Option Int64 :=
  (Text.findFrom "exit_status".toList line).bind fun rest =>
    ((rest.splitOnP fun c => !c.isDigit && c != '-').find? (!·.isEmpty)).bind parseI64

namespace ContainerdRuntime

/-- `ContainerdRuntime::new`. -/
def new (dataDir : String) : ContainerdRuntime := ⟨"nexa", dataDir⟩

variable (self : ContainerdRuntime) {α : Type}

/-- `ctr_ok`: run a command and go on with what it printed. -/
def ctrOk (args : List String) (k : String → Prog ctrSig (Except NexaError α)) :
    Prog ctrSig (Except NexaError α) :=
  .call (.output ("--namespace" :: self.nspace :: args)) fun
    | .error e => .ret (.error (.runtime s!"failed to run ctr: {e}"))
    | .ok (output : CtrOutput) =>
      if output.success then k output.stdout
      else
        let command := " ".intercalate args
        let stderr := String.ofList (Text.trim output.stderr.toList)
        .ret (.error (.runtime s!"ctr {command} failed: {stderr}"))

variable {self} in
/-- What a command and all that may follow on its output satisfy. -/
theorem ctrOk_every {P : CtrOp → Prop} {args : List String}
    {k : String → Prog ctrSig (Except NexaError α)}
    (hcommand : P (.output ("--namespace" :: self.nspace :: args)))
    (hk : ∀ stdout, (k stdout).Every P) : (self.ctrOk args k).Every P := by
  refine ⟨hcommand, fun ans => ?_⟩
  match ans with
  | .error _ => exact trivial
  | .ok output =>
    dsimp only
    split
    · exact hk output.stdout
    · exact trivial

/-- `log_dir`. -/
def logDir (containerId : String) : String :=
  Text.joinPath (Text.joinPath self.dataDir "logs") containerId

/-- The mount flag of a volume. -/
def mount (vol : VolumeBinding) : List String :=
  let opts := if vol.readOnly then "rbind:ro" else "rbind:rw"
  ["--mount", s!"type=bind,src={vol.source},dst={vol.target},options={opts}"]

/-- The command of `create_container`. -/
def createArgs (config : ContainerConfig) : List String :=
  ["containers", "create", normalizeImageRef config.image, config.name] ++
    (config.env.entries.flatMap fun e => ["--env", s!"{e.1}={e.2}"]) ++
    (config.labels.entries.flatMap fun e => ["--label", s!"{e.1}={e.2}"]) ++
    config.volumes.flatMap mount

/-- `ContainerdRuntime::create_container`. -/
def createContainer (config : ContainerConfig) : Prog ctrSig (Except NexaError String) :=
  self.ctrOk (createArgs config) fun _ =>
    .call (.createDirAll (self.logDir config.name)) fun
      | .error e => .ret (.error (.runtime s!"create log dir: {e}"))
      | .ok () => .ret (.ok config.name)

variable {self} in
theorem createContainer_every {P : CtrOp → Prop} {config : ContainerConfig}
    (hcommand : P (.output ("--namespace" :: self.nspace :: createArgs config)))
    (hdir : P (.createDirAll (self.logDir config.name))) :
    (self.createContainer config).Every P := by
  refine ctrOk_every hcommand fun _ => ⟨hdir, fun made => ?_⟩
  match made with
  | .error _ => exact trivial
  | .ok () => exact trivial

/-- The event of a line. -/
def toEvent : Except String String → Option RuntimeEvent
  | .error _ => none
  | .ok line =>
    let cs := line.toList
    let containerId := String.ofList ((extractContainerId cs).getD [])
    if Text.contains "/tasks/exit".toList cs then
      some (.containerDied containerId ((extractExitCode cs).getD (-1)))
    else if Text.contains "/tasks/start".toList cs then some (.containerStarted containerId)
    else if Text.contains "/tasks/oom".toList cs then some (.containerOom containerId)
    else none

/-- `ContainerdRuntime::events`. -/
def events : Prog ctrSig (Except NexaError (List RuntimeEvent)) :=
  .call (.spawn ["--namespace", self.nspace, "events"]) fun
    | .error e => .ret (.error (.runtime s!"failed to start ctr events: {e}"))
    | .ok none => .ret (.error (.runtime "no stdout from ctr events"))
    | .ok (some (lines : List (Except String String))) => .ret (.ok (lines.filterMap toEvent))

end ContainerdRuntime

end Nexad.Runtime
