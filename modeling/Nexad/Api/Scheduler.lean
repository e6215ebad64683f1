import Nexad.Base.Interleave
import Nexad.Core.Models

/-!
# The scheduler handlers of the HTTP API

The orchestrator keeps the scheduler's configuration and handles one command
at a time. A handler that changes one weight asks for the configuration,
changes its copy and sends the copy back whole, so an edit is two commands.
-/

namespace Nexad.Api

open Interleave

/-- What the domain crate decides about the scheduler's configuration. -/
structure SchedulerCore where
  SchedulerConfig : Type
  fromStrategy : String → Except String SchedulerConfig
  setWeight : SchedulerConfig → String → F64 → Except String SchedulerConfig
  /-- The value of a named weight. -/
  weight : SchedulerConfig → String → Option F64

/-- `SetWeightRequest`. -/
structure SetWeightRequest where
  name : String
  value : F64
  deriving DecidableEq, Repr

/-- `SetSchedulerRequest`. -/
structure SetSchedulerRequest where
  strategy : Option String
  weights : Option SetWeightRequest
  deriving DecidableEq, Repr

variable (C : SchedulerCore)

/-- A command of the orchestrator. -/
inductive SchedulerOp where
  | getSchedulerConfig
  | setSchedulerConfig (config : C.SchedulerConfig)

/-- What a command answers; the text of an error stands for the error. -/
def SchedulerOp.Ans : SchedulerOp C → Type
  | .getSchedulerConfig => C.SchedulerConfig
  | .setSchedulerConfig _ => Except String C.SchedulerConfig

/-- The commands of the orchestrator. -/
def schedulerSig : Sig := ⟨SchedulerOp C, SchedulerOp.Ans C⟩

/-- An answer to a client: the configuration, or a status and an error. -/
inductive SchedulerReply where
  | config (config : C.SchedulerConfig)
  | failed (status : Nat) (error : String)

/-- `get_scheduler_config`. -/
def getSchedulerConfig : Prog (schedulerSig C) (SchedulerReply C) :=
  .call .getSchedulerConfig fun (config : C.SchedulerConfig) => .ret (.config config)

/-- The configuration that a request asks for: a strategy wins over a weight. -/
def requestedConfig (req : SetSchedulerRequest) (current : C.SchedulerConfig) :
    Except String C.SchedulerConfig :=
  match req.strategy with
  | some strategy => C.fromStrategy strategy
  | none =>
    match req.weights with
    | some weight => C.setWeight current weight.name weight.value
    | none => .error "provide 'strategy' or 'weights'"

/-- `set_scheduler_config`. -/
def setSchedulerConfig (req : SetSchedulerRequest) : Prog (schedulerSig C) (SchedulerReply C) :=
  .call .getSchedulerConfig fun (current : C.SchedulerConfig) =>
    match requestedConfig C req current with
    | .error e => .ret (.failed 400 e)
    | .ok config => .call (.setSchedulerConfig config) fun
      | .ok (config : C.SchedulerConfig) => .ret (.config config)
      | .error (e : String) => .ret (.failed 500 e)

/-- A request to the scheduler's route. -/
inductive SchedulerRequest where
  | get
  | set (req : SetSchedulerRequest)
  deriving DecidableEq, Repr

/-- The code that serves a request. -/
def SchedulerRequest.code : SchedulerRequest → Prog (schedulerSig C) (SchedulerReply C)
  | .get => getSchedulerConfig C
  | .set req => setSchedulerConfig C req

/-- The orchestrator handles a command: a `set` replaces the configuration, or
is refused. -/
inductive Handled (s : C.SchedulerConfig) :
    (op : SchedulerOp C) → op.Ans → C.SchedulerConfig → Prop
  | get : Handled s .getSchedulerConfig s s
  | set (config : C.SchedulerConfig) : Handled s (.setSchedulerConfig config) (.ok config) config
  | refused (config : C.SchedulerConfig) (e : String) :
      Handled s (.setSchedulerConfig config) (.error e) s

/-- The scheduler's route over the orchestrator. -/
def schedulerApi : Machine (schedulerSig C) C.SchedulerConfig SchedulerRequest (SchedulerReply C) where
  code := SchedulerRequest.code C
  arrives := fun _ => True
  answer := Handled C
  env := fun _ _ => False

end Nexad.Api
