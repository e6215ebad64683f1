import Nexad.Base.Relational

/-!
# The domain types

The records of the domain crate as the daemon stores them. The crate itself
is not part of the repository: its types of statuses and specs, and what it
decides about them, are the fields of `Domain`. That a text is read back as
the value it was printed from is not assumed here; a result that needs it
says so.
-/

namespace Nexad

/-- A 128-bit identifier. -/
structure Uuid where
  bits : BitVec 128
  deriving DecidableEq, Repr

namespace Uuid

/-- The lowest `width` hexadecimal digits of a number. -/
def hexDigits (n : Nat) : Nat → List Char
  | 0 => []
  | width + 1 => hexDigits (n / 16) width ++ [Nat.digitChar (n % 16)]

/-- The usual spelling: lower case, in groups of 8, 4, 4, 4 and 12 digits. -/
def hyphenated (id : Uuid) : String :=
  let digits := hexDigits id.bits.toNat 32
  String.ofList (digits.take 8 ++ ['-'] ++ (digits.drop 8).take 4 ++ ['-'] ++
    (digits.drop 12).take 4 ++ ['-'] ++ (digits.drop 16).take 4 ++ ['-'] ++ digits.drop 20)

/-- The value of a hexadecimal digit. -/
def hexValue (c : Char) : Option Nat :=
  if '0' ≤ c ∧ c ≤ '9' then some (c.toNat - '0'.toNat)
  else if 'a' ≤ c ∧ c ≤ 'f' then some (c.toNat - 'a'.toNat + 10)
  else if 'A' ≤ c ∧ c ≤ 'F' then some (c.toNat - 'A'.toNat + 10)
  else none

/-- Read the usual spelling: hyphens in their four places, digits in the others. -/
def ofHyphenated (s : String) : Option Uuid := do
  let cs := s.toList
  guard (cs.length = 36 ∧ ∀ i ∈ [8, 13, 18, 23], cs[i]? = some '-')
  let values ← (cs.filter (· ≠ '-')).mapM hexValue
  guard (values.length = 32)
  return ⟨BitVec.ofNat 128 (values.foldl (fun n d => 16 * n + d) 0)⟩

end Uuid

/-- Nanoseconds since the epoch, UTC. -/
abbrev DateTime := Int

/-- A 64-bit floating point number. -/
structure F64 where
  bits : UInt64
  deriving DecidableEq, Repr

/-- An exponent of ones and a fraction that is not zero. -/
def F64.isNaN (x : F64) : Bool :=
  x.bits &&& 0x7FF0000000000000 == 0x7FF0000000000000 && x.bits &&& 0x000FFFFFFFFFFFFF != 0

/-- What a node has and what of it is free. -/
structure NodeResources where
  cpuCores : F64
  memoryBytes : UInt64
  cpuAvailable : F64
  memoryAvailable : UInt64
  runningPods : UInt32
  deriving DecidableEq, Repr

inductive NodeRole where
  | master
  | worker
  deriving DecidableEq, Repr

inductive NodeStatus where
  | ready
  | notReady
  | draining
  deriving DecidableEq, Repr

/-- A machine of the cluster. -/
structure Node where
  id : Uuid
  name : String
  address : String
  role : NodeRole
  status : NodeStatus
  resources : NodeResources
  lastHeartbeat : DateTime
  joinedAt : DateTime
  deriving DecidableEq, Repr

/-- How a value is written as text (`Display`) and read back (`FromStr`). -/
structure TextForm (α : Type) where
  print : α → String
  parse : String → Except String α

/-- `NexaError`, as far as the daemon makes one. -/
inductive NexaError where
  | invalidSpec (text : String)
  | projectNotFound (name : String)
  | deploymentNotFound (id : String)
  | podNotFound (id : String)
  | nodeNotFound (id : String)
  | serialization (text : String)
  | runtime (text : String)
  | secret (text : String)
  deriving DecidableEq, Repr

/-- What the domain crate decides. -/
structure Domain where
  ProjectStatus : Type
  DeploymentStatus : Type
  PodStatus : Type
  DeploymentSpec : Type
  projectStatus : TextForm ProjectStatus
  deploymentStatus : TextForm DeploymentStatus
  podStatus : TextForm PodStatus
  uuid : TextForm Uuid
  /-- RFC 3339. -/
  time : TextForm DateTime
  specToJson : DeploymentSpec → Except String String
  specFromJson : String → Except String DeploymentSpec
  /-- The project of a deployment with this spec. -/
  project : DeploymentSpec → String
  /-- The name of a deployment with this spec. -/
  deploymentName : DeploymentSpec → String
  /-- `NodeResources::zero`. -/
  zeroResources : NodeResources
  /-- The text of a status in messages. -/
  nodeStatusText : NodeStatus → String
  /-- The text of an error in messages. -/
  errorText : NexaError → String
  /-- The text of a database error. -/
  sqlError : Relational.SqlError → String

/-- A text that is its own value. -/
def TextForm.verbatim : TextForm String := ⟨id, .ok⟩

/-- A crate whose statuses are texts and whose specs are a project and a name. -/
def Domain.plain : Domain where
  ProjectStatus := String
  DeploymentStatus := String
  PodStatus := String
  DeploymentSpec := String × String
  projectStatus := .verbatim
  deploymentStatus := .verbatim
  podStatus := .verbatim
  uuid := ⟨Uuid.hyphenated, fun s => (Uuid.ofHyphenated s).elim (.error "invalid UUID") .ok⟩
  time := ⟨fun _ => "1970-01-01T00:00:00+00:00", fun _ => .ok 0⟩
  specToJson := fun spec => .ok ("[\"" ++ spec.1 ++ "\",\"" ++ spec.2 ++ "\"]")
  specFromJson := fun _ => .error "EOF while parsing a value"
  project := Prod.fst
  deploymentName := Prod.snd
  zeroResources := ⟨⟨0⟩, 0, ⟨0⟩, 0, 0⟩
  nodeStatusText := fun status => match status with
    | .ready => "ready"
    | .notReady => "not_ready"
    | .draining => "draining"
  errorText := fun _ => "error"
  sqlError := fun _ => "database error"

variable (D : Domain)

/-- A project. -/
structure Project where
  name : String
  status : D.ProjectStatus
  createdAt : DateTime

/-- A deployment. -/
structure Deployment where
  id : Uuid
  spec : D.DeploymentSpec
  status : D.DeploymentStatus
  createdAt : DateTime
  updatedAt : DateTime

/-- One replica of a deployment. -/
structure Pod where
  id : Uuid
  deploymentId : Uuid
  project : String
  deploymentName : String
  replicaIndex : UInt32
  nodeId : Option Uuid
  containerId : Option String
  containerIp : Option String
  status : D.PodStatus
  image : String
  restartCount : UInt32
  createdAt : DateTime

end Nexad
