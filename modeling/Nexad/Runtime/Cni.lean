import Nexad.Base.Directory
import Nexad.Core.Models
import Mathlib.Data.List.AList

/-!
# Networks of containerd

`CniManager`: a network is a file in the daemon's directory of CNI
configurations, and the file holds its subnet. Which subnet comes next is
counted in memory, so it starts over with every daemon.
-/

namespace Nexad.Runtime

open Interleave

/-- `CniIpam`. -/
structure CniIpam where
  ipamType : String
  subnet : String
  deriving DecidableEq, Repr

/-- `CniPlugin`. -/
inductive CniPlugin where
  | bridge (bridge : String) (isGateway : Bool) (ipam : CniIpam)
  | loopback
  deriving DecidableEq, Repr

/-- `CniConfig`. -/
structure CniConfig where
  cniVersion : String
  name : String
  plugins : List CniPlugin
  deriving DecidableEq, Repr

/-- The text of a subnet. -/
def subnetText (octet : UInt8) : String :=
  "172.20." ++ String.ofList (Nat.toDigits 10 octet.toNat) ++ ".0/24"

/-- `SubnetAllocator`. -/
structure SubnetAllocator where
  allocations : AList fun _ : String => UInt8
  nextOctet : UInt8

namespace SubnetAllocator

/-- `SubnetAllocator::new`. -/
def new : SubnetAllocator := ⟨∅, 1⟩

/-- `SubnetAllocator::allocate`: the octet after 255 is 0, which ends the pool. -/
def allocate (self : SubnetAllocator) (name : String) : Except NexaError String × SubnetAllocator :=
  match self.allocations.lookup name with
  | some octet => (.ok (subnetText octet), self)
  | none =>
    if self.nextOctet = 0 then
      (.error (.runtime "subnet pool exhausted (255 /24 networks allocated)"), self)
    else
      (.ok (subnetText self.nextOctet),
        ⟨self.allocations.insert name self.nextOctet, self.nextOctet + 1⟩)

/-- `SubnetAllocator::release`. -/
def release (self : SubnetAllocator) (name : String) : SubnetAllocator :=
  { self with allocations := self.allocations.erase name }

end SubnetAllocator

/-- `CniManager`. -/
structure CniManager where
  cniBinDir : String
  cniConfDir : String
  subnetAllocator : SubnetAllocator

/-- Why an operation on a network failed. -/
inductive CniError where
  | io (text : String)
  | pool (e : NexaError)
  | json (text : String)
  deriving DecidableEq, Repr

variable (toStringPretty : CniConfig → Except String String)

namespace CniManager

/-- `CniManager::new`. -/
def new (dataDir : String) : CniManager where
  cniBinDir := pathJoin (pathJoin dataDir "cni") "bin"
  cniConfDir := pathJoin (pathJoin dataDir "cni") "conf"
  subnetAllocator := .new

/-- Where the configuration of a network is. -/
def confPath (self : CniManager) (name : String) : String :=
  pathJoin self.cniConfDir (name ++ ".conflist")

/-- What `ensure_network` writes for a network. -/
def networkConfig (name subnet : String) : CniConfig where
  cniVersion := "1.0.0"
  name := name
  plugins := [.bridge ("cni-" ++ name) true ⟨"host-local", subnet⟩, .loopback]

/-- `CniManager::ensure_network`. The manager is the second part of what it
comes to: what was allocated stays so when the file cannot be written. -/
def ensureNetwork (self : CniManager) (name : String) :
    Prog dirSig (Except CniError Unit × CniManager) :=
  .call (.createDirAll self.cniConfDir) fun
    | .error e => .ret (.error (.io e), self)
    | .ok () => .call (.exists (self.confPath name)) fun
      | true => .ret (.ok (), self)
      | false =>
        let (subnet, allocator) := self.subnetAllocator.allocate name
        let self' := { self with subnetAllocator := allocator }
        match subnet with
        | .error e => .ret (.error (.pool e), self')
        | .ok subnet =>
          match toStringPretty (networkConfig name subnet) with
          | .error e => .ret (.error (.json e), self')
          | .ok json => .call (.write (self.confPath name) json) fun
            | .error e => .ret (.error (.io e), self')
            | .ok () => .ret (.ok (), self')

/-- `CniManager::remove_network`. -/
def removeNetwork (self : CniManager) (name : String) :
    Prog dirSig (Except CniError Unit × CniManager) :=
  let released := { self with subnetAllocator := self.subnetAllocator.release name }
  .call (.exists (self.confPath name)) fun
    | true => .call (.removeFile (self.confPath name)) fun
      | .error e => .ret (.error (.io e), self)
      | .ok () => .ret (.ok (), released)
    | false => .ret (.ok (), released)

end CniManager

/-! ## Daemon after daemon -/

/-- What happens to the networks of a host. -/
inductive CniEvent where
  | ensure (name : String)
  | remove (name : String)
  | restart
  deriving DecidableEq, Repr

/-- The manager of the daemon that runs, and the files. -/
structure CniHost (κ : Type) where
  manager : CniManager
  files : PlacedFiles κ

/-- One event, with every file operation succeeding. -/
inductive CniStep {κ : Type} [DecidableEq κ] (dataDir : String) (place : String → κ) :
    CniHost κ → CniEvent → CniHost κ → Prop
  | ensure {host : CniHost κ} {name : String} {result : Except CniError Unit}
      {manager : CniManager} {files : PlacedFiles κ}
      (run : (host.manager.ensureNetwork toStringPretty name).Exec (Succeeds place) host.files
        (result, manager) files) : CniStep dataDir place host (.ensure name) ⟨manager, files⟩
  | remove {host : CniHost κ} {name : String} {result : Except CniError Unit}
      {manager : CniManager} {files : PlacedFiles κ}
      (run : (host.manager.removeNetwork name).Exec (Succeeds place) host.files
        (result, manager) files) : CniStep dataDir place host (.remove name) ⟨manager, files⟩
  | restart {host : CniHost κ} : CniStep dataDir place host .restart ⟨.new dataDir, host.files⟩

end Nexad.Runtime
