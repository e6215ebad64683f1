import Nexad.Cluster.System
import Nexad.Cluster.Worker

/-!
# A master and its workers

One master that is started and dies any number of times over the same store,
and any number of worker processes. A process that takes no more steps has
died; a worker that is started again is a new process. The registration of a
worker is a request to the master that serves then: it may be lost before it
arrives, it may be served and its answer lost, and it is lost with the master.

Others may send the master any request too.
-/

namespace Nexad.Cluster

open Interleave

/-- How far the one call of a worker has come. -/
inductive Rpc where
  | unsent
  /-- Thread `k` of the master serves it, or has served it. -/
  | sent (k : Nat)
  /-- The master that served it is gone. -/
  | lost
  deriving DecidableEq, Repr

/-- The call, once its master is gone. -/
def Rpc.cutOff : Rpc → Rpc
  | .sent _ => .lost
  | rpc => rpc

/-- A worker process: what is left to do before it serves, or how it ended. -/
structure Process where
  args : WorkerArgs
  code : Prog workerSig (Except String Worker)
  rpc : Rpc

/-- What a reply of the master is to the worker that asked. -/
def Reply.toWorker : Reply → Option (Except String RegisterResponse)
  | .register response => some (.ok response)
  | .internal message => some (.error message)
  | _ => none

variable (D : Domain) (sha256 : List UInt8 → List UInt8)

/-- The threads of a master. -/
abbrev Threads := Nat → Option (Request × Code D)

/-- The store, the master if it serves, and the worker processes. -/
structure Installation where
  store : Shared D
  master : Option (ClusterServer × Threads D)
  process : Nat → Option Process

variable {D}

namespace Installation

/-- Before the first start. -/
def initial (store : Shared D) : Installation D := ⟨store, none, fun _ => none⟩

/-- The installation with a process as it has become. -/
def setProcess (s : Installation D) (i : Nat) (p : Process) : Installation D :=
  { s with process := Function.update s.process i (some p) }

/-- The installation with its master after a step. -/
def setPool (s : Installation D) (server : ClusterServer) (pool : MasterPool D) : Installation D :=
  { s with store := pool.state, master := some (server, pool.thread) }

end Installation

variable (D)

/-- What the master of an installation serves. -/
abbrev installed (server : ClusterServer) : Machine (clusterSig D) (Shared D) Request Reply :=
  master D sha256 server fun _ => True

/-- The events of a master. -/
abbrev MasterEvent := Event (clusterSig D) Request

/-- One step of an installation, with the events of the master in it. -/
inductive InstallationStep (s : Installation D) : List (MasterEvent D) → Installation D → Prop
  /-- The master is started. It comes to serve, or ends, or dies on the way. -/
  | boot {hostname address : String} {resources : NodeResources} {store : Shared D}
      {calls : List ((op : (clusterSig D).Op) × (clusterSig D).Ans op)}
      {left : Prog (clusterSig D) (Except NexaError ClusterServer)} (down : s.master = none)
      (moves : (startMaster D sha256 hostname address resources).Moves Answered s.store calls left store) :
      InstallationStep s [] { s with
        store
        master := (left.result.bind Except.toOption).map fun server => (server, fun _ => none) }
  | crash : InstallationStep s [] { s with
      master := none
      process := fun i => (s.process i).map fun p => { p with rpc := p.rpc.cutOff } }
  /-- The master does something, or gets a request. -/
  | master {server : ClusterServer} {threads : Threads D} {e : MasterEvent D} {pool : MasterPool D}
      (serving : s.master = some (server, threads))
      (step : Step (installed D sha256 server) ⟨s.store, threads⟩ e pool) :
      InstallationStep s [e] (s.setPool server pool)
  | spawn {i : Nat} (free : s.process i = none) (args : WorkerArgs) :
      InstallationStep s [] (s.setProcess i ⟨args, startWorker D sha256 args, .unsent⟩)
  /-- A process does something on its own. -/
  | own {i : Nat} {p : Process} {op : WorkerOp} {k : workerSig.Ans op → Prog workerSig (Except String Worker)}
      (running : s.process i = some p) (at_call : p.code = .call op k)
      (own : ∀ req, op ≠ .register req) (ans : workerSig.Ans op) :
      InstallationStep s [] (s.setProcess i { p with code := k ans })
  /-- The registration of a process arrives at the master. -/
  | ask {i k : Nat} {p : Process} {req : RegisterRequest}
      {cont : Except String RegisterResponse → Prog workerSig (Except String Worker)}
      {server : ClusterServer} {threads : Threads D} {pool : MasterPool D}
      (running : s.process i = some p) (at_call : p.code = .call (.register req) cont)
      (unsent : p.rpc = .unsent) (serving : s.master = some (server, threads))
      (step : Step (installed D sha256 server) ⟨s.store, threads⟩ (.arrive k (.register req)) pool) :
      InstallationStep s [.arrive k (.register req)]
        ((s.setPool server pool).setProcess i { p with rpc := .sent k })
  /-- The master's answer arrives at the process. -/
  | answered {i k : Nat} {p : Process} {req : RegisterRequest}
      {cont : Except String RegisterResponse → Prog workerSig (Except String Worker)}
      {server : ClusterServer} {threads : Threads D} {reply : Reply}
      {ans : Except String RegisterResponse} (running : s.process i = some p)
      (at_call : p.code = .call (.register req) cont) (sent : p.rpc = .sent k)
      (serving : s.master = some (server, threads))
      (done : threads k = some (.register req, .ret reply)) (answer : reply.toWorker = some ans) :
      InstallationStep s [] (s.setProcess i { p with code := cont ans })
  /-- The call of a process fails on the network. -/
  | failed {i : Nat} {p : Process} {req : RegisterRequest}
      {cont : Except String RegisterResponse → Prog workerSig (Except String Worker)}
      (running : s.process i = some p) (at_call : p.code = .call (.register req) cont) (e : String) :
      InstallationStep s [] (s.setProcess i { p with code := cont (.error e) })

/-- A run of an installation, with the events of its masters, newest first. -/
inductive InstallationRun (s₀ : Installation D) : List (MasterEvent D) → Installation D → Prop
  | nil : InstallationRun s₀ [] s₀
  | cons {l es : List (MasterEvent D)} {s s' : Installation D} :
      InstallationRun s₀ l s → InstallationStep D sha256 s es s' → InstallationRun s₀ (es ++ l) s'

variable {D}

/-- Process `i` has joined as this worker. -/
def Joined (s : Installation D) (i : Nat) (worker : Worker) : Prop :=
  ∃ p, s.process i = some p ∧ p.code = .ret (.ok worker)

end Nexad.Cluster
