import Nexad.Cluster.Server

/-!
# The statistics of the nodes

`node_stats`, which answers with the stored nodes and measures its own machine
for the ones it takes to be that machine. What is measured, the texts of roles
and statuses, and the arithmetic of floating point are parameters. A `u64` that
would go below zero panics in a build with overflow checks, and wraps around in
one without.
-/

namespace Nexad.Api

open Interleave Nexad.Cluster

/-- What the handler measures. -/
structure Measured where
  hostname : String
  cpuCount : F64
  /-- In tenths of a percent. -/
  cpuUsage : F64
  memTotal : UInt64
  memUsed : UInt64
  deriving DecidableEq, Repr

/-- How nodes and pods are told. -/
structure StatsForm (D : Domain) where
  /-- In lower case. -/
  role : NodeRole → String
  /-- In lower case. -/
  status : NodeStatus → String
  /-- The percentage of the cores that is not available, zero of no cores. -/
  cpuUsagePercent : F64 → F64 → F64
  isRunning : D.PodStatus → Bool

/-- One object of the answer. -/
structure NodeStat where
  name : String
  role : String
  status : String
  cpuCores : F64
  cpuUsagePercent : F64
  memoryTotalBytes : UInt64
  memoryUsedBytes : UInt64
  podCount : UInt32
  deriving DecidableEq, Repr

/-- `a - b`, none for a panic. -/
def subU64 (overflowChecks : Bool) (a b : UInt64) : Option UInt64 :=
  if overflowChecks = true ∧ a < b then none else some (a - b)

/-- Whether a node is taken to be the machine of the handler. -/
def isLocal (hostname name address : String) : Bool :=
  name == hostname || "127.".toList.isPrefixOf address.toList

variable {D : Domain} (overflowChecks : Bool) (measured : Measured) (form : StatsForm D)

/-- The statistics of a stored node. -/
def nodeStat (node : Node) : Option NodeStat :=
  if isLocal measured.hostname node.name node.address then
    some {
      name := node.name
      role := form.role node.role
      status := form.status node.status
      cpuCores := measured.cpuCount
      cpuUsagePercent := measured.cpuUsage
      memoryTotalBytes := measured.memTotal
      memoryUsedBytes := measured.memUsed
      podCount := node.resources.runningPods }
  else
    (subU64 overflowChecks node.resources.memoryBytes node.resources.memoryAvailable).map fun used =>
      { name := node.name
        role := form.role node.role
        status := form.status node.status
        cpuCores := node.resources.cpuCores
        cpuUsagePercent := form.cpuUsagePercent node.resources.cpuCores node.resources.cpuAvailable
        memoryTotalBytes := node.resources.memoryBytes
        memoryUsedBytes := used
        podCount := node.resources.runningPods }

/-- The statistics of a machine on its own. -/
def singleStat (podCount : UInt32) : NodeStat where
  name := measured.hostname
  role := "master"
  status := "ready"
  cpuCores := measured.cpuCount
  cpuUsagePercent := measured.cpuUsage
  memoryTotalBytes := measured.memTotal
  memoryUsedBytes := measured.memUsed
  podCount := podCount

/-- The answer over the nodes and the number of pods that run. -/
def statsOf (podCount : UInt32) (nodes : List Node) : Option (List NodeStat) :=
  if nodes.isEmpty then some [singleStat measured podCount]
  else nodes.mapM (nodeStat overflowChecks measured form)

/-- `node_stats`. A list that cannot be read counts as empty. -/
def nodeStats : Prog (clusterSig D) (Option (List NodeStat)) :=
  ask (.listPods none) fun (pods : Except NexaError (List (Pod D))) =>
    ask .listNodes fun (nodes : Except NexaError (List Node)) =>
      let running := (pods.toOption.getD []).filter fun pod => form.isRunning pod.status
      .ret (statsOf overflowChecks measured form (UInt32.ofNat running.length) (nodes.toOption.getD []))

end Nexad.Api
