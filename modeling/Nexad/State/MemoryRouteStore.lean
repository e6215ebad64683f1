import Nexad.State.Schema

/-!
# `InMemoryRouteStore`: subnet allocations

The store of routes that keeps everything in memory, as far as it stands for
the table `subnet_allocations`: a vector without an index, under a lock that
makes every call one step.
-/

namespace Nexad.State

/-- `SubnetAllocation`. -/
structure SubnetAllocation where
  nodeId : String
  project : String
  subnet : String
  deriving DecidableEq, Repr

/-- The allocation is the one of a node for a project. -/
def SubnetAllocation.isFor (s : SubnetAllocation) (nodeId project : String) : Bool :=
  s.nodeId = nodeId && s.project = project

/-- `NexaError::Network`. -/
inductive RouteError where
  | network (text : String)
  deriving DecidableEq, Repr

/-- `InMemoryRouteStore`, without its routes and certificates. -/
structure InMemoryRouteStore where
  subnets : List SubnetAllocation
  deriving DecidableEq, Repr

namespace InMemoryRouteStore

/-- `InMemoryRouteStore::new`. -/
def new : InMemoryRouteStore := ⟨[]⟩

variable (self : InMemoryRouteStore)

/-- `allocate_subnet`. -/
def allocateSubnet (alloc : SubnetAllocation) : Except RouteError Unit × InMemoryRouteStore :=
  if self.subnets.any fun s => s.isFor alloc.nodeId alloc.project then
    (.error (.network
      s!"subnet already allocated for node {alloc.nodeId} project {alloc.project}"), self)
  else if self.subnets.any fun s => s.subnet = alloc.subnet then
    (.error (.network s!"subnet {alloc.subnet} already in use"), self)
  else (.ok (), ⟨self.subnets ++ [alloc]⟩)

/-- `get_node_subnet`. -/
def getNodeSubnet (nodeId project : String) : Option SubnetAllocation :=
  self.subnets.find? fun s => s.isFor nodeId project

/-- `deallocate_subnet`. -/
def deallocateSubnet (nodeId project : String) : Bool × InMemoryRouteStore :=
  let kept := self.subnets.filter fun s => !s.isFor nodeId project
  (decide (kept.length < self.subnets.length), ⟨kept⟩)

end InMemoryRouteStore

/-- A call that changes the allocations. -/
inductive SubnetOp where
  | allocate (alloc : SubnetAllocation)
  | deallocate (nodeId project : String)
  deriving DecidableEq, Repr

/-- The store after a call. -/
def SubnetOp.run (s : InMemoryRouteStore) : SubnetOp → InMemoryRouteStore
  | allocate alloc => (s.allocateSubnet alloc).2
  | deallocate nodeId project => (s.deallocateSubnet nodeId project).2

/-- A new store after some calls. -/
def InMemoryRouteStore.after (ops : List SubnetOp) : InMemoryRouteStore :=
  ops.foldl SubnetOp.run .new

end Nexad.State
