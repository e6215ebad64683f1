import Mathlib.Data.Finmap
import Nexad.Base.Offset
import Nexad.Base.Text

/-!
# The DNS record store

A deployment's addresses, by project and deployment name, and the reading of
a query name against them. A host label is read first as
`<deployment>-<replica index>`; only when no such replica exists is it read
as a deployment name.

Addresses are compared and copied, never inspected, so their type is a
parameter. An index is a `usize` of 64 bits.
-/

namespace Nexad.Dns

variable {IpAddr : Type} [DecidableEq IpAddr]

/-- `DnsRecordStore`: project to deployment to addresses. -/
structure DnsRecordStore (IpAddr : Type) where
  entries : Finmap fun _ : String => Finmap fun _ : String => List IpAddr

namespace DnsRecordStore

/-- The empty store. -/
def new : DnsRecordStore IpAddr := ⟨∅⟩

/-- Append an address to a deployment's list unless it is there. -/
def register (self : DnsRecordStore IpAddr) (project deployment : String) (ip : IpAddr) :
    DnsRecordStore IpAddr :=
  let projectMap := (self.entries.lookup project).getD ∅
  let ips := (projectMap.lookup deployment).getD []
  let ips := if ip ∈ ips then ips else ips ++ [ip]
  ⟨self.entries.insert project (projectMap.insert deployment ips)⟩

/-- A project's map without one address of a deployment, and without the
deployment when that was its last one. -/
def retainOthers (projectMap : Finmap fun _ : String => List IpAddr) (deployment : String)
    (ip : IpAddr) : Finmap fun _ : String => List IpAddr :=
  match projectMap.lookup deployment with
  | none => projectMap
  | some ips =>
    let ips := ips.filter (· ≠ ip)
    if ips = [] then projectMap.erase deployment else projectMap.insert deployment ips

/-- Remove an address, and then each map that the removal emptied. -/
def deregister (self : DnsRecordStore IpAddr) (project deployment : String) (ip : IpAddr) :
    DnsRecordStore IpAddr :=
  match self.entries.lookup project with
  | none => self
  | some projectMap =>
    let projectMap := retainOthers projectMap deployment ip
    if projectMap = ∅ then ⟨self.entries.erase project⟩
    else ⟨self.entries.insert project projectMap⟩

/-- The addresses of a deployment, none for an unknown one. -/
def lookup (self : DnsRecordStore IpAddr) (project deployment : String) : List IpAddr :=
  ((self.entries.lookup project).bind (·.lookup deployment)).getD []

/-- The address at one index of a deployment's list. -/
def lookupReplica (self : DnsRecordStore IpAddr) (project deployment : String) (index : Nat) :
    Option IpAddr :=
  ((self.entries.lookup project).bind (·.lookup deployment)).bind (·[index]?)

/-- The replica reading of a host label: the deployment before the last dash
and the index after it, when there is an address at that index. -/
def resolveReplica (self : DnsRecordStore IpAddr) (project host : List Char) : Option IpAddr := do
  let (deployment, maybeIndex) ← Text.rsplitOnce '-' host
  let index ← Text.parseUnsigned (2 ^ 64) maybeIndex
  self.lookupReplica (String.ofList project) (String.ofList deployment) index

/-- The addresses a query name stands for. -/
def resolve (self : DnsRecordStore IpAddr) (queryName : String) : Option (List IpAddr) :=
  match Text.splitN '.' 3 (Text.trimEndMatches '.' queryName.toList) with
  | [host, project, zone] =>
    if zone ≠ "internal".toList then none
    else
      match self.resolveReplica project host with
      | some ip => some [ip]
      | none =>
        let ips := self.lookup (String.ofList project) (String.ofList host)
        if ips = [] then none else some ips
  | _ => none

/-- The replica reading by byte offsets, every one of them checked. -/
def resolveReplicaSliced (self : DnsRecordStore IpAddr) (project host : List Char) :
    Except Slice.Panic (Option IpAddr) :=
  match Text.rfind '-' host with
  | none => return none
  | some dashPos => do
    let maybeIndex ← Text.sliceFrom host (dashPos + 1)
    match Text.parseUnsigned (2 ^ 64) maybeIndex with
    | none => return none
    | some index =>
      let deployment ← Text.sliceTo host dashPos
      return self.lookupReplica (String.ofList project) (String.ofList deployment) index

/-- `resolve` as it is computed: parts by their index, and texts by byte offset. -/
def resolveSliced (self : DnsRecordStore IpAddr) (queryName : String) :
    Except Slice.Panic (Option (List IpAddr)) := do
  let parts := Text.splitN '.' 3 (Text.trimEndMatches '.' queryName.toList)
  if parts.length ≠ 3 then return none
  else do
    let zone ← Slice.index parts 2
    if zone ≠ "internal".toList then return none
    else do
      let project ← Slice.index parts 1
      let host ← Slice.index parts 0
      match ← self.resolveReplicaSliced project host with
      | some ip => return some [ip]
      | none =>
        let ips := self.lookup (String.ofList project) (String.ofList host)
        return if ips = [] then none else some ips

end DnsRecordStore

/-- The two calls that change a store. -/
inductive RecordOp (IpAddr : Type) where
  | register (project deployment : String) (ip : IpAddr)
  | deregister (project deployment : String) (ip : IpAddr)

/-- One call on a store. -/
def DnsRecordStore.apply (self : DnsRecordStore IpAddr) : RecordOp IpAddr → DnsRecordStore IpAddr
  | .register project deployment ip => self.register project deployment ip
  | .deregister project deployment ip => self.deregister project deployment ip

/-- The store after a sequence of calls on the empty one. -/
def DnsRecordStore.after (ops : List (RecordOp IpAddr)) : DnsRecordStore IpAddr :=
  ops.foldl DnsRecordStore.apply .new

end Nexad.Dns
