import Nexad.Base.Interleave
import Nexad.Dns.Hickory

/-!
# The DNS server while records change

`HickoryDnsProvider`: datagrams and TCP clients are answered while the daemon
registers and deregisters addresses. `DnsRecordStore` takes its lock for each
look, and `resolve` looks twice, for the replica and then for the deployment.
So a query is a program of looks, and others may come in between.
-/

namespace Nexad.Dns

open Slice Interleave

/-- What is done under the lock of the record store. -/
inductive RecordCall where
  | lookupReplica (project deployment : String) (index : Nat)
  | lookup (project deployment : String)
  | apply (op : RecordOp IpAddr)

abbrev recordSig : Sig where
  Op := RecordCall
  Ans
    | .lookupReplica .. => Option IpAddr
    | .lookup .. => List IpAddr
    | .apply _ => Unit

/-- How a call is answered, and what it leaves. -/
inductive Locked (s : DnsRecordStore IpAddr) :
    (op : RecordCall) → recordSig.Ans op → DnsRecordStore IpAddr → Prop
  | lookupReplica (project deployment : String) (index : Nat) :
      Locked s (.lookupReplica project deployment index) (s.lookupReplica project deployment index) s
  | lookup (project deployment : String) :
      Locked s (.lookup project deployment) (s.lookup project deployment) s
  | apply (op : RecordOp IpAddr) : Locked s (.apply op) () (s.apply op)

/-- The deployment and the index of a host label, if it reads as a replica's. -/
def replicaOf (host : List Char) : Option (String × Nat) := do
  let (deployment, maybeIndex) ← Text.rsplitOnce '-' host
  let index ← Text.parseUnsigned (2 ^ 64) maybeIndex
  return (String.ofList deployment, index)

section Query

variable {α : Type}

/-- The look for a deployment, with what follows on the answer. -/
def lookupDeployment (project host : List Char) (k : Option (List IpAddr) → Prog recordSig α) :
    Prog recordSig α :=
  .call (.lookup (String.ofList project) (String.ofList host)) fun (ips : List IpAddr) =>
    k (if ips = [] then none else some ips)

/-- `DnsRecordStore::resolve`, with what follows on the answer. -/
def resolveCalls (queryName : String) (k : Option (List IpAddr) → Prog recordSig α) :
    Prog recordSig α :=
  match Text.splitN '.' 3 (Text.trimEndMatches '.' queryName.toList) with
  | [host, project, zone] =>
    if zone ≠ "internal".toList then k none
    else
      match replicaOf host with
      | none => lookupDeployment project host k
      | some (deployment, index) =>
        .call (.lookupReplica (String.ofList project) deployment index) fun
          | some (ip : IpAddr) => k (some [ip])
          | none => lookupDeployment project host k
  | _ => k none

/-- The question of a query that is not dropped: its id, the name and the type
that are asked for, and where the question ends. -/
def readQuery (data : List UInt8) : Except Panic (Option (UInt16 × String × UInt16 × Nat)) :=
  if data.length < 12 then return none
  else do
    let id ← readU16 data 0
    let flags ← readU16 data 2
    let qdCount ← readU16 data 4
    let opcode := (flags >>> 11) &&& 0xF
    if opcode ≠ 0 ∨ qdCount = 0 then return none
    else
      match ← parseQuestion data 12 with
      | none => return none
      | some (queryName, qtype, questionEnd) => return some (id, queryName, qtype, questionEnd)

variable (tables : Lowercase.Tables) (upstream : Upstream)

/-- `handle_dns_query`, with what follows on the answer. -/
def handleQuery (data : List UInt8) (k : Except Panic Handled → Prog recordSig α) : Prog recordSig α :=
  match readQuery data with
  | .error e => k (.error e)
  | .ok none => k (.ok .dropped)
  | .ok (some (id, queryName, qtype, questionEnd)) =>
    let nameLower := Lowercase.toLowercase tables queryName
    if isInternal nameLower then
      resolveCalls nameLower fun ips =>
        k ((buildDnsResponse id data queryName questionEnd qtype ips).map .answered)
    else k (.ok (.forwarded (forwardToUpstream upstream data)))

end Query

/-- What comes to the server. -/
inductive DnsRequest where
  | datagram (received : List UInt8)
  | client (received : List UInt8)
  | record (op : RecordOp IpAddr)

/-- What a datagram, or a client, is sent. -/
inductive DnsReply where
  | datagram (sent : Except Panic (Option (List UInt8)))
  | client (sent : Except Panic (List UInt8))
  | recorded

/-- What a TCP client is sent: the response after its length. -/
def Handled.framed (handled : Handled) : List UInt8 :=
  match handled.response with
  | none => []
  | some response => BigEndian.bytes 2 (UInt16.ofNat response.length).toNat ++ response

variable (tables : Lowercase.Tables) (upstream : Upstream) (sendTo : List UInt8 → Bool)

/-- The code of a datagram, of a client, and of a call that changes the records. -/
def DnsRequest.code : DnsRequest → Prog recordSig DnsReply
  | .datagram received =>
    handleQuery tables upstream (received.take 4096) fun handled =>
      .ret (.datagram (handled.map (Handled.sent sendTo)))
  | .client (high :: low :: rest) =>
    let msgLen := BigEndian.value [high, low]
    if rest.length < msgLen then .ret (.client (.ok []))
    else
      handleQuery tables upstream (rest.take msgLen) fun handled =>
        .ret (.client (handled.map Handled.framed))
  | .client _ => .ret (.client (.ok []))
  | .record op => .call (.apply op) fun _ => .ret .recorded

/-- The server, for the requests of `arrives`. Datagrams are taken one at a time
in fact; here they may be served at once, as clients are. -/
def dnsServer (arrives : DnsRequest → Prop) :
    Machine recordSig (DnsRecordStore IpAddr) DnsRequest DnsReply where
  code := DnsRequest.code tables upstream sendTo
  arrives := arrives
  answer := Locked
  env := fun _ _ => False

/-- What a request gets from the records of one moment. -/
def DnsRequest.atOnce (s : DnsRecordStore IpAddr) : DnsRequest → DnsReply
  | .datagram received => .datagram (handleUdpDatagram tables received s upstream sendTo)
  | .client received => .client (handleTcpDnsClient tables received s upstream)
  | .record _ => .recorded

end Nexad.Dns
