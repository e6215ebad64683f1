import Nexad.Base.BigEndian
import Nexad.Base.Lowercase
import Nexad.Base.Slice
import Nexad.Base.Utf8
import Nexad.Dns.RecordStore
import Nexad.Network.Subnet

/-!
# The DNS packet handler

A query in bytes, and the answer to it: a name below `internal` is answered
from the record store, any other query goes to the upstream server as it came.
Every index and slice of the packet is checked, so that a run that returns has
stayed within it.
-/

namespace Nexad.Dns

open Slice

/-- An IPv6 address is its octets. -/
inductive IpAddr where
  | v4 (addr : Network.Ipv4Addr)
  | v6 (octets : Vector UInt8 16)
  deriving DecidableEq, Repr

/-- `v4.octets()` and `v6.octets()` -/
def IpAddr.octets : IpAddr → List UInt8
  | .v4 addr => [addr.a, addr.b, addr.c, addr.d]
  | .v6 octets => octets.toList

/-- `u16::from_be_bytes([data[i], data[i + 1]])` -/
def readU16 (data : List UInt8) (i : Nat) : Except Panic UInt16 := do
  let high ← index data i
  let low ← index data (i + 1)
  return .ofNat (BigEndian.value [high, low])

/-- The loop of `parse_question`: the labels so far, and those from an offset on. -/
def parseLabels (data : List UInt8) (labels : List String) (offset : Nat) :
    Except Panic (Option (List String × Nat)) :=
  if data.length ≤ offset then return none
  else do
    let labelLen ← index data offset
    if labelLen.toNat = 0 then return some (labels, offset + 1)
    else if offset + 1 + labelLen.toNat > data.length then return none
    else do
      let bytes ← range data (offset + 1) (offset + 1 + labelLen.toNat)
      match Utf8.decode bytes with
      | none => return none
      | some label => parseLabels data (labels ++ [label]) (offset + 1 + labelLen.toNat)
termination_by data.length - offset

/-- The name and the type that are asked for, and where the question ends. -/
def parseQuestion (data : List UInt8) (offset : Nat) :
    Except Panic (Option (String × UInt16 × Nat)) := do
  match ← parseLabels data [] offset with
  | none => return none
  | some (labels, offset) =>
    if offset + 4 > data.length then return none
    else do
      let qtype ← readU16 data offset
      return some (".".intercalate labels, qtype, offset + 4)

/-- The addresses that answer a query of this type. -/
def matchesType (qtype : UInt16) : IpAddr → Bool
  | .v4 _ => qtype = 1 ∨ qtype = 255
  | .v6 _ => qtype = 28 ∨ qtype = 255

/-- One answer record, after the pointer to its name. -/
def recordBytes (ip : IpAddr) : List UInt8 :=
  match ip with
  | .v4 _ =>
    BigEndian.bytes 2 1 ++ BigEndian.bytes 2 1 ++ BigEndian.bytes 4 60 ++ BigEndian.bytes 2 4 ++
      ip.octets
  | .v6 _ =>
    BigEndian.bytes 2 28 ++ BigEndian.bytes 2 1 ++ BigEndian.bytes 4 60 ++ BigEndian.bytes 2 16 ++
      ip.octets

/-- The header, the question as it came and an answer for each matching address.
The number of answers is a `u16`. -/
def buildDnsResponse (id : UInt16) (original : List UInt8) (_queryName : String)
    (questionEnd : Nat) (qtype : UInt16) (ips : Option (List IpAddr)) :
    Except Panic (List UInt8) := do
  let ips := ips.getD []
  let matchingIps := ips.filter (matchesType qtype)
  let anCount := UInt16.ofNat matchingIps.length
  let rcode : UInt16 := if matchingIps.isEmpty && ips.isEmpty then 3 else 0
  let flags : UInt16 := 0x8000 ||| 0x0400 ||| 0x0080 ||| rcode
  let question ← range original 12 questionEnd
  return BigEndian.bytes 2 id.toNat ++ BigEndian.bytes 2 flags.toNat ++ BigEndian.bytes 2 1 ++
    BigEndian.bytes 2 anCount.toNat ++ BigEndian.bytes 2 0 ++ BigEndian.bytes 2 0 ++ question ++
    matchingIps.flatMap fun ip => [0xC0, 0x0C] ++ recordBytes ip

/-- What a datagram to the upstream server comes to: whether a socket can be
bound and the datagram sent, and what arrives within five seconds. -/
structure Upstream where
  binds : Bool
  sends : List UInt8 → Bool
  arrives : List UInt8 → Option (List UInt8)

/-- The answer of the upstream server, as much of it as the buffer holds. -/
def forwardToUpstream (upstream : Upstream) (data : List UInt8) : Option (List UInt8) :=
  if upstream.binds && upstream.sends data then (upstream.arrives data).map (·.take 4096)
  else none

/-- What becomes of a query. -/
inductive Handled where
  | dropped
  | answered (response : List UInt8)
  | forwarded (response : Option (List UInt8))
  deriving DecidableEq, Repr

/-- `Option<Vec<u8>>`: what is sent back, if anything. -/
def Handled.response : Handled → Option (List UInt8)
  | .dropped => none
  | .answered response => some response
  | .forwarded response => response

/-- `name_lower.ends_with(".internal") || name_lower.ends_with(".internal.")` -/
def isInternal (nameLower : String) : Bool :=
  ".internal".toList.isSuffixOf nameLower.toList || ".internal.".toList.isSuffixOf nameLower.toList

/-- A query in bytes, whatever they are. -/
def handleDnsQuery (tables : Lowercase.Tables) (data : List UInt8) (store : DnsRecordStore IpAddr)
    (upstream : Upstream) : Except Panic Handled :=
  if data.length < 12 then return .dropped
  else do
    let id ← readU16 data 0
    let flags ← readU16 data 2
    let qdCount ← readU16 data 4
    let opcode := (flags >>> 11) &&& 0xF
    if opcode ≠ 0 ∨ qdCount = 0 then return .dropped
    else
      match ← parseQuestion data 12 with
      | none => return .dropped
      | some (queryName, qtype, questionEnd) =>
        let nameLower := Lowercase.toLowercase tables queryName
        if isInternal nameLower then
          let ips := store.resolve nameLower
          let response ← buildDnsResponse id data queryName questionEnd qtype ips
          return .answered response
        else return .forwarded (forwardToUpstream upstream data)

/-- What the UDP loop sends back: the response, if the socket takes it. One that
`send_to` fails for, as it does for every one of more than 65507 bytes, is logged
and dropped. -/
def Handled.sent (sendTo : List UInt8 → Bool) (handled : Handled) : Option (List UInt8) :=
  handled.response.filter sendTo

/-- One turn of the UDP loop: a datagram, as much of it as the buffer holds, and
what is sent back for it. -/
def handleUdpDatagram (tables : Lowercase.Tables) (received : List UInt8)
    (store : DnsRecordStore IpAddr) (upstream : Upstream) (sendTo : List UInt8 → Bool) :
    Except Panic (Option (List UInt8)) := do
  let handled ← handleDnsQuery tables (received.take 4096) store upstream
  return handled.sent sendTo

/-- `handle_tcp_dns_client`: what is sent to a client that has sent these bytes,
a message after its length in two bytes. Nothing, while the message is short. -/
def handleTcpDnsClient (tables : Lowercase.Tables) (received : List UInt8)
    (store : DnsRecordStore IpAddr) (upstream : Upstream) : Except Panic (List UInt8) :=
  match received with
  | high :: low :: rest =>
    let msgLen := BigEndian.value [high, low]
    if rest.length < msgLen then return []
    else do
      let handled ← handleDnsQuery tables (rest.take msgLen) store upstream
      match handled.response with
      | none => return []
      | some response =>
        return BigEndian.bytes 2 (UInt16.ofNat response.length).toNat ++ response
  | _ => return []

end Nexad.Dns
