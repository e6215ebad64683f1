import Nexad.Base.Text
import Nexad.Base.Interleave

/-!
# The overlay subnet allocator

`SubnetAllocator::new` reads the overlay's base network, a /16 in CIDR
notation, and `allocate` hands out one /24 of it per worker. The third octet
comes from an atomic byte; `fetch_add` on it is the only call `allocate`
makes, so an allocation is a program of one call over `counterSig`.

The base octets never change after `new`. The byte is the shared state, and
addition on it wraps around, as `AtomicU8::fetch_add` does.
-/

namespace Nexad.Network

open Interleave

/-- An IPv4 address by its four octets. -/
structure Ipv4Addr where
  a : UInt8
  b : UInt8
  c : UInt8
  d : UInt8
  deriving DecidableEq, Repr

/-- One octet of an address: one to three digits, without a leading zero,
below 256. -/
def parseOctet (s : List Char) : Option UInt8 :=
  if s = [] ∨ 3 < s.length ∨ s.all Char.isDigit = false ∨ (1 < s.length ∧ s.head? = some '0') then
    none
  else
    let n := Nat.ofDigitChars 10 s 0
    if n < 256 then some (UInt8.ofNat n) else none

/-- The dotted form of an address, as `str::parse::<Ipv4Addr>` reads it. -/
def Ipv4Addr.parse (s : List Char) : Option Ipv4Addr :=
  match s.splitOn '.' with
  | [p, q, r, t] => do
    let a ← parseOctet p
    let b ← parseOctet q
    let c ← parseOctet r
    let d ← parseOctet t
    some ⟨a, b, c, d⟩
  | _ => none

/-- The allocator: the base network's octets and the next third octet. -/
structure SubnetAllocator where
  baseFirst : UInt8
  baseSecond : UInt8
  nextThirdOctet : UInt8
  deriving DecidableEq, Repr

namespace SubnetAllocator

/-- An allocator for the /16 network `cidr`, or none for any other text. The
last two octets of the address are ignored. -/
def new (cidr : String) : Option SubnetAllocator :=
  match cidr.toList.splitOn '/' with
  | [address, suffix] =>
    match Text.parseUnsigned 256 suffix with
    | none => none
    | some prefixLen =>
      if prefixLen ≠ 16 then none
      else (Ipv4Addr.parse address).map fun ip => ⟨ip.a, ip.b, 1⟩
  | _ => none

/-- The text of the /24 with the given third octet. -/
def subnet (self : SubnetAllocator) (third : UInt8) : String :=
  s!"{self.baseFirst.toNat}.{self.baseSecond.toNat}.{third.toNat}.0/24"

/-- The master's own /24. -/
def masterSubnet (self : SubnetAllocator) : String :=
  s!"{self.baseFirst.toNat}.{self.baseSecond.toNat}.0.0/24"

end SubnetAllocator

/-! ## Allocation -/

/-- The atomic operations on the counter. -/
inductive CounterOp where
  | fetchAdd (n : UInt8)
  deriving DecidableEq, Repr

/-- Every operation on the counter answers with the byte it found. -/
abbrev counterSig : Sig := ⟨CounterOp, fun _ => UInt8⟩

/-- `allocate`: take the next third octet; zero means the octets ran out. -/
def SubnetAllocator.allocate (self : SubnetAllocator) : Prog counterSig (Option String) :=
  .call (.fetchAdd 1) fun third =>
    .ret (if third = 0 then none else some (self.subnet third))

/-- How the counter answers: `fetch_add` returns the old byte and stores the
sum, modulo 256. -/
inductive CounterStep (self : SubnetAllocator) : (op : CounterOp) → UInt8 → SubnetAllocator → Prop
  | fetchAdd (n : UInt8) : CounterStep self (.fetchAdd n) self.nextThirdOctet
      { self with nextThirdOctet := self.nextThirdOctet + n }

/-- Any number of callers of `allocate` on one allocator. -/
def SubnetAllocator.machine (self : SubnetAllocator) :
    Machine counterSig SubnetAllocator Unit (Option String) where
  code _ := self.allocate
  arrives _ := True
  answer := CounterStep
  env _ _ := False

end Nexad.Network
