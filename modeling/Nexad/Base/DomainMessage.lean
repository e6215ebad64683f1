import Nexad.Base.BigEndian

/-!
# Domain messages

A reader of the messages of RFC 1035: a header, then as many questions and
resource records as it counts, with nothing left over. A name is labels of at
most 63 octets, ended by a zero octet or by a pointer to an earlier place in
the message where it goes on; it takes at most 255 octets when written out.

A reader's specification is `Reads`: at an offset it takes just some bytes,
whatever follows them. `Reads.bind`, `Reads.map` and `Reads.many` compose such
facts as the readers are composed.
-/

namespace DomainMessage

/-! ## What a message says -/

/-- Labels as octets. -/
abbrev Labels := List (List UInt8)

/-- A name: the labels written in its place, the place that it goes on in, and
all its labels. -/
structure Name where
  written : Labels
  pointer : Option Nat
  labels : Labels
  deriving DecidableEq, Repr

/-- The second word of a header. -/
structure Flags where
  qr : Bool
  opcode : Nat
  aa : Bool
  tc : Bool
  rd : Bool
  ra : Bool
  z : Nat
  rcode : Nat
  deriving DecidableEq, Repr

structure Header where
  id : UInt16
  flags : Flags
  qdcount : UInt16
  ancount : UInt16
  nscount : UInt16
  arcount : UInt16
  deriving DecidableEq, Repr

structure Question where
  qname : Name
  qtype : UInt16
  qclass : UInt16
  deriving DecidableEq, Repr

/-- A resource record. -/
structure Record where
  owner : Name
  rtype : UInt16
  rclass : UInt16
  ttl : UInt32
  rdlength : UInt16
  rdata : List UInt8
  deriving DecidableEq, Repr

structure Message where
  header : Header
  questions : List Question
  answers : List Record
  authority : List Record
  additional : List Record
  deriving DecidableEq, Repr

/-! ## Readers -/

/-- What is left to read of a message: the offset it starts at, and the bytes. -/
structure Cursor where
  offset : Nat
  rest : List UInt8
  deriving DecidableEq, Repr

/-- A reader takes a value from the front of what is left, or fails. -/
abbrev Reader (α : Type) := StateT Cursor Option α

namespace Reader

/-- The next `n` bytes. -/
def take (n : Nat) : Reader (List UInt8) := fun c =>
  if n ≤ c.rest.length then some (c.rest.take n, ⟨c.offset + n, c.rest.drop n⟩) else none

def u16 : Reader UInt16 := do
  let bytes ← take 2
  return .ofNat (BigEndian.value bytes)

def u32 : Reader UInt32 := do
  let bytes ← take 4
  return .ofNat (BigEndian.value bytes)

/-- A counted sequence. -/
def many {α : Type} (p : Reader α) : Nat → Reader (List α)
  | 0 => return []
  | n + 1 => do
    let a ← p
    let more ← many p n
    return a :: more

end Reader

/-- Labels as far as they are written in one place, with the pointer that ends
them if one does, and what follows. -/
def readLabels : List UInt8 → Option (Labels × Option Nat × List UInt8)
  | [] => none
  | b :: rest =>
    if b.toNat = 0 then some ([], none, rest)
    else if b.toNat ≤ 63 then
      if b.toNat ≤ rest.length then
        (readLabels (rest.drop b.toNat)).map fun (labels, pointer, rest') =>
          (rest.take b.toNat :: labels, pointer, rest')
      else none
    else if 192 ≤ b.toNat then
      match rest with
      | [] => none
      | b' :: rest => some ([], some ((b.toNat - 192) * 256 + b'.toNat), rest)
    else none
termination_by bytes => bytes.length
decreasing_by
  rw [List.length_drop, List.length_cons]
  omega

/-- All labels of the name at an offset. Every pointer goes back. -/
def labelsAt (msg : List UInt8) (offset : Nat) : Option Labels :=
  match readLabels (msg.drop offset) with
  | none => none
  | some (labels, none, _) => some labels
  | some (labels, some target, _) =>
    if target < offset then (labelsAt msg target).map (labels ++ ·) else none
termination_by offset

/-- The octets that a name takes when written out. -/
def nameLength (labels : Labels) : Nat := (labels.map fun label => label.length + 1).sum + 1

namespace Reader

variable (msg : List UInt8)

/-- A name in the message. -/
def name : Reader Name := fun c =>
  match readLabels c.rest with
  | none => none
  | some (written, pointer, rest) =>
    let further := match pointer with
      | none => some []
      | some target => if target < c.offset then labelsAt msg target else none
    match further with
    | none => none
    | some further =>
      if nameLength (written ++ further) ≤ 255 then
        some (⟨written, pointer, written ++ further⟩,
          ⟨c.offset + (c.rest.length - rest.length), rest⟩)
      else none

end Reader

def Flags.ofWord (word : UInt16) : Flags where
  qr := word.toNat.testBit 15
  opcode := word.toNat / 2048 % 16
  aa := word.toNat.testBit 10
  tc := word.toNat.testBit 9
  rd := word.toNat.testBit 8
  ra := word.toNat.testBit 7
  z := word.toNat / 16 % 8
  rcode := word.toNat % 16

namespace Reader

def header : Reader Header := do
  let id ← u16
  let word ← u16
  let qdcount ← u16
  let ancount ← u16
  let nscount ← u16
  let arcount ← u16
  return ⟨id, .ofWord word, qdcount, ancount, nscount, arcount⟩

variable (msg : List UInt8)

def question : Reader Question := do
  let qname ← name msg
  let qtype ← u16
  let qclass ← u16
  return ⟨qname, qtype, qclass⟩

def record : Reader Record := do
  let owner ← name msg
  let rtype ← u16
  let rclass ← u16
  let ttl ← u32
  let rdlength ← u16
  let rdata ← take rdlength.toNat
  return ⟨owner, rtype, rclass, ttl, rdlength, rdata⟩

def message : Reader Message := do
  let header ← header
  let questions ← many (question msg) header.qdcount.toNat
  let answers ← many (record msg) header.ancount.toNat
  let authority ← many (record msg) header.nscount.toNat
  let additional ← many (record msg) header.arcount.toNat
  return ⟨header, questions, answers, authority, additional⟩

end Reader

/-- The header that some bytes begin with. -/
def headerOf (bytes : List UInt8) : Option Header := (Reader.header ⟨0, bytes⟩).map Prod.fst

/-- The message that some bytes are, if they are one and no more. -/
def decode (bytes : List UInt8) : Option Message :=
  match Reader.message bytes ⟨0, bytes⟩ with
  | some (message, ⟨_, []⟩) => some message
  | _ => none

/-! ## What a reader takes -/

/-- At this offset the reader takes just these bytes, and they are this value. -/
def Reads {α : Type} (offset : Nat) (p : Reader α) (bytes : List UInt8) (a : α) : Prop :=
  ∀ rest, p ⟨offset, bytes ++ rest⟩ = some (a, ⟨offset + bytes.length, rest⟩)

namespace Reads

variable {α β : Type} {offset : Nat} {p : Reader α} {bytes bytes' : List UInt8} {a : α}

theorem pure (offset : Nat) (a : α) : Reads offset (Pure.pure a) [] a := fun _ => rfl

/-- One reader after another. -/
theorem bind {f : α → Reader β} {b : β} (h : Reads offset p bytes a)
    (hf : Reads (offset + bytes.length) (f a) bytes' b) :
    Reads offset (p >>= f) (bytes ++ bytes') b := by
  intro rest
  have hnext := hf rest
  rw [Nat.add_assoc, ← List.length_append] at hnext
  show (p ⟨offset, bytes ++ bytes' ++ rest⟩).bind _ = _
  rw [List.append_assoc, h]
  exact hnext

/-- A reader and what is made of its value. -/
theorem map {f : α → β} (h : Reads offset p bytes a) :
    Reads offset (p >>= fun a => Pure.pure (f a)) bytes (f a) := by
  have hbind := h.bind (f := fun a => Pure.pure (f a)) (Reads.pure _ (f a))
  rwa [List.append_nil] at hbind

theorem take (offset : Nat) (bytes : List UInt8) :
    Reads offset (Reader.take bytes.length) bytes bytes := by
  intro rest
  unfold Reader.take
  rw [if_pos (by simp only [List.length_append]; omega), List.take_left, List.drop_left]

theorem u16 (offset : Nat) (n : UInt16) : Reads offset Reader.u16 (BigEndian.bytes 2 n.toNat) n := by
  have htake := (take offset (BigEndian.bytes 2 n.toNat)).map (f := fun bytes =>
    UInt16.ofNat (BigEndian.value bytes))
  rwa [BigEndian.length_bytes, BigEndian.value_bytes_of_lt n.toNat_lt, UInt16.ofNat_toNat] at htake

theorem u32 (offset : Nat) (n : UInt32) : Reads offset Reader.u32 (BigEndian.bytes 4 n.toNat) n := by
  have htake := (take offset (BigEndian.bytes 4 n.toNat)).map (f := fun bytes =>
    UInt32.ofNat (BigEndian.value bytes))
  rwa [BigEndian.length_bytes, BigEndian.value_bytes_of_lt n.toNat_lt, UInt32.ofNat_toNat] at htake

/-- A sequence is read as its elements are, wherever they stand. -/
theorem many {ι : Type} {encode : ι → List UInt8} {value : ι → α} {start : Nat} {xs : List ι}
    (h : ∀ x ∈ xs, ∀ offset, start ≤ offset → Reads offset p (encode x) (value x))
    (hoffset : start ≤ offset) :
    Reads offset (Reader.many p xs.length) (xs.flatMap encode) (xs.map value) := by
  induction xs generalizing offset with
  | nil => exact Reads.pure _ _
  | cons x xs ih =>
    have hmore := ih (fun y hy => h y (List.mem_cons_of_mem _ hy))
      (Nat.le_trans hoffset (Nat.le_add_right _ (encode x).length))
    exact (h x List.mem_cons_self _ hoffset).bind hmore.map

end Reads

/-! ### Names -/

/-- Labels as they are written out, without the zero octet. -/
def encodeLabels (labels : Labels) : List UInt8 :=
  labels.flatMap fun label => UInt8.ofNat label.length :: label

theorem encodeLabels_cons (label : List UInt8) (labels : Labels) :
    encodeLabels (label :: labels) = UInt8.ofNat label.length :: (label ++ encodeLabels labels) := by
  simp [encodeLabels]

/-- Every label has its size. -/
def Sized (labels : Labels) : Prop := ∀ label ∈ labels, 1 ≤ label.length ∧ label.length ≤ 63

instance (labels : Labels) : Decidable (Sized labels) :=
  inferInstanceAs (Decidable (∀ label ∈ labels, 1 ≤ label.length ∧ label.length ≤ 63))

theorem readLabels_encode {labels : Labels} (h : Sized labels) (rest : List UInt8) :
    readLabels (encodeLabels labels ++ 0 :: rest) = some (labels, none, rest) := by
  induction labels with
  | nil =>
    show readLabels (0 :: rest) = _
    rw [readLabels.eq_def]
    rfl
  | cons label labels ih =>
    obtain ⟨hpos, hle⟩ := h label List.mem_cons_self
    have hcons : encodeLabels (label :: labels) ++ 0 :: rest =
        UInt8.ofNat label.length :: (label ++ (encodeLabels labels ++ 0 :: rest)) := by
      rw [encodeLabels_cons, List.cons_append, List.append_assoc]
    have hlength : (UInt8.ofNat label.length).toNat = label.length := by
      rw [UInt8.toNat_ofNat']
      omega
    rw [hcons, readLabels.eq_def]
    simp only [hlength]
    rw [if_neg (by omega), if_pos hle, if_pos (by simp only [List.length_append]; omega),
      List.drop_left, List.take_left, ih fun l hl => h l (List.mem_cons_of_mem _ hl)]
    rfl

/-- The labels of a name that is written out. -/
theorem labelsAt_encode {labels : Labels} {front rest : List UInt8} (hsized : Sized labels) :
    labelsAt (front ++ (encodeLabels labels ++ 0 :: rest)) front.length = some labels := by
  rw [labelsAt, List.drop_left, readLabels_encode hsized]

namespace Reads

variable {labels : Labels}

/-- A name that is written out. -/
theorem name (msg : List UInt8) (offset : Nat) (hsized : Sized labels)
    (hlength : nameLength labels ≤ 255) :
    Reads offset (Reader.name msg) (encodeLabels labels ++ [0]) ⟨labels, none, labels⟩ := by
  intro rest
  have hrest : encodeLabels labels ++ [0] ++ rest = encodeLabels labels ++ 0 :: rest :=
    List.append_assoc ..
  unfold Reader.name
  simp only [hrest, readLabels_encode hsized, List.append_nil, if_pos hlength, List.length_append,
    List.length_cons, List.length_nil]
  congr 3
  omega

/-- A pointer to a name that stands earlier. -/
theorem pointer {msg : List UInt8} {offset target : Nat} {high low : UInt8}
    (hhigh : 192 ≤ high.toNat) (htarget : (high.toNat - 192) * 256 + low.toNat = target)
    (hback : target < offset) (hlabels : labelsAt msg target = some labels)
    (hlength : nameLength labels ≤ 255) :
    Reads offset (Reader.name msg) [high, low] ⟨[], some target, labels⟩ := by
  intro rest
  have hread : readLabels (high :: low :: rest) = some ([], some target, rest) := by
    rw [readLabels.eq_def]
    simp only [if_neg (show ¬ high.toNat = 0 by omega), if_neg (show ¬ high.toNat ≤ 63 by omega),
      if_pos hhigh, htarget]
  unfold Reader.name
  have htaken : (high :: low :: rest).length - rest.length = 2 := by
    simp only [List.length_cons]
    omega
  simp only [List.cons_append, List.nil_append, hread, if_pos hback, hlabels, if_pos hlength, htaken]
  rfl

/-! ### Messages -/

variable {msg bytes : List UInt8} {offset : Nat}

theorem header (offset : Nat) (id word qdcount ancount nscount arcount : UInt16) :
    Reads offset Reader.header
      (BigEndian.bytes 2 id.toNat ++ (BigEndian.bytes 2 word.toNat ++
        (BigEndian.bytes 2 qdcount.toNat ++ (BigEndian.bytes 2 ancount.toNat ++
          (BigEndian.bytes 2 nscount.toNat ++ BigEndian.bytes 2 arcount.toNat)))))
      ⟨id, .ofWord word, qdcount, ancount, nscount, arcount⟩ :=
  (u16 _ id).bind ((u16 _ word).bind ((u16 _ qdcount).bind ((u16 _ ancount).bind
    ((u16 _ nscount).bind (u16 _ arcount).map))))

theorem question {qname : Name} (qtype qclass : UInt16)
    (hname : Reads offset (Reader.name msg) bytes qname) :
    Reads offset (Reader.question msg)
      (bytes ++ (BigEndian.bytes 2 qtype.toNat ++ BigEndian.bytes 2 qclass.toNat))
      ⟨qname, qtype, qclass⟩ :=
  hname.bind ((u16 _ qtype).bind (u16 _ qclass).map)

theorem record {owner : Name} (rtype rclass : UInt16) (ttl : UInt32) {rdlength : UInt16}
    {rdata : List UInt8} (hname : Reads offset (Reader.name msg) bytes owner)
    (hlength : rdlength.toNat = rdata.length) :
    Reads offset (Reader.record msg)
      (bytes ++ (BigEndian.bytes 2 rtype.toNat ++ (BigEndian.bytes 2 rclass.toNat ++
        (BigEndian.bytes 4 ttl.toNat ++ (BigEndian.bytes 2 rdlength.toNat ++ rdata)))))
      ⟨owner, rtype, rclass, ttl, rdlength, rdata⟩ := by
  have hrdata : ∀ offset, Reads offset (Reader.take rdlength.toNat) rdata rdata := by
    rw [hlength]
    exact fun offset => take offset rdata
  exact hname.bind ((u16 _ rtype).bind ((u16 _ rclass).bind ((u32 _ ttl).bind
    ((u16 _ rdlength).bind (hrdata _).map))))

/-- A message of questions and answers only. -/
theorem message {header : Header} {questions : List Question} {answers : List Record}
    {headerBytes questionBytes answerBytes : List UInt8}
    (hheader : Reads offset Reader.header headerBytes header)
    (hquestions : Reads (offset + headerBytes.length)
      (Reader.many (Reader.question msg) header.qdcount.toNat) questionBytes questions)
    (hanswers : Reads (offset + headerBytes.length + questionBytes.length)
      (Reader.many (Reader.record msg) header.ancount.toNat) answerBytes answers)
    (hauthority : header.nscount = 0) (hadditional : header.arcount = 0) :
    Reads offset (Reader.message msg) (headerBytes ++ (questionBytes ++ answerBytes))
      ⟨header, questions, answers, [], []⟩ := by
  refine hheader.bind (hquestions.bind ?_)
  rw [hauthority, hadditional]
  exact hanswers.map

end Reads

/-- What is read from the start to the end is the message. -/
theorem decode_of_reads {bytes : List UInt8} {m : Message}
    (h : Reads 0 (Reader.message bytes) bytes m) : decode bytes = some m := by
  have hall := h []
  rw [List.append_nil] at hall
  rw [decode, hall]

/-- Bytes after the message make it none. -/
theorem decode_of_reads_less {bytes rest : List UInt8} {m : Message} (hrest : rest ≠ [])
    (h : Reads 0 (Reader.message (bytes ++ rest)) bytes m) : decode (bytes ++ rest) = none := by
  rw [decode, h rest]
  cases rest with
  | nil => exact absurd rfl hrest
  | cons b rest => rfl

end DomainMessage
