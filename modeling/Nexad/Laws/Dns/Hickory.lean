import Nexad.Base.DomainMessage
import Nexad.Dns.Hickory

/-!
# Answers that can be read

The handler's answer, read back as a message: the request's question and the
addresses that the store has for its name, of the type it asks for.
-/

namespace Nexad.Dns

open DomainMessage Slice

/-! ## Reading a question -/

/-- Two bytes after the first ones. -/
theorem readU16_append (front rest : List UInt8) (n : UInt16) :
    readU16 (front ++ (BigEndian.bytes 2 n.toNat ++ rest)) front.length = .ok n := by
  have hvalue : BigEndian.value (BigEndian.bytes 2 n.toNat) = n.toNat :=
    BigEndian.value_bytes_of_lt n.toNat_lt
  obtain ⟨high, low, hbytes⟩ : ∃ high low, BigEndian.bytes 2 n.toNat = [high, low] := ⟨_, _, rfl⟩
  rw [hbytes] at hvalue ⊢
  have hhigh := index_append front high (low :: rest)
  have hlow := index_append (front ++ [high]) low rest
  rw [List.append_assoc, List.length_append] at hlow
  unfold readU16
  simp only [List.cons_append, List.nil_append, List.length_cons, List.length_nil, Nat.zero_add]
    at hlow ⊢
  rw [hhigh, ok_bind, hlow, ok_bind, hvalue, UInt16.ofNat_toNat]
  rfl

/-- The zero byte ends the labels. -/
theorem parseLabels_zero (acc : List String) (front rest : List UInt8) :
    parseLabels (front ++ 0 :: rest) acc front.length = .ok (some (acc, front.length + 1)) := by
  rw [parseLabels, if_neg (by simp), index_append, ok_bind, if_pos (by decide)]
  rfl

/-- A label is read, and then what follows it. -/
theorem parseLabels_label {label : String} {b : UInt8} (hb : b.toNat = (Utf8.encode label).length)
    (hpos : 0 < b.toNat) (acc : List String) (front rest : List UInt8) :
    parseLabels (front ++ b :: (Utf8.encode label ++ rest)) acc front.length =
      parseLabels (front ++ b :: Utf8.encode label ++ rest) (acc ++ [label])
        (front ++ b :: Utf8.encode label).length := by
  have hrange := range_append (front ++ [b]) (Utf8.encode label) rest
  have hlength : (front ++ b :: Utf8.encode label).length = front.length + 1 + b.toNat := by
    rw [List.length_append, List.length_cons, hb]
    omega
  rw [List.append_assoc, List.length_append, List.singleton_append, List.length_singleton,
    ← hb] at hrange
  rw [parseLabels, if_neg (by simp), index_append, ok_bind, if_neg (by omega),
    if_neg (by simp only [List.length_append, List.length_cons]; omega), hrange, ok_bind,
    Utf8.decode_encode, hlength, List.append_assoc, List.cons_append]

/-- Every label has a size that a byte can say. -/
def ByteSized (labels : List String) : Prop :=
  ∀ label ∈ labels, 1 ≤ (Utf8.encode label).length ∧ (Utf8.encode label).length ≤ 255

theorem byteSized_of_sized {labels : List String} (h : Sized (labels.map Utf8.encode)) :
    ByteSized labels := by
  intro label hlabel
  obtain ⟨hpos, hle⟩ := h _ (List.mem_map_of_mem hlabel)
  exact ⟨hpos, by omega⟩

/-- The loop reads labels that are written out. -/
theorem parseLabels_encode {labels : List String} (hsized : ByteSized labels)
    (acc : List String) (front rest : List UInt8) :
    parseLabels (front ++ (encodeLabels (labels.map Utf8.encode) ++ 0 :: rest)) acc front.length =
      .ok (some (acc ++ labels,
        (front ++ (encodeLabels (labels.map Utf8.encode) ++ [0])).length)) := by
  induction labels generalizing acc front with
  | nil =>
    have hzero := parseLabels_zero acc front rest
    rw [List.append_nil, List.length_append]
    exact hzero
  | cons label labels ih =>
    obtain ⟨hpos, hle⟩ := hsized label List.mem_cons_self
    have hb : (UInt8.ofNat (Utf8.encode label).length).toNat = (Utf8.encode label).length := by
      rw [UInt8.toNat_ofNat']
      omega
    have hstep := parseLabels_label hb (by omega) acc front
      (encodeLabels (labels.map Utf8.encode) ++ 0 :: rest)
    have hmore := ih (fun l hl => hsized l (List.mem_cons_of_mem _ hl)) (acc ++ [label])
      (front ++ UInt8.ofNat (Utf8.encode label).length :: Utf8.encode label)
    have hcons : ∀ tail, encodeLabels ((label :: labels).map Utf8.encode) ++ tail =
        UInt8.ofNat (Utf8.encode label).length ::
          (Utf8.encode label ++ (encodeLabels (labels.map Utf8.encode) ++ tail)) := by
      intro tail
      rw [List.map_cons, encodeLabels_cons, List.cons_append, List.append_assoc]
    rw [hcons, hstep, hmore, hcons]
    simp only [List.append_assoc, List.cons_append, List.nil_append]

/-- A question that is written out: its labels, its type and its class. -/
def questionBytes (labels : List String) (qtype qclass : UInt16) : List UInt8 :=
  encodeLabels (labels.map Utf8.encode) ++ [0] ++
    (BigEndian.bytes 2 qtype.toNat ++ BigEndian.bytes 2 qclass.toNat)

/-- A question that is written out is read. -/
theorem parseQuestion_bytes {labels : List String} (hsized : ByteSized labels)
    (qtype qclass : UInt16) (front rest : List UInt8) :
    parseQuestion (front ++ (questionBytes labels qtype qclass ++ rest)) front.length =
      .ok (some (".".intercalate labels, qtype,
        front.length + (questionBytes labels qtype qclass).length)) := by
  have hlabels := parseLabels_encode hsized [] front
    (BigEndian.bytes 2 qtype.toNat ++ (BigEndian.bytes 2 qclass.toNat ++ rest))
  have hqtype := readU16_append (front ++ (encodeLabels (labels.map Utf8.encode) ++ [0]))
    (BigEndian.bytes 2 qclass.toNat ++ rest) qtype
  have hdata : front ++ (encodeLabels (labels.map Utf8.encode) ++ [0]) ++
      (BigEndian.bytes 2 qtype.toNat ++ (BigEndian.bytes 2 qclass.toNat ++ rest)) =
      front ++ (questionBytes labels qtype qclass ++ rest) := by
    simp only [questionBytes, List.append_assoc]
  have hname : front ++ (encodeLabels (labels.map Utf8.encode) ++ 0 ::
      (BigEndian.bytes 2 qtype.toNat ++ (BigEndian.bytes 2 qclass.toNat ++ rest))) =
      front ++ (questionBytes labels qtype qclass ++ rest) := by
    simp only [questionBytes, List.append_assoc, List.cons_append, List.nil_append]
  have hend : front.length + (questionBytes labels qtype qclass).length =
      (front ++ (encodeLabels (labels.map Utf8.encode) ++ [0])).length + 4 := by
    simp only [questionBytes, List.length_append, BigEndian.length_bytes]
    omega
  have hfits : ¬ (front ++ (encodeLabels (labels.map Utf8.encode) ++ [0])).length + 4 >
      (front ++ (questionBytes labels qtype qclass ++ rest)).length := by
    simp only [questionBytes, List.length_append, BigEndian.length_bytes]
    omega
  rw [hname] at hlabels
  rw [hdata] at hqtype
  rw [parseQuestion, hlabels, ok_bind, hend]
  simp only [List.nil_append, if_neg hfits, hqtype, ok_bind]
  rfl

/-- A header that can be read is twelve bytes, and the handler reads the same
words in it. -/
theorem readU16_of_header {data : List UInt8} {header : Header} (h : headerOf data = some header) :
    12 ≤ data.length ∧ readU16 data 0 = .ok header.id ∧ readU16 data 4 = .ok header.qdcount ∧
      ∃ word, readU16 data 2 = .ok word ∧ header.flags = .ofWord word := by
  match data with
  | b₀ :: b₁ :: b₂ :: b₃ :: b₄ :: b₅ :: b₆ :: b₇ :: b₈ :: b₉ :: b₁₀ :: b₁₁ :: rest =>
    cases h
    exact ⟨by simp, rfl, rfl, _, rfl, rfl⟩
  | [] | [_] | [_, _] | [_, _, _] | [_, _, _, _] | [_, _, _, _, _] | [_, _, _, _, _, _]
  | [_, _, _, _, _, _, _] | [_, _, _, _, _, _, _, _] | [_, _, _, _, _, _, _, _, _]
  | [_, _, _, _, _, _, _, _, _, _] | [_, _, _, _, _, _, _, _, _, _, _] => cases h

theorem opcode_eq (word : UInt16) : ((word >>> 11) &&& 0xF).toNat = (Flags.ofWord word).opcode := by
  have hmask : ∀ n : Nat, n &&& 15 = n % 16 := fun n => Nat.and_two_pow_sub_one_eq_mod n 4
  rw [UInt16.toNat_and, UInt16.toNat_shiftRight]
  show (word.toNat >>> 11) &&& 15 = _
  rw [hmask, Nat.shiftRight_eq_div_pow]
  rfl

/-! ## The question and its answer -/

/-- A question whose labels are texts of the sizes that labels and names have. -/
structure TextQuestion where
  labels : List String
  qtype : UInt16
  qclass : UInt16
  sized : Sized (labels.map Utf8.encode)
  fits : nameLength (labels.map Utf8.encode) ≤ 255

/-- The record type of an address. -/
def IpAddr.rtype : IpAddr → UInt16
  | .v4 _ => 1
  | .v6 _ => 28

namespace TextQuestion

variable (q : TextQuestion)

def bytes : List UInt8 := questionBytes q.labels q.qtype q.qclass

/-- The name as a text. -/
def name : String := ".".intercalate q.labels

/-- The question as it is read. -/
def question : Question where
  qname := ⟨q.labels.map Utf8.encode, none, q.labels.map Utf8.encode⟩
  qtype := q.qtype
  qclass := q.qclass

/-- The type of the address is the one asked for, or every type is. -/
def Asks (ip : IpAddr) : Prop := q.qtype = 255 ∨ q.qtype = ip.rtype

instance (ip : IpAddr) : Decidable (q.Asks ip) := inferInstanceAs (Decidable (_ ∨ _))

/-- The record that answers with an address: its owner is the name of the
question, by a pointer to it. -/
def answer (ip : IpAddr) : Record where
  owner := ⟨[], some 12, q.labels.map Utf8.encode⟩
  rtype := ip.rtype
  rclass := 1
  ttl := 60
  rdlength := .ofNat ip.octets.length
  rdata := ip.octets

/-- The name ends in `.internal`, in letters of either case. -/
def Internal : Prop := ∃ front last : List Char,
  q.name.toList = front ++ last ∧ last.map Char.toLower = ".internal".toList

variable {q}

theorem matchesType_eq (ip : IpAddr) : matchesType q.qtype ip = decide (q.Asks ip) := by
  cases ip with
  | v4 => exact decide_eq_decide.mpr or_comm
  | v6 => exact decide_eq_decide.mpr or_comm

/-- The handler takes such a name for its own. -/
theorem Internal.isInternal (h : q.Internal) (tables : Lowercase.Tables) :
    isInternal (Lowercase.toLowercase tables q.name) = true := by
  obtain ⟨front, last, hname, hlast⟩ := h
  have hascii : ∀ c ∈ last, c.toNat < 128 := by
    intro c hc
    have hlower : c.toLower ∈ ".internal".toList := hlast ▸ List.mem_map_of_mem hc
    have hall : (".internal".toList.all fun c => c.toNat < 128) = true := rfl
    exact Lowercase.ascii_of_toLower (of_decide_eq_true (List.all_eq_true.mp hall _ hlower))
  have hsuffix : last.map Char.toLower <:+ Lowercase.lowerFrom tables [] (front ++ last) :=
    Lowercase.suffix_lowerFrom hascii [] front
  have hlower : (Lowercase.toLowercase tables q.name).toList =
      Lowercase.lowerFrom tables [] (front ++ last) := by
    rw [← hname]
    exact String.toList_ofList
  rw [hlast, ← hlower] at hsuffix
  unfold Dns.isInternal
  rw [List.isSuffixOf_iff_suffix.mpr hsuffix, Bool.true_or]

variable (q)

theorem toNat_length_octets (ip : IpAddr) : (UInt16.ofNat ip.octets.length).toNat = ip.octets.length := by
  cases ip with
  | v4 addr => rfl
  | v6 octets =>
    rw [IpAddr.octets, Vector.length_toList]
    rfl

/-- The fields of an answer record, one after the other. -/
theorem recordBytes_eq (ip : IpAddr) : recordBytes ip =
    BigEndian.bytes 2 ip.rtype.toNat ++ (BigEndian.bytes 2 (1 : UInt16).toNat ++
      (BigEndian.bytes 4 (60 : UInt32).toNat ++
        (BigEndian.bytes 2 (UInt16.ofNat ip.octets.length).toNat ++ ip.octets))) := by
  rw [toNat_length_octets]
  cases ip with
  | v4 addr => rfl
  | v6 octets =>
    simp only [recordBytes, IpAddr.octets, IpAddr.rtype, Vector.length_toList, List.append_assoc]
    rfl

/-- The question in bytes is read as the question. -/
theorem reads_question (msg : List UInt8) (offset : Nat) :
    Reads offset (Reader.question msg) q.bytes q.question :=
  (Reads.name msg offset q.sized q.fits).question q.qtype q.qclass

/-- An answer in bytes is read as the record. -/
theorem reads_answer {msg : List UInt8} {offset : Nat} (hoffset : 13 ≤ offset)
    (hlabels : labelsAt msg 12 = some (q.labels.map Utf8.encode)) (ip : IpAddr) :
    Reads offset (Reader.record msg) ([0xC0, 0x0C] ++ recordBytes ip) (q.answer ip) := by
  have hname : Reads offset (Reader.name msg) [0xC0, 0x0C]
      ⟨[], some 12, q.labels.map Utf8.encode⟩ :=
    .pointer (by decide) rfl hoffset hlabels q.fits
  rw [recordBytes_eq]
  exact hname.record ip.rtype 1 60 (toNat_length_octets ip)

/-- The header of an answer. -/
def answerHeader (id word ancount : UInt16) : List UInt8 :=
  BigEndian.bytes 2 id.toNat ++ (BigEndian.bytes 2 word.toNat ++
    (BigEndian.bytes 2 (1 : UInt16).toNat ++ (BigEndian.bytes 2 ancount.toNat ++
      (BigEndian.bytes 2 (0 : UInt16).toNat ++ BigEndian.bytes 2 (0 : UInt16).toNat))))

@[simp] theorem length_answerHeader (id word ancount : UInt16) :
    (answerHeader id word ancount).length = 12 := by
  simp [answerHeader]

/-- A header, the question and answers are read as a message of these, where a
name begins at the twelfth byte. -/
theorem reads_response {msg : List UInt8} (hlabels : labelsAt msg 12 = some (q.labels.map Utf8.encode))
    (id word ancount : UInt16) {ips : List IpAddr} (hcount : ancount.toNat = ips.length) :
    Reads 0 (Reader.message msg) (answerHeader id word ancount ++
        (q.bytes ++ ips.flatMap fun ip => [0xC0, 0x0C] ++ recordBytes ip))
      ⟨⟨id, .ofWord word, 1, ancount, 0, 0⟩, [q.question], ips.map q.answer, [], []⟩ := by
  have hpos : 0 < q.bytes.length := by
    simp [bytes, questionBytes]
  refine .message (.header 0 id word 1 ancount 0 0) ?_ ?_ rfl rfl
  · exact (q.reads_question _ _).map
  · show Reads _ (Reader.many _ ancount.toNat) _ _
    rw [hcount]
    have hanswer : ∀ ip ∈ ips, ∀ offset, 13 ≤ offset → Reads offset (Reader.record msg)
        ([0xC0, 0x0C] ++ recordBytes ip) (q.answer ip) :=
      fun ip _ offset hoffset => q.reads_answer hoffset hlabels ip
    apply Reads.many hanswer
    show 13 ≤ 0 + (answerHeader id word ancount).length + q.bytes.length
    rw [length_answerHeader]
    omega

/-- The name of the question stands after the header. -/
theorem labelsAt_response (id word ancount : UInt16) (rest : List UInt8) :
    labelsAt (answerHeader id word ancount ++ (q.bytes ++ rest)) 12 =
      some (q.labels.map Utf8.encode) := by
  have hname : q.bytes = encodeLabels (q.labels.map Utf8.encode) ++ 0 ::
      (BigEndian.bytes 2 q.qtype.toNat ++ BigEndian.bytes 2 q.qclass.toNat) := by
    simp [bytes, questionBytes]
  rw [← length_answerHeader id word ancount, hname, List.append_assoc, List.cons_append]
  exact labelsAt_encode q.sized

/-- A header, the question and its answers are read as a message of these. -/
theorem decode_response (id word ancount : UInt16) {ips : List IpAddr}
    (hcount : ancount.toNat = ips.length) :
    decode (answerHeader id word ancount ++
        (q.bytes ++ ips.flatMap fun ip => [0xC0, 0x0C] ++ recordBytes ip)) =
      some ⟨⟨id, .ofWord word, 1, ancount, 0, 0⟩, [q.question], ips.map q.answer, [], []⟩ :=
  decode_of_reads (q.reads_response (q.labelsAt_response id word ancount _) id word ancount hcount)

/-- More answers than the header counts are no message. -/
theorem decode_response_less (id word ancount : UInt16) {ips : List IpAddr}
    (hcount : ancount.toNat < ips.length) :
    decode (answerHeader id word ancount ++
      (q.bytes ++ ips.flatMap fun ip => [0xC0, 0x0C] ++ recordBytes ip)) = none := by
  have hlabels := q.labelsAt_response id word ancount
    (ips.flatMap fun ip => [0xC0, 0x0C] ++ recordBytes ip)
  obtain ⟨ip, more, hmore⟩ := List.exists_cons_of_ne_nil (List.drop_eq_nil_iff.not.mpr hcount.not_ge)
  rw [← List.take_append_drop ancount.toNat ips, hmore, List.flatMap_append] at hlabels ⊢
  simp only [← List.append_assoc] at hlabels ⊢
  have hcounted : ancount.toNat = (ips.take ancount.toNat).length :=
    (List.length_take_of_le hcount.le).symm
  have hreads := q.reads_response hlabels id word ancount hcounted
  simp only [← List.append_assoc] at hreads
  exact decode_of_reads_less (by simp) hreads

/-- The second word of the header of an answer with some addresses. -/
def answerWord (ips : List IpAddr) : UInt16 :=
  0x8000 ||| 0x0400 ||| 0x0080 ||| if ips = [] then 3 else 0

/-- What that word says. -/
def answerFlags (ips : List IpAddr) : Flags where
  qr := true
  opcode := 0
  aa := true
  tc := false
  rd := false
  ra := true
  z := 0
  rcode := if ips = [] then 3 else 0

theorem ofWord_answerWord (ips : List IpAddr) : Flags.ofWord (answerWord ips) = answerFlags ips := by
  unfold answerWord answerFlags
  split
  · rfl
  · rfl

/-- The answer to a question whose name has some addresses, in bytes. -/
def response (id : UInt16) (ips : List IpAddr) : List UInt8 :=
  answerHeader id (answerWord ips) (.ofNat (ips.filter q.Asks).length) ++
    (q.bytes ++ (ips.filter q.Asks).flatMap fun ip => [0xC0, 0x0C] ++ recordBytes ip)

/-- What is built: a header, the question as it came, and the answers. -/
theorem buildDnsResponse_eq (id : UInt16) {front : List UInt8} (hfront : front.length = 12)
    (rest : List UInt8) (queryName : String) (ips : Option (List IpAddr)) :
    buildDnsResponse id (front ++ (q.bytes ++ rest)) queryName (12 + q.bytes.length) q.qtype ips =
      .ok (q.response id (ips.getD [])) := by
  have hrange := range_append front q.bytes rest
  rw [hfront] at hrange
  have hfilter : (ips.getD []).filter (matchesType q.qtype) = (ips.getD []).filter q.Asks :=
    List.filter_congr fun ip _ => matchesType_eq ip
  have hempty : (((ips.getD []).filter q.Asks).isEmpty && (ips.getD []).isEmpty) =
      decide (ips.getD [] = []) := by
    cases ips.getD [] with
    | nil => rfl
    | cons ip more => simp
  unfold buildDnsResponse response
  simp only [hfilter, hempty, hrange, ok_bind, decide_eq_true_eq, answerHeader, answerWord,
    List.append_assoc]
  rfl

/-- The addresses that the store has for the name of a question, in lower case. -/
def resolved (tables : Lowercase.Tables) (store : DnsRecordStore IpAddr) : List IpAddr :=
  (store.resolve (Lowercase.toLowercase tables q.name)).getD []

section Answer

variable {q} {data : List UInt8} {header : Header} (tables : Lowercase.Tables)
  (store : DnsRecordStore IpAddr) (upstream : Upstream)

/-- A query for a name below `internal` is answered from the store. -/
theorem handleDnsQuery_internal (hheader : headerOf data = some header)
    (hopcode : header.flags.opcode = 0) (hcount : 1 ≤ header.qdcount.toNat)
    (hquestion : q.bytes <+: data.drop 12) (hinternal : q.Internal) :
    handleDnsQuery tables data store upstream =
      .ok (.answered (q.response header.id (q.resolved tables store))) := by
  obtain ⟨hlength, hid, hqdcount, word, hword, hflags⟩ := readU16_of_header hheader
  obtain ⟨rest, hrest⟩ := hquestion
  have hfront : (data.take 12).length = 12 := List.length_take_of_le hlength
  have hdata : data = data.take 12 ++ (q.bytes ++ rest) := by
    rw [hrest, List.take_append_drop]
  have hparse : parseQuestion (data.take 12 ++ (q.bytes ++ rest)) (data.take 12).length =
      .ok (some (q.name, q.qtype, (data.take 12).length + q.bytes.length)) :=
    parseQuestion_bytes (byteSized_of_sized q.sized) q.qtype q.qclass (data.take 12) rest
  have hbuild := q.buildDnsResponse_eq header.id hfront rest q.name
    (store.resolve (Lowercase.toLowercase tables q.name))
  have hopen : ¬ ((word >>> 11) &&& 0xF ≠ 0 ∨ header.qdcount = 0) := by
    rw [hflags, ← opcode_eq] at hopcode
    rintro (hword | hzero)
    · exact hword (UInt16.toNat_inj.mp hopcode)
    · rw [hzero] at hcount
      exact absurd hcount (by decide)
  rw [hfront] at hparse
  rw [← hdata] at hparse hbuild
  unfold handleDnsQuery
  rw [if_neg (Nat.not_lt.mpr hlength)]
  simp only [hid, hword, hqdcount, ok_bind, if_neg hopen, hparse, hinternal.isInternal tables,
    if_true, hbuild]
  rfl

/-- That answer is a message: the query's id and question, and a record for each
address that the store has for the name and the question asks for, in the
store's order. The response code says whether it has any. -/
theorem answer_decodes (hheader : headerOf data = some header)
    (hopcode : header.flags.opcode = 0) (hcount : 1 ≤ header.qdcount.toNat)
    (hquestion : q.bytes <+: data.drop 12) (hinternal : q.Internal)
    (hfew : ((q.resolved tables store).filter q.Asks).length ≤ 65535) :
    ∃ (response : List UInt8) (m : Message),
      handleDnsQuery tables data store upstream = .ok (.answered response) ∧
      decode response = some m ∧ m.header.id = header.id ∧
      m.header.flags = answerFlags (q.resolved tables store) ∧
      m.header.qdcount = 1 ∧ m.questions = [q.question] ∧
      m.header.ancount.toNat = m.answers.length ∧
      m.answers = ((q.resolved tables store).filter q.Asks).map q.answer ∧
      m.authority = [] ∧ m.additional = [] := by
  have hhandled := handleDnsQuery_internal tables store upstream hheader hopcode hcount hquestion
    hinternal
  have hancount : (UInt16.ofNat ((q.resolved tables store).filter q.Asks).length).toNat =
      ((q.resolved tables store).filter q.Asks).length := by
    rw [UInt16.toNat_ofNat']
    omega
  have hdecode := q.decode_response header.id (answerWord (q.resolved tables store)) _ hancount
  refine ⟨_, _, hhandled, hdecode, ?_⟩
  dsimp only
  rw [ofWord_answerWord, hancount, List.length_map]
  exact ⟨rfl, rfl, rfl, rfl, rfl, rfl, rfl, rfl⟩

end Answer

end TextQuestion

/-- `api.shop.internal`, for an IPv4 address. -/
def apiQuestion : TextQuestion := ⟨["api", "shop", "internal"], 1, 1, by decide, by decide⟩

/-- A query with this question. -/
def apiQuery : List UInt8 := [0, 66, 1, 0, 0, 1, 0, 0, 0, 0, 0, 0] ++ apiQuestion.bytes

def apiStore : DnsRecordStore IpAddr := DnsRecordStore.new.register "shop" "api" (.v4 ⟨10, 0, 0, 1⟩)

/-- No upstream server is needed for it. -/
def unreachable : Upstream := ⟨false, fun _ => false, fun _ => none⟩

theorem answer_decodes_api : ∃ (response : List UInt8) (m : Message),
    handleDnsQuery Lowercase.ascii apiQuery apiStore unreachable = .ok (.answered response) ∧
      decode response = some m ∧ m.header.id = 66 ∧ m.header.flags.rcode = 0 ∧
      m.questions = [apiQuestion.question] ∧
      m.answers = [apiQuestion.answer (.v4 ⟨10, 0, 0, 1⟩)] := by
  have hresolved : apiQuestion.resolved Lowercase.ascii apiStore = [.v4 ⟨10, 0, 0, 1⟩] := by decide
  have hfilter : (apiQuestion.resolved Lowercase.ascii apiStore).filter apiQuestion.Asks =
      [.v4 ⟨10, 0, 0, 1⟩] := by
    rw [hresolved]
    rfl
  have hinternal : apiQuestion.Internal := ⟨"api.shop".toList, ".internal".toList, by decide, by decide⟩
  have hheader : headerOf apiQuery = some ⟨66, .ofWord 256, 1, 0, 0, 0⟩ := rfl
  obtain ⟨response, m, hhandled, hdecode, hid, hflags, -, hquestions, -, hanswers, -, -⟩ :=
    TextQuestion.answer_decodes Lowercase.ascii apiStore unreachable hheader rfl (by decide)
      (List.prefix_refl _) hinternal (by rw [hfilter]; decide)
  rw [hfilter] at hanswers
  rw [hresolved] at hflags
  exact ⟨response, m, hhandled, hdecode, hid, congrArg Flags.rcode hflags, hquestions, hanswers⟩

end Nexad.Dns
