import Nexad.Laws.Dns.Hickory
import Nexad.Laws.Dns.RecordStore

/-!
# Which packets are answered

What it takes for a packet to be answered from the store
(`handleDnsQuery_answered_iff`). An answer copies the question it answers, to
the same place, and its header is one that the handler takes for a query's. So
every answer is a packet that is answered again (`answer_is_answered`).

Its records are written out whole, while their number and, over TCP, the length
of the message are cut to sixteen bits. Both are true as long as the message is
short enough (`counts_true_iff`).
-/

namespace Nexad.Dns

open DomainMessage Slice

/-! ## What the parser has read -/

/-- A byte that ends the labels, or a label and what follows it. -/
theorem parseLabels_some_iff {data : List UInt8} {acc labels : List String} {offset stop : Nat} :
    parseLabels data acc offset = .ok (some (labels, stop)) ↔
      ∃ b, data[offset]? = some b ∧
        (b.toNat = 0 ∧ labels = acc ∧ stop = offset + 1 ∨
          b.toNat ≠ 0 ∧ offset + 1 + b.toNat ≤ data.length ∧ ∃ label,
            Utf8.decode ((data.take (offset + 1 + b.toNat)).drop (offset + 1)) = some label ∧
            parseLabels data (acc ++ [label]) (offset + 1 + b.toNat) = .ok (some (labels, stop))) := by
  rw [parseLabels]
  by_cases hend : data.length ≤ offset
  · rw [if_pos hend, List.getElem?_eq_none hend]
    constructor
    · intro h
      cases h
    · rintro ⟨b, hb, -⟩
      cases hb
  rw [if_neg hend]
  obtain ⟨b, hb⟩ : ∃ b, data[offset]? = some b := ⟨_, List.getElem?_eq_getElem (by omega)⟩
  rw [index_eq_ok_iff.mpr hb, ok_bind, hb]
  simp only [Option.some.injEq, exists_eq_left']
  by_cases hzero : b.toNat = 0
  · rw [if_pos hzero]
    simp only [hzero, ne_eq, not_true_eq_false, false_and, or_false, true_and]
    constructor
    · intro h
      cases h
      exact ⟨rfl, rfl⟩
    · rintro ⟨rfl, rfl⟩
      rfl
  rw [if_neg hzero]
  by_cases hlong : offset + 1 + b.toNat > data.length
  · rw [if_pos hlong]
    constructor
    · intro h
      cases h
    · rintro (⟨h, -⟩ | ⟨-, h, -⟩)
      · exact absurd h hzero
      · omega
  rw [if_neg hlong, range_eq_ok_iff.mpr ⟨by omega, by omega, rfl⟩, ok_bind]
  simp only [hzero, false_and, false_or, ne_eq, not_false_eq_true, true_and]
  cases hlabel : Utf8.decode ((data.take (offset + 1 + b.toNat)).drop (offset + 1)) with
  | none =>
    constructor
    · intro h
      cases h
    · rintro ⟨-, label, h, -⟩
      cases h
  | some label =>
    constructor
    · intro h
      exact ⟨by omega, label, rfl, h⟩
    · rintro ⟨-, label', h, hrest⟩
      cases h
      exact hrest

/-- Labels are read from the bytes up to where they end, and from no others. -/
theorem parseLabels_local {data : List UInt8} (data' : List UInt8) {acc labels : List String}
    {offset stop : Nat} (h : parseLabels data acc offset = .ok (some (labels, stop))) :
    offset < stop ∧ stop ≤ data.length ∧
      (AgreeOn data data' offset stop → parseLabels data' acc offset = .ok (some (labels, stop))) := by
  induction hn : data.length - offset using Nat.strongRecOn generalizing acc offset with
  | ind n ih =>
    obtain ⟨b, hb, ⟨hzero, rfl, rfl⟩ | ⟨hpos, hfits, label, hlabel, hrest⟩⟩ :=
      parseLabels_some_iff.mp h
    · obtain ⟨hlt, -⟩ := List.getElem?_eq_some_iff.mp hb
      refine ⟨Nat.lt_succ_self _, hlt, fun hagree => parseLabels_some_iff.mpr ⟨b, ?_, .inl ⟨hzero, rfl, rfl⟩⟩⟩
      rw [hagree _ le_rfl (Nat.lt_succ_self _), hb]
    · obtain ⟨hstop, hle, hlocal⟩ := ih _ (by omega) hrest rfl
      refine ⟨by omega, hle, fun hagree => parseLabels_some_iff.mpr ⟨b, ?_, .inr ⟨hpos, ?_, label, ?_, ?_⟩⟩⟩
      · rw [hagree _ le_rfl (by omega), hb]
      · have hlength := hagree.le_length (by omega) hle
        omega
      · rw [(hagree.mono (Nat.le_succ offset) hstop.le).part]
        exact hlabel
      · exact hlocal (hagree.mono (by omega) le_rfl)

theorem readU16_local {data data' : List UInt8} {i : Nat} {n : UInt16} (h : readU16 data i = .ok n)
    (hagree : AgreeOn data data' i (i + 2)) : readU16 data' i = .ok n := by
  have hindex : ∀ j, i ≤ j → j < i + 2 → index data' j = index data j := by
    intro j hj hj'
    unfold index
    rw [hagree j hj hj']
  rw [readU16, hindex i le_rfl (by omega), hindex (i + 1) (by omega) (by omega)]
  exact h

/-- A question is read from the bytes up to where it ends, and from no others. -/
theorem parseQuestion_local {data : List UInt8} (data' : List UInt8) {offset stop : Nat}
    {name : String} {qtype : UInt16} (h : parseQuestion data offset = .ok (some (name, qtype, stop))) :
    offset < stop ∧ stop ≤ data.length ∧
      (AgreeOn data data' offset stop →
        parseQuestion data' offset = .ok (some (name, qtype, stop))) := by
  unfold parseQuestion at h ⊢
  obtain ⟨parsed, hlabels, h⟩ := bind_eq_ok h
  match parsed, hlabels, h with
  | some (labels, after), hlabels, h =>
    obtain ⟨hafter, hle, hlocal⟩ := parseLabels_local data' hlabels
    dsimp only at h
    split at h
    · cases h
    · next hfits =>
      obtain ⟨n, hqtype, h⟩ := bind_eq_ok h
      cases h
      refine ⟨by omega, by omega, fun hagree => ?_⟩
      have hlength := hagree.le_length (by omega) (by omega)
      rw [hlocal (hagree.mono le_rfl (by omega)), ok_bind]
      dsimp only
      rw [if_neg (by omega), readU16_local hqtype (hagree.mono hafter.le (by omega))]
      rfl

/-! ## What is answered -/

/-- What the store has for a name, as far as it answers the type. -/
def answers (tables : Lowercase.Tables) (store : DnsRecordStore IpAddr) (name : String)
    (qtype : UInt16) : List IpAddr :=
  ((store.resolve (Lowercase.toLowercase tables name)).getD []).filter (matchesType qtype)

/-- The records that answer with some addresses, in bytes. -/
def answerBytes (ips : List IpAddr) : List UInt8 := ips.flatMap fun ip => [0xC0, 0x0C] ++ recordBytes ip

/-- An answer is a header, the question as it came, and a record for each address. -/
theorem buildDnsResponse_eq_ok_iff {id : UInt16} {data response : List UInt8} {name : String}
    {stop : Nat} {qtype : UInt16} {ips : Option (List IpAddr)} :
    buildDnsResponse id data name stop qtype ips = .ok response ↔
      12 ≤ stop ∧ stop ≤ data.length ∧ response =
        TextQuestion.answerHeader id
            (0x8000 ||| 0x0400 ||| 0x0080 |||
              if ((ips.getD []).filter (matchesType qtype)).isEmpty && (ips.getD []).isEmpty then 3 else 0)
            (.ofNat ((ips.getD []).filter (matchesType qtype)).length) ++
          ((data.take stop).drop 12 ++ answerBytes ((ips.getD []).filter (matchesType qtype))) := by
  unfold buildDnsResponse
  constructor
  · intro h
    obtain ⟨question, hquestion, h⟩ := bind_eq_ok h
    obtain ⟨hstart, hstop, rfl⟩ := range_eq_ok_iff.mp hquestion
    refine ⟨hstart, hstop, ?_⟩
    rw [← Except.ok.inj h]
    simp only [TextQuestion.answerHeader, answerBytes, List.append_assoc]
    rfl
  · rintro ⟨hstart, hstop, rfl⟩
    rw [range_eq_ok_iff.mpr ⟨hstart, hstop, rfl⟩]
    simp only [ok_bind, TextQuestion.answerHeader, answerBytes, List.append_assoc]
    rfl

/-- A packet is answered from the store exactly if it has a header of a query
with a question, the first question can be read, and its name is internal. -/
theorem handleDnsQuery_answered_iff {tables : Lowercase.Tables} {data response : List UInt8}
    {store : DnsRecordStore IpAddr} {upstream : Upstream} :
    handleDnsQuery tables data store upstream = .ok (.answered response) ↔
      ∃ id flags qdcount name qtype stop, 12 ≤ data.length ∧ readU16 data 0 = .ok id ∧
        readU16 data 2 = .ok flags ∧ readU16 data 4 = .ok qdcount ∧ (flags >>> 11) &&& 0xF = 0 ∧
        qdcount ≠ 0 ∧ parseQuestion data 12 = .ok (some (name, qtype, stop)) ∧
        isInternal (Lowercase.toLowercase tables name) = true ∧
        buildDnsResponse id data name stop qtype
          (store.resolve (Lowercase.toLowercase tables name)) = .ok response := by
  unfold handleDnsQuery
  constructor
  · intro h
    split at h
    · cases h
    · next hlength =>
      obtain ⟨id, hid, h⟩ := bind_eq_ok h
      obtain ⟨flags, hflags, h⟩ := bind_eq_ok h
      obtain ⟨qdcount, hqdcount, h⟩ := bind_eq_ok h
      dsimp only at h
      split at h
      · cases h
      · next hopen =>
        rw [not_or, not_not] at hopen
        obtain ⟨parsed, hquestion, h⟩ := bind_eq_ok h
        cases parsed with
        | none => cases h
        | some parsed =>
          obtain ⟨name, qtype, stop⟩ := parsed
          dsimp only at h
          split at h
          · next hinternal =>
            obtain ⟨built, hbuild, h⟩ := bind_eq_ok h
            cases h
            exact ⟨id, flags, qdcount, name, qtype, stop, Nat.not_lt.mp hlength, hid, hflags,
              hqdcount, hopen.1, hopen.2, hquestion, hinternal, hbuild⟩
          · cases h
  · rintro ⟨id, flags, qdcount, name, qtype, stop, hlength, hid, hflags, hqdcount, hopcode, hcount,
      hquestion, hinternal, hbuild⟩
    have hopen : ¬ ((flags >>> 11) &&& 0xF ≠ 0 ∨ qdcount = 0) := by
      rintro (h | h)
      · exact h hopcode
      · exact hcount h
    rw [if_neg (Nat.not_lt.mpr hlength)]
    simp only [hid, hflags, hqdcount, ok_bind, if_neg hopen, hquestion, hinternal, if_true, hbuild]
    rfl

/-- The header that an answer begins with. -/
theorem headerOf_answerHeader (id word ancount : UInt16) (rest : List UInt8) :
    headerOf (TextQuestion.answerHeader id word ancount ++ rest) =
      some ⟨id, .ofWord word, 1, ancount, 0, 0⟩ := by
  rw [headerOf, TextQuestion.answerHeader, Reads.header 0 id word 1 ancount 0 0 rest]
  rfl

/-- Every answer from the store is a packet that is answered from any store:
its header is one of a query, and it has the question that it answers. -/
theorem answer_is_answered {tables : Lowercase.Tables} {data response : List UInt8}
    {store : DnsRecordStore IpAddr} {upstream : Upstream}
    (h : handleDnsQuery tables data store upstream = .ok (.answered response))
    (store' : DnsRecordStore IpAddr) (upstream' : Upstream) :
    ∃ response', handleDnsQuery tables response store' upstream' = .ok (.answered response') := by
  obtain ⟨id, flags, qdcount, name, qtype, stop, hlength, -, -, -, -, -, hquestion, hinternal, hbuild⟩ :=
    handleDnsQuery_answered_iff.mp h
  obtain ⟨hstart, hstop, hresponse⟩ := buildDnsResponse_eq_ok_iff.mp hbuild
  generalize hword : (0x8000 ||| 0x0400 ||| 0x0080 ||| _ : UInt16) = word at hresponse
  have hpart : ((data.take stop).drop 12).length = stop - 12 := by
    rw [List.length_drop, List.length_take_of_le hstop]
  -- the question stands where it stood
  have hagree : AgreeOn data response 12 stop := by
    intro i hi hi'
    rw [hresponse, List.getElem?_append_right (by rw [TextQuestion.length_answerHeader]; exact hi),
      TextQuestion.length_answerHeader,
      List.getElem?_append_left (by omega), List.getElem?_drop, List.getElem?_take,
      if_pos (by omega)]
    have hplace : 12 + (i - 12) = i := by omega
    rw [hplace]
  obtain ⟨hbefore, -, hlocal⟩ := parseQuestion_local response hquestion
  have hfits : stop ≤ response.length := hagree.le_length hbefore hstop
  obtain ⟨hlong, hid', hqdcount', word', hword', hflags'⟩ :=
    readU16_of_header (headerOf_answerHeader id word _ _)
  rw [← hresponse] at hlong hid' hqdcount' hword'
  have hopcode : (word' >>> 11) &&& 0xF = 0 := by
    apply UInt16.toNat_inj.mp
    rw [opcode_eq, ← hflags', ← hword]
    dsimp only
    split
    · rfl
    · rfl
  have hbuild' : buildDnsResponse id response name stop qtype
      (store'.resolve (Lowercase.toLowercase tables name)) = .ok _ :=
    buildDnsResponse_eq_ok_iff.mpr ⟨hstart, hfits, rfl⟩
  exact ⟨_, handleDnsQuery_answered_iff.mpr ⟨id, word', 1, name, qtype, stop, hlong, hid', hword',
    hqdcount', hopcode, by decide, hlocal hagree, hinternal, hbuild'⟩⟩

private theorem apiQuestion_internal : apiQuestion.Internal :=
  ⟨"api.shop".toList, ".internal".toList, by decide, by decide⟩

private theorem apiQuery_answered : handleDnsQuery Lowercase.ascii apiQuery apiStore unreachable =
    .ok (.answered (apiQuestion.response 66 (apiQuestion.resolved Lowercase.ascii apiStore))) := by
  have hheader : headerOf apiQuery = some ⟨66, .ofWord 256, 1, 0, 0, 0⟩ := rfl
  have hhandled := TextQuestion.handleDnsQuery_internal Lowercase.ascii apiStore unreachable hheader
    rfl (by decide) (List.prefix_refl _) apiQuestion_internal
  exact hhandled

/-- An answer to an internal question is itself answered as the question is. -/
theorem TextQuestion.handleDnsQuery_response {q : TextQuestion} (hinternal : q.Internal)
    (tables : Lowercase.Tables) (store : DnsRecordStore IpAddr) (upstream : Upstream) (id : UInt16)
    (ips : List IpAddr) : handleDnsQuery tables (q.response id ips) store upstream =
      .ok (.answered (q.response id (q.resolved tables store))) := by
  have hquestion : q.bytes <+: (q.response id ips).drop 12 := by
    rw [response, List.drop_left' (length_answerHeader _ _ _)]
    exact List.prefix_append _ _
  have hopcode : (Flags.ofWord (answerWord ips)).opcode = 0 := by
    rw [ofWord_answerWord]
    rfl
  exact handleDnsQuery_internal tables store upstream (headerOf_answerHeader id _ _ _) hopcode
    (Nat.le_refl 1) hquestion hinternal

/-- Two servers, the second without records: the answer of the first is
answered by the second. -/
theorem answer_bounces : ∃ response response',
    handleDnsQuery Lowercase.ascii apiQuery apiStore unreachable = .ok (.answered response) ∧
    handleDnsQuery Lowercase.ascii response .new unreachable = .ok (.answered response') ∧
    response = apiQuestion.response 66 (apiQuestion.resolved Lowercase.ascii apiStore) ∧
    response' = apiQuestion.response 66 (apiQuestion.resolved Lowercase.ascii .new) :=
  ⟨_, _, apiQuery_answered,
    TextQuestion.handleDnsQuery_response apiQuestion_internal _ _ _ _ _, rfl, rfl⟩

theorem answer_is_answered_api : ∃ response response',
    handleDnsQuery Lowercase.ascii apiQuery apiStore unreachable = .ok (.answered response) ∧
    handleDnsQuery Lowercase.ascii response .new unreachable = .ok (.answered response') := by
  obtain ⟨response', h⟩ := answer_is_answered apiQuery_answered .new unreachable
  exact ⟨_, response', apiQuery_answered, h⟩

/-! ## Counts and lengths -/

/-- The bytes of an answer record. -/
def recordSize : IpAddr → Nat
  | .v4 _ => 16
  | .v6 _ => 28

theorem length_answerBytes (ips : List IpAddr) : (answerBytes ips).length = (ips.map recordSize).sum := by
  induction ips with
  | nil => rfl
  | cons ip ips ih =>
    have hrecord : (([0xC0, 0x0C] : List UInt8) ++ recordBytes ip).length = recordSize ip := by
      cases ip with
      | v4 addr => rfl
      | v6 octets => simp [recordBytes, recordSize, IpAddr.octets]
    rw [answerBytes, List.flatMap_cons, List.length_append, hrecord, List.map_cons, List.sum_cons, ← ih]
    rfl

theorem length_le_sum (ips : List IpAddr) : ips.length ≤ (ips.map recordSize).sum := by
  induction ips with
  | nil => exact le_rfl
  | cons ip ips ih =>
    have hpos : 1 ≤ recordSize ip := by
      cases ip with
      | v4 => exact Nat.le_add_left 1 15
      | v6 => exact Nat.le_add_left 1 27
    rw [List.length_cons, List.map_cons, List.sum_cons]
    omega

/-- What an answer is made of: where its question ends, its records begin, and
the word that counts them is cut to sixteen bits. -/
theorem answered_shape {tables : Lowercase.Tables} {data response : List UInt8}
    {store : DnsRecordStore IpAddr} {upstream : Upstream}
    (h : handleDnsQuery tables data store upstream = .ok (.answered response)) :
    ∃ name qtype stop, parseQuestion data 12 = .ok (some (name, qtype, stop)) ∧
      response.drop stop = answerBytes (answers tables store name qtype) ∧
      response.length = stop + ((answers tables store name qtype).map recordSize).sum ∧
      readU16 response 6 = .ok (.ofNat (answers tables store name qtype).length) := by
  obtain ⟨id, flags, qdcount, name, qtype, stop, hlength, -, -, -, -, -, hquestion, -, hbuild⟩ :=
    handleDnsQuery_answered_iff.mp h
  obtain ⟨hstart, hstop, hresponse⟩ := buildDnsResponse_eq_ok_iff.mp hbuild
  generalize (0x8000 ||| 0x0400 ||| 0x0080 ||| _ : UInt16) = word at hresponse
  refine ⟨name, qtype, stop, hquestion, ?_⟩
  unfold answers
  generalize ((store.resolve (Lowercase.toLowercase tables name)).getD []).filter
    (matchesType qtype) = ips at hresponse ⊢
  have hfront : (TextQuestion.answerHeader id word (.ofNat ips.length) ++
      (data.take stop).drop 12).length = stop := by
    rw [List.length_append, List.length_drop, List.length_take_of_le hstop,
      TextQuestion.length_answerHeader]
    omega
  refine ⟨?_, ?_, ?_⟩
  · rw [hresponse, ← List.append_assoc]
    exact List.drop_left' hfront
  · rw [hresponse, ← List.append_assoc, List.length_append, hfront, length_answerBytes]
  · have hcount := readU16_append (BigEndian.bytes 2 id.toNat ++ (BigEndian.bytes 2 word.toNat ++
      BigEndian.bytes 2 (1 : UInt16).toNat)) (BigEndian.bytes 2 (0 : UInt16).toNat ++
        (BigEndian.bytes 2 (0 : UInt16).toNat ++ ((data.take stop).drop 12 ++ answerBytes ips)))
      (.ofNat ips.length)
    rw [hresponse]
    simp only [TextQuestion.answerHeader, List.append_assoc] at hcount ⊢
    exact hcount

/-- Over TCP an answer follows its length, cut to sixteen bits. -/
theorem handleTcpDnsClient_answered {tables : Lowercase.Tables} {high low : UInt8}
    {data response : List UInt8} {store : DnsRecordStore IpAddr} {upstream : Upstream}
    (hframe : BigEndian.value [high, low] = data.length) (more : List UInt8)
    (h : handleDnsQuery tables data store upstream = .ok (.answered response)) :
    handleTcpDnsClient tables (high :: low :: (data ++ more)) store upstream =
      .ok (BigEndian.bytes 2 (UInt16.ofNat response.length).toNat ++ response) := by
  have hlong : ¬ (data ++ more).length < data.length := by
    rw [List.length_append]
    omega
  rw [handleTcpDnsClient, hframe, if_neg hlong, List.take_left, h]
  rfl

theorem toNat_ofNat_iff {n : Nat} : (UInt16.ofNat n).toNat = n ↔ n ≤ 65535 := by
  rw [UInt16.toNat_ofNat']
  omega

/-- The answer to a query counts its records, and over TCP is preceded by its
length, exactly if header, question and records fit in 65535 bytes. -/
theorem counts_true_iff {tables : Lowercase.Tables} {high low : UInt8} {data response : List UInt8}
    {store : DnsRecordStore IpAddr} {upstream : Upstream}
    (hframe : BigEndian.value [high, low] = data.length) (more : List UInt8)
    (h : handleDnsQuery tables data store upstream = .ok (.answered response)) :
    ∃ name qtype stop, parseQuestion data 12 = .ok (some (name, qtype, stop)) ∧
      response.drop stop = answerBytes (answers tables store name qtype) ∧
      (((∃ ancount, readU16 response 6 = .ok ancount ∧
            ancount.toNat = (answers tables store name qtype).length) ∧
          ∃ length, handleTcpDnsClient tables (high :: low :: (data ++ more)) store upstream =
              .ok (length ++ response) ∧ length.length = 2 ∧
            BigEndian.value length = response.length) ↔
        stop + ((answers tables store name qtype).map recordSize).sum ≤ 65535) := by
  obtain ⟨name, qtype, stop, hquestion, hrecords, hlength, hancount⟩ := answered_shape h
  refine ⟨name, qtype, stop, hquestion, hrecords, ?_⟩
  have hvalue : BigEndian.value (BigEndian.bytes 2 (UInt16.ofNat response.length).toNat) =
      (UInt16.ofNat response.length).toNat := BigEndian.value_bytes_of_lt (UInt16.toNat_lt _)
  rw [handleTcpDnsClient_answered hframe more h, ← hlength]
  constructor
  · rintro ⟨-, length, hsent, -, htrue⟩
    rw [← List.append_cancel_right (Except.ok.inj hsent), hvalue] at htrue
    exact toNat_ofNat_iff.mp htrue
  · intro hfits
    refine ⟨⟨_, hancount, toNat_ofNat_iff.mpr ?_⟩, _, rfl, BigEndian.length_bytes _ _, ?_⟩
    · have hmany := length_le_sum (answers tables store name qtype)
      omega
    · rw [hvalue]
      exact toNat_ofNat_iff.mpr hfits

/-- The first `n` addresses below `10.0.0.0/16`. -/
def manyAddresses (n : Nat) : List IpAddr :=
  (List.range n).map fun i => .v4 ⟨10, 0, .ofNat (i / 256), .ofNat i⟩

theorem manyAddresses_nodup {n : Nat} (hn : n ≤ 65536) : (manyAddresses n).Nodup := by
  refine List.Nodup.map_on ?_ List.nodup_range
  intro i hi j hj h
  have hi := List.mem_range.mp hi
  have hj := List.mem_range.mp hj
  simp only [IpAddr.v4.injEq, Network.Ipv4Addr.mk.injEq, true_and] at h
  have hhigh := congrArg UInt8.toNat h.1
  have hlow := congrArg UInt8.toNat h.2
  rw [UInt8.toNat_ofNat', UInt8.toNat_ofNat'] at hhigh hlow
  omega

/-- The store in which `api` has some addresses. -/
def storeOf (ips : List IpAddr) : DnsRecordStore IpAddr :=
  .after (ips.map (.register "shop" "api"))

/-- The query for `api` is answered with the IPv4 addresses that `api` has. -/
private theorem apiQuery_answers {ips : List IpAddr} (h : ips.Nodup) : ∃ response,
    handleDnsQuery Lowercase.ascii apiQuery (storeOf ips) unreachable = .ok (.answered response) ∧
      parseQuestion apiQuery 12 = .ok (some ("api.shop.internal", 1, 35)) ∧
      answers Lowercase.ascii (storeOf ips) "api.shop.internal" 1 = ips.filter (matchesType 1) := by
  have hanswered := TextQuestion.handleDnsQuery_internal Lowercase.ascii (storeOf ips) unreachable
    (show headerOf apiQuery = some ⟨66, .ofWord 256, 1, 0, 0, 0⟩ from rfl) rfl (by decide)
    (List.prefix_refl _) apiQuestion_internal
  have hquestion : parseQuestion apiQuery 12 = .ok (some (".".intercalate apiQuestion.labels, 1, 35)) := by
    have hbytes := parseQuestion_bytes (byteSized_of_sized apiQuestion.sized) 1 1
      [0, 66, 1, 0, 0, 1, 0, 0, 0, 0, 0, 0] []
    have hlength : (questionBytes apiQuestion.labels 1 1).length = 23 := by decide
    rw [List.append_nil, hlength] at hbytes
    exact hbytes
  have hname : ".".intercalate apiQuestion.labels = "api.shop.internal" := by decide
  rw [hname] at hquestion
  refine ⟨_, hanswered, hquestion, ?_⟩
  have hlower : Lowercase.toLowercase Lowercase.ascii "api.shop.internal" = "api.shop.internal" := by
    decide
  have hshop : '.' ∉ "shop".toList := by decide
  have hapi : '.' ∉ "api".toList := by decide
  have hdash : '-' ∉ "api".toList := by decide
  have hresolve := (storeOf ips).resolve_undashed hshop hapi hdash
  have hhost : hostName "shop" "api" = "api.shop.internal" := by decide
  rw [hhost] at hresolve
  have hlookup : (storeOf ips).lookup "shop" "api" = ips :=
    DnsRecordStore.lookup_after_registers "shop" "api" h
  rw [answers, hlower, hresolve, hlookup]

theorem counts_true_api : ∃ response length,
    handleDnsQuery Lowercase.ascii apiQuery (storeOf (manyAddresses 1)) unreachable =
      .ok (.answered response) ∧
    (∃ ancount, readU16 response 6 = .ok ancount ∧ ancount.toNat =
      (answers Lowercase.ascii (storeOf (manyAddresses 1)) "api.shop.internal" 1).length) ∧
    handleTcpDnsClient Lowercase.ascii (0 :: 35 :: apiQuery) (storeOf (manyAddresses 1)) unreachable =
      .ok (length ++ response) ∧ BigEndian.value length = response.length := by
  obtain ⟨response, hanswered, hquestion, hanswers⟩ := apiQuery_answers (manyAddresses_nodup (n := 1)
    (by decide))
  have hframe : BigEndian.value [0, 35] = apiQuery.length := by decide
  obtain ⟨name, qtype, stop, hquestion', -, hcounts⟩ := counts_true_iff hframe [] hanswered
  cases hquestion.symm.trans hquestion'
  have hfits : 35 + (((manyAddresses 1).filter (matchesType 1)).map recordSize).sum ≤ 65535 := by decide
  rw [← hanswers] at hfits
  obtain ⟨hancount, length, hsent, -, hlength⟩ := hcounts.mpr hfits
  rw [List.append_nil] at hsent
  exact ⟨response, length, hanswered, hancount, hsent, hlength⟩

theorem manyAddresses_v4 {n : Nat} : (manyAddresses n).filter (matchesType 1) = manyAddresses n := by
  refine List.filter_eq_self.mpr ?_
  intro ip hip
  obtain ⟨i, -, rfl⟩ := List.mem_map.mp hip
  rfl

theorem length_manyAddresses (n : Nat) : (manyAddresses n).length = n := by
  rw [manyAddresses, List.length_map, List.length_range]

theorem sum_manyAddresses (n : Nat) : ((manyAddresses n).map recordSize).sum = n * 16 := by
  have hsizes : (manyAddresses n).map recordSize = List.replicate n 16 := by
    refine List.eq_replicate_iff.mpr ⟨by rw [List.length_map, length_manyAddresses], ?_⟩
    intro size hsize
    obtain ⟨ip, hip, rfl⟩ := List.mem_map.mp hsize
    obtain ⟨i, -, rfl⟩ := List.mem_map.mp hip
    rfl
  rw [hsizes, List.sum_replicate_nat]

/-- A deployment with 65536 addresses: they are all written, none is counted, and
over TCP a message of more than a million bytes is announced as one of 35. -/
theorem counts_cut : ∃ response length,
    handleDnsQuery Lowercase.ascii apiQuery (storeOf (manyAddresses 65536)) unreachable =
      .ok (.answered response) ∧
    response.drop 35 = answerBytes (manyAddresses 65536) ∧ readU16 response 6 = .ok 0 ∧
    handleTcpDnsClient Lowercase.ascii (0 :: 35 :: apiQuery) (storeOf (manyAddresses 65536))
      unreachable = .ok (length ++ response) ∧
    BigEndian.value length = 35 ∧ response.length = 1048611 := by
  have hmany := length_manyAddresses 65536
  have hsum := sum_manyAddresses 65536
  have hnodup := manyAddresses_nodup (n := 65536) le_rfl
  have hv4 := manyAddresses_v4 (n := 65536)
  generalize manyAddresses 65536 = ips at hmany hsum hnodup hv4 ⊢
  obtain ⟨response, hanswered, hquestion, hanswers⟩ := apiQuery_answers hnodup
  obtain ⟨name, qtype, stop, hquestion', hrecords, hlength, hancount⟩ := answered_shape hanswered
  cases hquestion.symm.trans hquestion'
  rw [hanswers, hv4] at hrecords hlength hancount
  have hframe : BigEndian.value [0, 35] = apiQuery.length := by decide
  have hsent := handleTcpDnsClient_answered hframe [] hanswered
  rw [List.append_nil] at hsent
  refine ⟨response, _, hanswered, hrecords, ?_, hsent, ?_, ?_⟩
  · rw [hancount, hmany]
    rfl
  · rw [hlength, hsum]
    decide
  · rw [hlength, hsum]

/-! ## Answers in a datagram -/

/-- An answer says that it is whole. -/
theorem answered_whole {tables : Lowercase.Tables} {data response : List UInt8}
    {store : DnsRecordStore IpAddr} {upstream : Upstream}
    (h : handleDnsQuery tables data store upstream = .ok (.answered response)) :
    ∃ word, readU16 response 2 = .ok word ∧ (Flags.ofWord word).tc = false := by
  obtain ⟨id, flags, qdcount, name, qtype, stop, -, -, -, -, -, -, -, -, hbuild⟩ :=
    handleDnsQuery_answered_iff.mp h
  obtain ⟨-, -, hresponse⟩ := buildDnsResponse_eq_ok_iff.mp hbuild
  generalize hword : (0x8000 ||| 0x0400 ||| 0x0080 ||| _ : UInt16) = word at hresponse
  obtain ⟨-, -, -, word', hword', hflags⟩ := readU16_of_header (headerOf_answerHeader id word _ _)
  rw [← hresponse] at hword'
  refine ⟨word', hword', ?_⟩
  rw [← hflags, ← hword]
  dsimp only
  split
  · rfl
  · rfl

/-- What the UDP loop sends for a query that is answered from the store is the
answer as it was built, or nothing if the socket does not take it. The answer
never says that it is cut, and it is as short as a datagram of 512 bytes exactly
if header, question and records are. -/
theorem udp_answer_fits_iff {tables : Lowercase.Tables} {received response : List UInt8}
    {store : DnsRecordStore IpAddr} {upstream : Upstream} (sendTo : List UInt8 → Bool)
    (h : handleDnsQuery tables (received.take 4096) store upstream = .ok (.answered response)) :
    handleUdpDatagram tables received store upstream sendTo =
        .ok (if sendTo response = true then some response else none) ∧
      (∃ word, readU16 response 2 = .ok word ∧ (Flags.ofWord word).tc = false) ∧
      ∃ name qtype stop, parseQuestion (received.take 4096) 12 = .ok (some (name, qtype, stop)) ∧
        (response.length ≤ 512 ↔
          stop + ((answers tables store name qtype).map recordSize).sum ≤ 512) := by
  obtain ⟨name, qtype, stop, hquestion, -, hlength, -⟩ := answered_shape h
  refine ⟨?_, answered_whole h, name, qtype, stop, hquestion, by rw [hlength]⟩
  rw [handleUdpDatagram, h]
  show Except.ok ((some response).filter sendTo) = _
  rw [Option.filter_some]

private theorem take_apiQuery : apiQuery.take 4096 = apiQuery :=
  List.take_of_length_le (by decide)

/-- A socket that takes what fits into a datagram. -/
def udpSocket (response : List UInt8) : Bool := response.length ≤ 65507

theorem udp_answer_fits_api : ∃ response,
    handleUdpDatagram Lowercase.ascii apiQuery (storeOf (manyAddresses 1)) unreachable udpSocket =
      .ok (some response) ∧ response.length ≤ 512 := by
  obtain ⟨response, hanswered, hquestion, hanswers⟩ := apiQuery_answers (manyAddresses_nodup (n := 1)
    (by decide))
  rw [← take_apiQuery] at hanswered hquestion
  obtain ⟨hsent, -, name, qtype, stop, hquestion', hfits⟩ := udp_answer_fits_iff udpSocket hanswered
  cases hquestion.symm.trans hquestion'
  have hshort : response.length ≤ 512 := by
    refine hfits.mpr ?_
    rw [hanswers]
    decide
  have htaken : udpSocket response = true := decide_eq_true (hshort.trans (by decide))
  rw [if_pos htaken] at hsent
  exact ⟨response, hsent, hshort⟩

/-- A deployment with thirty addresses, and a query without additional records:
the answer has 515 bytes and says that it is whole. -/
theorem udp_answer_too_long : ∃ response word,
    (headerOf apiQuery).map Header.arcount = some 0 ∧
    handleUdpDatagram Lowercase.ascii apiQuery (storeOf (manyAddresses 30)) unreachable udpSocket =
      .ok (some response) ∧
    response.length = 515 ∧ readU16 response 2 = .ok word ∧ (Flags.ofWord word).tc = false := by
  obtain ⟨response, hanswered, hquestion, hanswers⟩ := apiQuery_answers (manyAddresses_nodup (n := 30)
    (by decide))
  obtain ⟨word, hword, htc⟩ := answered_whole hanswered
  obtain ⟨name, qtype, stop, hquestion', -, hlength, -⟩ := answered_shape hanswered
  cases hquestion.symm.trans hquestion'
  have hlong : response.length = 515 := by
    rw [hlength, hanswers, manyAddresses_v4, sum_manyAddresses]
  have htaken : udpSocket response = true := by
    rw [udpSocket, hlong]
    rfl
  refine ⟨response, word, rfl, ?_, hlong, hword, htc⟩
  rw [handleUdpDatagram, take_apiQuery, hanswered]
  show Except.ok ((some response).filter udpSocket) = _
  rw [Option.filter_some, if_pos htaken]

end Nexad.Dns
