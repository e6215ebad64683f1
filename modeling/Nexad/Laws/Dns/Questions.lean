import Nexad.Laws.Dns.Packets

/-!
# What is a question

Whatever the bytes, the parser comes to an end within them, and so does the rest
of the handler (`parseQuestion_cases`, `handleDnsQuery_total`). What it accepts
is exactly a question as it is written out, with labels of any size that a byte
can say (`parseQuestion_some_iff`): a length byte is a length, also where a name
server would take it for a pointer.

The labels come back joined by dots, so a label with a dot in it reads as two.
-/

namespace Nexad.Dns

open DomainMessage Slice

/-! ## The parser comes to an end -/

theorem index_total {α : Type} {data : List α} {i : Nat} (h : i < data.length) :
    ∃ a, index data i = .ok a :=
  ⟨_, index_eq_ok_iff.mpr (List.getElem?_eq_getElem h)⟩

/-- Labels are read within the bytes, from every offset. -/
theorem parseLabels_total (data : List UInt8) (acc : List String) (offset : Nat) :
    ∃ parsed, parseLabels data acc offset = .ok parsed := by
  induction hn : data.length - offset using Nat.strongRecOn generalizing acc offset with
  | ind n ih =>
    rw [parseLabels]
    split
    · exact ⟨none, rfl⟩
    next hoffset =>
    obtain ⟨b, hb⟩ := index_total (Nat.not_le.mp hoffset)
    rw [hb, ok_bind]
    split
    · exact ⟨_, rfl⟩
    next hpos =>
    split
    · exact ⟨none, rfl⟩
    next hfits =>
    rw [range_eq_ok_iff.mpr ⟨Nat.le_add_right _ _, Nat.not_lt.mp hfits, rfl⟩, ok_bind]
    split
    · exact ⟨none, rfl⟩
    · exact ih _ (by omega) _ _ rfl

/-- Two bytes are read where there are two. -/
theorem readU16_total {data : List UInt8} {i : Nat} (h : i + 1 < data.length) :
    ∃ n, readU16 data i = .ok n := by
  obtain ⟨high, hhigh⟩ := index_total (Nat.lt_of_succ_lt h)
  obtain ⟨low, hlow⟩ := index_total h
  exact ⟨_, by rw [readU16, hhigh, ok_bind, hlow, ok_bind]; rfl⟩

/-- A question is refused, or read up to a place within the bytes that is at
least five bytes on: a zero byte, a type and a class. -/
theorem parseQuestion_cases (data : List UInt8) (offset : Nat) :
    parseQuestion data offset = .ok none ∨ ∃ name qtype stop,
      parseQuestion data offset = .ok (some (name, qtype, stop)) ∧
        offset + 5 ≤ stop ∧ stop ≤ data.length := by
  obtain ⟨parsed, hlabels⟩ := parseLabels_total data [] offset
  rw [parseQuestion, hlabels, ok_bind]
  cases parsed with
  | none => exact .inl rfl
  | some parsed =>
    obtain ⟨labels, after⟩ := parsed
    obtain ⟨hafter, -, -⟩ := parseLabels_local data hlabels
    dsimp only
    split
    · exact .inl rfl
    next hfits =>
    obtain ⟨qtype, hqtype⟩ := readU16_total (show after + 1 < data.length by omega)
    rw [hqtype]
    exact .inr ⟨_, qtype, after + 4, rfl, by omega, Nat.not_lt.mp hfits⟩

/-! ## So does the handler -/

section Resolve

variable {IpAddr : Type} [DecidableEq IpAddr] (store : DnsRecordStore IpAddr)

omit [DecidableEq IpAddr] in
theorem resolveReplicaSliced_eq (project host : List Char) :
    store.resolveReplicaSliced project host = .ok (store.resolveReplica project host) := by
  have hsize : '-'.utf8Size = 1 := by decide
  unfold DnsRecordStore.resolveReplicaSliced DnsRecordStore.resolveReplica
  rcases Text.rfind_eq hsize host with ⟨hsplit, hfind⟩ | ⟨front, rest, hsplit, hfind, hto, hfrom⟩
  · rw [hsplit, hfind]
    rfl
  · rw [hsplit, hfind]
    dsimp only
    rw [hfrom, ok_bind]
    cases hindex : Text.parseUnsigned (2 ^ 64) rest with
    | none =>
      simp only [Option.bind_eq_bind, Option.bind_some, hindex, Option.bind_none]
      rfl
    | some index =>
      simp only [Option.bind_eq_bind, Option.bind_some, hindex, hto, ok_bind]
      rfl

omit [DecidableEq IpAddr] in
/-- A name is resolved without an index or an offset out of place, whatever it is. -/
theorem resolveSliced_eq (queryName : String) :
    store.resolveSliced queryName = .ok (store.resolve queryName) := by
  unfold DnsRecordStore.resolveSliced DnsRecordStore.resolve
  dsimp only
  generalize Text.splitN '.' 3 (Text.trimEndMatches '.' queryName.toList) = parts
  generalize "internal".toList = internal
  match parts with
  | [] | [_] | [_, _] | _ :: _ :: _ :: _ :: _ => rfl
  | [host, project, zone] =>
    have hzone : index [host, project, zone] 2 = .ok zone := rfl
    have hproject : index [host, project, zone] 1 = .ok project := rfl
    have hhost : index [host, project, zone] 0 = .ok host := rfl
    rw [hzone, hproject, hhost]
    simp only [ok_bind, List.length_cons, List.length_nil, ne_eq, not_true_eq_false, if_false,
      resolveReplicaSliced_eq, Nat.zero_add, Nat.reduceAdd]
    split
    · rfl
    · cases store.resolveReplica project host with
      | some ip => rfl
      | none =>
        split
        · rfl
        · rfl

end Resolve

/-- What is asked is answered from the bytes of the packet. -/
theorem buildDnsResponse_total (id : UInt16) {data : List UInt8} (name : String) {stop : Nat}
    (qtype : UInt16) (ips : Option (List IpAddr)) (hstart : 12 ≤ stop) (hstop : stop ≤ data.length) :
    ∃ response, buildDnsResponse id data name stop qtype ips = .ok response :=
  ⟨_, buildDnsResponse_eq_ok_iff.mpr ⟨hstart, hstop, rfl⟩⟩

/-- A packet is handled without an access out of place, whatever its bytes. -/
theorem handleDnsQuery_total (tables : Lowercase.Tables) (data : List UInt8)
    (store : DnsRecordStore IpAddr) (upstream : Upstream) :
    ∃ handled, handleDnsQuery tables data store upstream = .ok handled := by
  unfold handleDnsQuery
  split
  · exact ⟨_, rfl⟩
  next hlength =>
  obtain ⟨id, hid⟩ := readU16_total (show 0 + 1 < data.length by omega)
  obtain ⟨flags, hflags⟩ := readU16_total (show 2 + 1 < data.length by omega)
  obtain ⟨qdcount, hqdcount⟩ := readU16_total (show 4 + 1 < data.length by omega)
  simp only [hid, hflags, hqdcount, ok_bind]
  split
  · exact ⟨_, rfl⟩
  rcases parseQuestion_cases data 12 with hnone | ⟨name, qtype, stop, hsome, hstart, hstop⟩
  · rw [hnone]
    exact ⟨_, rfl⟩
  · rw [hsome, ok_bind]
    dsimp only
    split
    · obtain ⟨response, hresponse⟩ := buildDnsResponse_total id name qtype
        (store.resolve (Lowercase.toLowercase tables name)) (show 12 ≤ stop by omega) hstop
      rw [hresponse]
      exact ⟨_, rfl⟩
    · exact ⟨_, rfl⟩

/-- So are a datagram and a TCP message. -/
theorem handleUdpDatagram_total (tables : Lowercase.Tables) (received : List UInt8)
    (store : DnsRecordStore IpAddr) (upstream : Upstream) (sendTo : List UInt8 → Bool) :
    ∃ response, handleUdpDatagram tables received store upstream sendTo = .ok response := by
  obtain ⟨handled, h⟩ := handleDnsQuery_total tables (received.take 4096) store upstream
  exact ⟨handled.sent sendTo, by rw [handleUdpDatagram, h]; rfl⟩

theorem handleTcpDnsClient_total (tables : Lowercase.Tables) (received : List UInt8)
    (store : DnsRecordStore IpAddr) (upstream : Upstream) :
    ∃ sent, handleTcpDnsClient tables received store upstream = .ok sent := by
  unfold handleTcpDnsClient
  split
  next high low rest =>
    dsimp only
    split
    · exact ⟨_, rfl⟩
    · obtain ⟨handled, h⟩ := handleDnsQuery_total tables (rest.take (BigEndian.value [high, low]))
        store upstream
      rw [h, ok_bind]
      split
      · exact ⟨_, rfl⟩
      · exact ⟨_, rfl⟩
  · exact ⟨_, rfl⟩

/-- Any bytes, received in any way, over any store: the question is refused or
ends within them, its name is resolved and answered, and nothing panics. -/
theorem packets_are_safe (tables : Lowercase.Tables) (data : List UInt8)
    (store : DnsRecordStore IpAddr) (upstream : Upstream) (sendTo : List UInt8 → Bool) :
    (parseQuestion data 12 = .ok none ∨ ∃ name qtype stop,
      parseQuestion data 12 = .ok (some (name, qtype, stop)) ∧ 17 ≤ stop ∧ stop ≤ data.length ∧
        ∀ id, ∃ ips response,
          store.resolveSliced (Lowercase.toLowercase tables name) = .ok ips ∧
            buildDnsResponse id data name stop qtype ips = .ok response) ∧
      (∀ name, store.resolveSliced name = .ok (store.resolve name)) ∧
      (∃ handled, handleDnsQuery tables data store upstream = .ok handled) ∧
      (∃ response, handleUdpDatagram tables data store upstream sendTo = .ok response) ∧
      ∃ sent, handleTcpDnsClient tables data store upstream = .ok sent := by
  refine ⟨?_, resolveSliced_eq store, handleDnsQuery_total tables data store upstream,
    handleUdpDatagram_total tables data store upstream sendTo,
    handleTcpDnsClient_total tables data store upstream⟩
  rcases parseQuestion_cases data 12 with hnone | ⟨name, qtype, stop, hsome, hstart, hstop⟩
  · exact .inl hnone
  · refine .inr ⟨name, qtype, stop, hsome, hstart, hstop, fun id => ?_⟩
    obtain ⟨response, hresponse⟩ := buildDnsResponse_total id name qtype
      (store.resolve (Lowercase.toLowercase tables name)) (show 12 ≤ stop by omega) hstop
    exact ⟨_, response, resolveSliced_eq store _, hresponse⟩

/-! ## What is accepted -/

/-- A question that is written out is cut nowhere: no part of it is one. -/
theorem parseQuestion_prefix {labels : List String} (hsized : ByteSized labels)
    (qtype qclass : UInt16) (front rest : List UInt8) {n : Nat}
    (hn : n < front.length + (questionBytes labels qtype qclass).length) :
    parseQuestion ((front ++ (questionBytes labels qtype qclass ++ rest)).take n) front.length =
      .ok none := by
  have hwhole := parseQuestion_bytes hsized qtype qclass front rest
  generalize front ++ (questionBytes labels qtype qclass ++ rest) = message at hwhole ⊢
  rcases parseQuestion_cases (message.take n) front.length with
    hnone | ⟨name, qtype', stop, hsome, -, hstop⟩
  · exact hnone
  -- what the part begins with is read in the same way from the whole
  · have hle : stop ≤ n := le_trans hstop (List.length_take_le n message)
    obtain ⟨-, -, hlocal⟩ := parseQuestion_local message hsome
    have hagree : AgreeOn (message.take n) message front.length stop := by
      intro i _ hi
      rw [List.getElem?_take_of_lt (Nat.lt_of_lt_of_le hi hle)]
    have hsame := (hlocal hagree).symm.trans hwhole
    injection hsame with hsame
    injection hsame with hsame
    injection hsame with _ hsame
    injection hsame with _ hstop'
    omega

/-- A question with labels of at most 63 bytes is read back: its labels joined by
dots, its type and the place after it. No proper part of it is read. -/
theorem parseQuestion_inverts {labels : List String}
    (hsized : ∀ label ∈ labels, 1 ≤ (Utf8.encode label).length ∧ (Utf8.encode label).length ≤ 63)
    {header : List UInt8} (hheader : header.length = 12) (qtype qclass : UInt16)
    (suffix : List UInt8) :
    parseQuestion (header ++ (questionBytes labels qtype qclass ++ suffix)) 12 =
        .ok (some (".".intercalate labels, qtype,
          (header ++ questionBytes labels qtype qclass).length)) ∧
      ∀ n < (header ++ questionBytes labels qtype qclass).length,
        parseQuestion ((header ++ (questionBytes labels qtype qclass ++ suffix)).take n) 12 =
          .ok none := by
  have hbytes : ByteSized labels := fun label hlabel =>
    ⟨(hsized label hlabel).1, (hsized label hlabel).2.trans (by decide)⟩
  rw [← hheader, List.length_append]
  exact ⟨parseQuestion_bytes hbytes qtype qclass header suffix, fun n hn =>
    parseQuestion_prefix hbytes qtype qclass header suffix hn⟩

theorem parseQuestion_inverts_api :
    parseQuestion ([0, 66, 1, 0, 0, 1, 0, 0, 0, 0, 0, 0] ++
        (questionBytes ["api", "shop", "internal"] 1 1 ++ [7])) 12 =
      .ok (some (".".intercalate ["api", "shop", "internal"], 1, 35)) :=
  (@parseQuestion_inverts ["api", "shop", "internal"] (by decide)
    [0, 66, 1, 0, 0, 1, 0, 0, 0, 0, 0, 0] rfl 1 1 [7]).1

/-- Labels that are read are written out where they were read. -/
theorem parseLabels_written {data : List UInt8} {acc labels : List String} {offset stop : Nat}
    (h : parseLabels data acc offset = .ok (some (labels, stop))) :
    ∃ more, labels = acc ++ more ∧ ByteSized more ∧
      (data.take stop).drop offset = encodeLabels (more.map Utf8.encode) ++ [0] := by
  induction hn : data.length - offset using Nat.strongRecOn generalizing acc offset with
  | ind n ih =>
    obtain ⟨b, hb, ⟨hzero, rfl, rfl⟩ | ⟨hpos, hfits, label, hlabel, hrest⟩⟩ :=
      parseLabels_some_iff.mp h
    · rw [part_cons hb (Nat.lt_succ_self _), List.drop_eq_nil_of_le (List.length_take_le _ _)]
      exact ⟨[], (List.append_nil _).symm, fun _ h => absurd h List.not_mem_nil,
        congrArg (· :: []) (UInt8.toNat_inj.mp hzero)⟩
    · obtain ⟨hstop, hle, -⟩ := parseLabels_local data hrest
      obtain ⟨more, rfl, hsized, hwritten⟩ := ih _ (by omega) hrest rfl
      have hbytes := Utf8.encode_of_decode hlabel
      have hlength : (Utf8.encode label).length = b.toNat := by
        rw [hbytes, List.length_drop, List.length_take_of_le hfits, Nat.add_sub_cancel_left]
      refine ⟨label :: more, by rw [List.append_assoc, List.singleton_append], ?_, ?_⟩
      · intro l hl
        rcases List.mem_cons.mp hl with rfl | hl
        · have hbyte := b.toNat_lt
          omega
        · exact hsized l hl
      · rw [part_cons hb (by omega), part_split data (Nat.le_add_right (offset + 1) b.toNat) hstop.le,
          hwritten, ← hbytes, List.map_cons, encodeLabels_cons, hlength, UInt8.ofNat_toNat,
          List.cons_append, List.append_assoc]

/-- So are two bytes. -/
theorem readU16_written {data : List UInt8} {i : Nat} {n : UInt16} (h : readU16 data i = .ok n) :
    (data.take (i + 2)).drop i = BigEndian.bytes 2 n.toNat := by
  obtain ⟨high, hhigh, h⟩ := bind_eq_ok h
  obtain ⟨low, hlow, h⟩ := bind_eq_ok h
  cases h
  have hvalue : (UInt16.ofNat (BigEndian.value [high, low])).toNat = BigEndian.value [high, low] := by
    have hlt := BigEndian.value_lt [high, low]
    rw [List.length_cons, List.length_singleton] at hlt
    rw [UInt16.toNat_ofNat']
    omega
  have hbytes : BigEndian.bytes 2 (BigEndian.value [high, low]) = [high, low] :=
    BigEndian.bytes_value [high, low]
  rw [part_cons (index_eq_ok_iff.mp hhigh) (by omega),
    part_cons (index_eq_ok_iff.mp hlow) (Nat.lt_succ_self _),
    List.drop_eq_nil_of_le (List.length_take_le _ _), hvalue, hbytes]

/-- The bytes from the header up to a place are a question with these labels. -/
structure IsQuestion (data : List UInt8) (labels : List String) (qtype qclass : UInt16)
    (stop : Nat) : Prop where
  sized : ByteSized labels
  after : 12 ≤ stop
  within : stop ≤ data.length
  written : (data.take stop).drop 12 = questionBytes labels qtype qclass

/-- What is accepted is a question as it is written out, and every such question
is. Its labels have the sizes that a byte can say. -/
theorem parseQuestion_some_iff {data : List UInt8} {name : String} {qtype : UInt16} {stop : Nat} :
    parseQuestion data 12 = .ok (some (name, qtype, stop)) ↔
      ∃ labels qclass, IsQuestion data labels qtype qclass stop ∧ name = ".".intercalate labels := by
  constructor
  · intro h
    unfold parseQuestion at h
    obtain ⟨parsed, hlabels, h⟩ := bind_eq_ok h
    cases parsed with
    | none => cases h
    | some parsed =>
      obtain ⟨labels, after⟩ := parsed
      obtain ⟨hafter, -, -⟩ := parseLabels_local data hlabels
      obtain ⟨more, rfl, hsized, hwritten⟩ := parseLabels_written hlabels
      dsimp only at h
      split at h
      · cases h
      next hfits =>
      obtain ⟨n, hqtype, h⟩ := bind_eq_ok h
      cases h
      obtain ⟨qclass, hqclass⟩ := readU16_total (show after + 2 + 1 < data.length by omega)
      refine ⟨labels, qclass, ⟨hsized, by omega, by omega, ?_⟩, rfl⟩
      rw [part_split data hafter.le (Nat.le_add_right after 4), hwritten,
        part_split data (Nat.le_add_right after 2) (show after + 2 ≤ after + 4 by omega),
        readU16_written hqtype, readU16_written hqclass]
      rfl
  · rintro ⟨labels, qclass, ⟨hsized, hstart, hstop, hpart⟩, rfl⟩
    have hfront : (data.take 12).length = 12 := List.length_take_of_le (by omega)
    have hdata : data = data.take 12 ++ (questionBytes labels qtype qclass ++ data.drop stop) := by
      have hafter := part_split data hstart hstop
      rw [List.take_length] at hafter
      rw [← hpart, ← hafter, List.take_append_drop]
    have hread := parseQuestion_bytes hsized qtype qclass (data.take 12) (data.drop stop)
    have hplace : 12 + (questionBytes labels qtype qclass).length = stop := by
      rw [← hpart, List.length_drop, List.length_take_of_le hstop]
      omega
    rw [← hdata, hfront, hplace] at hread
    exact hread

/-- Labels without dots are found again in the name. -/
theorem splitOn_intercalate {labels : List String} (hne : labels ≠ [])
    (hdots : ∀ label ∈ labels, '.' ∉ label.toList) :
    (".".intercalate labels).toList.splitOn '.' = labels.map String.toList := by
  have hdot : ".".toList = ['.'] := by decide
  rw [String.toList_intercalate, hdot]
  refine List.splitOn_intercalate '.' ?_ (List.map_eq_nil_iff.not.mpr hne)
  intro label hlabel
  obtain ⟨label, hmem, rfl⟩ := List.mem_map.mp hlabel
  exact hdots label hmem

/-- No labels have the name of some labels that are not empty. -/
theorem intercalate_ne_empty {labels : List String} (hne : labels ≠ []) (hsized : ByteSized labels)
    (hdots : ∀ label ∈ labels, '.' ∉ label.toList) : ".".intercalate labels ≠ "" := by
  intro hname
  have hsplit := splitOn_intercalate hne hdots
  rw [hname] at hsplit
  have hempty : "".toList.splitOn '.' = [[]] := rfl
  obtain ⟨label, hlabels, hlabel⟩ := List.map_eq_singleton_iff.mp (hsplit.symm.trans hempty)
  have hpos := (hsized label (hlabels ▸ List.mem_cons_self)).1
  rw [String.toList_eq_nil_iff.mp hlabel] at hpos
  exact absurd hpos (by decide)

theorem intercalate_injective {labels labels' : List String} (hsized : ByteSized labels)
    (hsized' : ByteSized labels') (hdots : ∀ label ∈ labels, '.' ∉ label.toList)
    (hdots' : ∀ label ∈ labels', '.' ∉ label.toList)
    (h : ".".intercalate labels = ".".intercalate labels') : labels = labels' := by
  by_cases hne : labels = []
  · subst hne
    by_contra hne'
    exact intercalate_ne_empty (Ne.symm hne') hsized' hdots' h.symm
  by_cases hne' : labels' = []
  · subst hne'
    exact absurd h (intercalate_ne_empty hne hsized hdots)
  have hsplit := splitOn_intercalate hne hdots
  rw [h, splitOn_intercalate hne' hdots'] at hsplit
  exact (List.map_injective_iff.mpr (fun _ _ => String.toList_injective) hsplit).symm

/-- Exactly the questions that are written out are accepted, with labels of up to
255 bytes in any number. The name has the labels, joined by dots, and determines
them as far as they have no dots of their own. -/
theorem parseQuestion_accepts :
    (∀ data name qtype stop, parseQuestion data 12 = .ok (some (name, qtype, stop)) ↔
      ∃ labels qclass, IsQuestion data labels qtype qclass stop ∧ name = ".".intercalate labels) ∧
    ∀ data data' name qtype qtype' stop stop' labels labels' qclass qclass',
      parseQuestion data 12 = .ok (some (name, qtype, stop)) →
      parseQuestion data' 12 = .ok (some (name, qtype', stop')) →
      IsQuestion data labels qtype qclass stop → IsQuestion data' labels' qtype' qclass' stop' →
      (∀ label ∈ labels, '.' ∉ label.toList) → (∀ label ∈ labels', '.' ∉ label.toList) →
      labels = labels' := by
  refine ⟨fun data name qtype stop => parseQuestion_some_iff, ?_⟩
  intro data data' name qtype qtype' stop stop' labels labels' qclass qclass' hread hread'
    hquestion hquestion' hdots hdots'
  have hname := parseQuestion_some_iff.mpr ⟨labels, qclass, hquestion, rfl⟩
  have hname' := parseQuestion_some_iff.mpr ⟨labels', qclass', hquestion', rfl⟩
  have hsame : ".".intercalate labels = ".".intercalate labels' := by
    rw [hread] at hname
    rw [hread'] at hname'
    injection hname with hname
    injection hname' with hname'
    injection hname with hname
    injection hname' with hname'
    exact (congrArg Prod.fst hname).symm.trans (congrArg Prod.fst hname')
  exact intercalate_injective hquestion.sized hquestion'.sized hdots hdots' hsame

/-- A message that asks for the addresses of a name, with a header of zeros. -/
def askFor (labels : List String) : List UInt8 := List.replicate 12 0 ++ questionBytes labels 1 1

theorem parseQuestion_askFor {labels : List String} (hsized : ByteSized labels) :
    parseQuestion (askFor labels) 12 =
      .ok (some (".".intercalate labels, 1, 12 + (questionBytes labels 1 1).length)) := by
  have hread := parseQuestion_bytes hsized 1 1 (List.replicate 12 0) []
  rw [List.append_nil, List.length_replicate] at hread
  exact hread

theorem parseQuestion_accepts_api :
    (∃ labels qclass, IsQuestion (askFor ["api"]) labels 1 qclass 21 ∧ "api" = ".".intercalate labels) ∧
      ∀ labels qclass, IsQuestion (askFor ["api"]) labels 1 qclass 21 →
        (∀ label ∈ labels, '.' ∉ label.toList) → labels = ["api"] := by
  have hsized : ByteSized ["api"] := by
    unfold ByteSized
    decide
  have hread : parseQuestion (askFor ["api"]) 12 = .ok (some ("api", 1, 21)) :=
    parseQuestion_askFor hsized
  refine ⟨(parseQuestion_accepts.1 _ _ _ _).mp hread, fun labels qclass hquestion hdots => ?_⟩
  have hapi : IsQuestion (askFor ["api"]) ["api"] 1 1 21 := ⟨hsized, by decide, by decide, by decide⟩
  exact parseQuestion_accepts.2 _ _ _ _ _ _ _ _ _ _ _ hread hread hquestion hapi hdots (by decide)

/-- A label of the letter `a`. -/
def letters (n : Nat) : String := String.ofList (List.replicate n 'a')

theorem encode_letters (n : Nat) : Utf8.encode (letters n) = List.replicate n 97 := by
  rw [Utf8.encode_eq_flatMap, letters, String.toList_ofList]
  induction n with
  | zero => rfl
  | succ n ih =>
    rw [List.replicate_succ, List.flatMap_cons, ih]
    rfl

theorem letters_sized {n m : Nat} (hpos : 1 ≤ n) (hle : n ≤ 255) :
    ByteSized (List.replicate m (letters n)) := by
  intro label hlabel
  rw [List.eq_of_mem_replicate hlabel, encode_letters, List.length_replicate]
  exact ⟨hpos, hle⟩

/-- A length byte with its two high bits set is accepted, and a name of 403
bytes. A label `a.b` and the labels `a` and `b` are the same name. -/
theorem parseQuestion_lax :
    (askFor [letters 200, letters 200])[12]? = some 200 ∧
      parseQuestion (askFor [letters 200, letters 200]) 12 =
        .ok (some (".".intercalate [letters 200, letters 200], 1, 12 + 403 + 4)) ∧
      parseQuestion (askFor ["a.b"]) 12 = .ok (some ("a.b", 1, 12 + 5 + 4)) ∧
      parseQuestion (askFor ["a", "b"]) 12 = .ok (some ("a.b", 1, 12 + 5 + 4)) ∧
      askFor ["a.b"] ≠ askFor ["a", "b"] := by
  have hlong := parseQuestion_askFor (letters_sized (n := 200) (m := 2) (by decide) (by decide))
  have hwritten : encodeLabels [Utf8.encode (letters 200), Utf8.encode (letters 200)] =
      200 :: (List.replicate 200 97 ++ 200 :: List.replicate 200 97) := by
    have hnil : encodeLabels [] = [] := rfl
    rw [encodeLabels_cons, encodeLabels_cons, hnil, List.append_nil, encode_letters,
      List.length_replicate]
    rfl
  have hlength : (questionBytes (List.replicate 2 (letters 200)) 1 1).length = 403 + 4 := by
    have hmap : (List.replicate 2 (letters 200)).map Utf8.encode =
      [Utf8.encode (letters 200), Utf8.encode (letters 200)] := rfl
    rw [questionBytes, hmap, hwritten]
    simp only [List.length_append, List.length_cons, List.length_nil, List.length_replicate,
      BigEndian.length_bytes]
  rw [hlength] at hlong
  refine ⟨?_, hlong, ?_, ?_, by decide⟩
  · rw [askFor, questionBytes, List.map_cons, List.map_singleton, hwritten]
    rfl
  · exact @parseQuestion_askFor ["a.b"] (by unfold ByteSized; decide)
  · exact @parseQuestion_askFor ["a", "b"] (by unfold ByteSized; decide)

end Nexad.Dns
