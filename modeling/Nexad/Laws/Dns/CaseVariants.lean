import Nexad.Laws.Dns.Hickory
import Nexad.Laws.Dns.RecordStore

/-!
# Names in either case

A query's name is put in lower case before it is looked up, a registered name is
not. So every spelling of a name is answered alike, with the addresses of the
name in lower case (`resolved_variant`). These are the addresses of the name as
it was registered only if both have the same (`variant_lists_iff`).
-/

namespace Nexad.Dns

open DomainMessage

/-- ASCII letters and digits only. -/
def Alphanumeric (name : String) : Prop := ∀ c ∈ name.toList, c.isAlphanum

instance (name : String) : Decidable (Alphanumeric name) :=
  decidable_of_iff (name.toList.all Char.isAlphanum = true) List.all_eq_true

/-- The same text but for the case of its ASCII letters. -/
def CaseVariant (a b : String) : Prop := a.toList.map Char.toLower = b.toList.map Char.toLower

instance (a b : String) : Decidable (CaseVariant a b) :=
  inferInstanceAs (Decidable (a.toList.map Char.toLower = b.toList.map Char.toLower))

/-- The name with its ASCII letters in lower case. -/
def lowerName (name : String) : String := .ofList (name.toList.map Char.toLower)

def IpAddr.isV4 : IpAddr → Bool
  | .v4 _ => true
  | .v6 _ => false

/-- The IPv4 addresses of a deployment. -/
def DnsRecordStore.v4Addresses (store : DnsRecordStore IpAddr) (project deployment : String) :
    List IpAddr :=
  (store.lookup project deployment).filter IpAddr.isV4

theorem toList_lowerName (name : String) : (lowerName name).toList = name.toList.map Char.toLower :=
  String.toList_ofList

theorem Alphanumeric.lowerName {name : String} (h : Alphanumeric name) :
    Alphanumeric (lowerName name) := by
  intro c hc
  rw [toList_lowerName] at hc
  obtain ⟨d, hd, rfl⟩ := List.mem_map.mp hc
  exact Lowercase.isAlphanum_toLower (h d hd)

/-- No dot and no dash stands in such a name. -/
theorem Alphanumeric.not_mem {name : String} (h : Alphanumeric name) {c : Char}
    (hc : c.isAlphanum = false) : c ∉ name.toList := by
  intro hmem
  have hplain := h c hmem
  rw [hc] at hplain
  cases hplain

theorem Alphanumeric.ascii {name : String} (h : Alphanumeric name) {c : Char} (hc : c ∈ name.toList) :
    c.toNat < 128 := by
  have hbounds := Lowercase.isAlphanum_iff.mp (h c hc)
  omega

/-! ## The name that is looked up -/

section Variant

variable {project deployment name : String}

/-- A spelling of a name of ASCII characters has only these. -/
theorem CaseVariant.ascii {a b : String} (h : CaseVariant a b) (hb : ∀ c ∈ b.toList, c.toNat < 128) :
    ∀ c ∈ a.toList, c.toNat < 128 := by
  intro c hc
  have hlower : c.toLower ∈ b.toList.map Char.toLower := h ▸ List.mem_map_of_mem hc
  obtain ⟨d, hd, hsame⟩ := List.mem_map.mp hlower
  apply Lowercase.ascii_of_toLower
  rw [← hsame]
  exact Lowercase.toLower_ascii (hb d hd)

theorem ascii_hostName (hproject : Alphanumeric project) (hdeployment : Alphanumeric deployment) :
    ∀ c ∈ (hostName project deployment).toList, c.toNat < 128 := by
  intro c hc
  simp only [toList_hostName, List.mem_append, List.mem_cons] at hc
  rcases hc with (hc | rfl | hc) | hc
  · exact hdeployment.ascii hc
  · decide
  · exact hproject.ascii hc
  · have hall : (".internal".toList.all fun c => c.toNat < 128) = true := rfl
    exact of_decide_eq_true (List.all_eq_true.mp hall c hc)

/-- In lower case every spelling is the name of the names in lower case. -/
theorem CaseVariant.toLowercase (hproject : Alphanumeric project)
    (hdeployment : Alphanumeric deployment)
    (h : CaseVariant name (hostName project deployment)) (tables : Lowercase.Tables) :
    Lowercase.toLowercase tables name = hostName (lowerName project) (lowerName deployment) := by
  apply String.toList_injective
  have hascii := h.ascii (ascii_hostName hproject hdeployment)
  rw [Lowercase.toLowercase, String.toList_ofList, Lowercase.lowerFrom_ascii hascii,
    toList_hostName, toList_lowerName, toList_lowerName]
  rw [CaseVariant, toList_hostName] at h
  simp only [h, List.map_append, List.map_cons]
  rfl

end Variant

namespace TextQuestion

variable {q : TextQuestion} {project deployment : String}

/-- Every spelling is a name below `internal`. -/
theorem internal_of_variant (h : CaseVariant q.name (hostName project deployment)) :
    q.Internal := by
  rw [CaseVariant, toList_hostName, List.map_append] at h
  obtain ⟨front, last, hname, -, hlast⟩ := List.map_eq_append_iff.mp h
  exact ⟨front, last, hname, hlast⟩

/-- Every spelling is resolved alike: to the addresses of the names in lower case. -/
theorem resolved_variant (hproject : Alphanumeric project) (hdeployment : Alphanumeric deployment)
    (h : CaseVariant q.name (hostName project deployment)) (tables : Lowercase.Tables)
    (store : DnsRecordStore IpAddr) :
    q.resolved tables store = store.lookup (lowerName project) (lowerName deployment) := by
  rw [resolved, h.toLowercase hproject hdeployment]
  exact store.resolve_undashed (hproject.lowerName.not_mem rfl) (hdeployment.lowerName.not_mem rfl)
    (hdeployment.lowerName.not_mem rfl)

theorem asks_iff_isV4 (hqtype : q.qtype = 1) (ip : IpAddr) : q.Asks ip ↔ ip.isV4 = true := by
  rw [Asks, hqtype]
  cases ip with
  | v4 => exact iff_of_true (.inr rfl) rfl
  | v6 =>
    have hother : ¬ ((1 : UInt16) = 255 ∨ (1 : UInt16) = 28) := by decide
    exact iff_of_false hother Bool.false_ne_true

/-- Two addresses have two records. -/
theorem answer_injective (q : TextQuestion) : Function.Injective q.answer := by
  intro ip ip' h
  obtain ⟨-, htype, -, -, -, hdata⟩ := Record.mk.inj h
  cases ip with
  | v4 addr =>
    cases ip' with
    | v4 addr' =>
      obtain ⟨a, b, c, d⟩ := addr
      obtain ⟨a', b', c', d'⟩ := addr'
      simp only [IpAddr.octets, List.cons.injEq, and_true] at hdata
      obtain ⟨rfl, rfl, rfl, rfl⟩ := hdata
      rfl
    | v6 => exact absurd (show (1 : UInt16) = 28 from htype) (by decide)
  | v6 octets =>
    cases ip' with
    | v4 => exact absurd (show (28 : UInt16) = 1 from htype) (by decide)
    | v6 octets' => rw [Vector.toList_inj.mp hdata]

/-- A readable answer lists the addresses asked for, and these can be counted. -/
theorem answers_of_decode {id : UInt16} {ips : List IpAddr} {m : Message}
    (h : decode (q.response id ips) = some m) :
    m.answers = (ips.filter q.Asks).map q.answer ∧ (ips.filter q.Asks).length ≤ 65535 := by
  unfold response at h
  generalize ips.filter q.Asks = asked at h ⊢
  have hcount : (UInt16.ofNat asked.length).toNat = asked.length % 65536 := UInt16.toNat_ofNat'
  by_cases hfew : asked.length ≤ 65535
  · rw [q.decode_response id _ _ (by omega)] at h
    cases h
    exact ⟨rfl, hfew⟩
  · rw [q.decode_response_less id _ _ (by omega)] at h
    cases h

theorem decode_of_few (q : TextQuestion) (id : UInt16) {ips : List IpAddr}
    (hfew : (ips.filter q.Asks).length ≤ 65535) :
    ∃ m, decode (q.response id ips) = some m ∧ m.answers = (ips.filter q.Asks).map q.answer := by
  unfold response
  generalize ips.filter q.Asks = asked at hfew ⊢
  have hcount : (UInt16.ofNat asked.length).toNat = asked.length := by
    rw [UInt16.toNat_ofNat']
    omega
  exact ⟨_, q.decode_response id _ _ hcount, rfl⟩

/-- An A query in any spelling is answered with the IPv4 addresses that were
registered exactly if these are the addresses of the names in lower case, and
can be counted. -/
theorem variant_lists_iff (tables : Lowercase.Tables) (store : DnsRecordStore IpAddr)
    (upstream : Upstream) (hproject : Alphanumeric project) (hdeployment : Alphanumeric deployment)
    (hname : CaseVariant q.name (hostName project deployment)) (hqtype : q.qtype = 1)
    {data : List UInt8} {header : Header} (hheader : headerOf data = some header)
    (hopcode : header.flags.opcode = 0) (hcount : 1 ≤ header.qdcount.toNat)
    (hquestion : q.bytes <+: data.drop 12) :
    (∃ (response : List UInt8) (m : Message),
        handleDnsQuery tables data store upstream = .ok (.answered response) ∧
        decode response = some m ∧
        m.answers.Perm ((store.v4Addresses project deployment).map q.answer)) ↔
      (store.v4Addresses (lowerName project) (lowerName deployment)).Perm
          (store.v4Addresses project deployment) ∧
        (store.v4Addresses project deployment).length ≤ 65535 := by
  have hhandled := handleDnsQuery_internal tables store upstream hheader hopcode hcount hquestion
    (internal_of_variant hname)
  have hasked : (q.resolved tables store).filter q.Asks =
      store.v4Addresses (lowerName project) (lowerName deployment) := by
    rw [resolved_variant hproject hdeployment hname]
    apply List.filter_congr
    intro ip _
    exact Bool.eq_iff_iff.mpr (decide_eq_true_iff.trans (asks_iff_isV4 hqtype ip))
  constructor
  · rintro ⟨response, m, hanswered, hdecode, hlists⟩
    cases hhandled.symm.trans hanswered
    obtain ⟨hanswers, hfew⟩ := answers_of_decode hdecode
    rw [hasked] at hanswers hfew
    rw [hanswers, List.map_perm_map_iff q.answer_injective] at hlists
    exact ⟨hlists, hlists.length_eq ▸ hfew⟩
  · rintro ⟨hsame, hfew⟩
    have hfew' : ((q.resolved tables store).filter q.Asks).length ≤ 65535 := by
      rwa [hasked, hsame.length_eq]
    obtain ⟨m, hdecode, hanswers⟩ := q.decode_of_few header.id hfew'
    refine ⟨_, m, hhandled, hdecode, ?_⟩
    rw [hanswers, hasked]
    exact hsame.map _

/-- A query with one question. -/
def query (q : TextQuestion) : List UInt8 := [0, 66, 1, 0, 0, 1, 0, 0, 0, 0, 0, 0] ++ q.bytes

end TextQuestion

/-- `API.shop.Internal`, for an IPv4 address. -/
def upperQuestion : TextQuestion := ⟨["API", "shop", "Internal"], 1, 1, by decide, by decide⟩

theorem variant_lists_upper : ∃ (response : List UInt8) (m : Message),
    handleDnsQuery Lowercase.ascii upperQuestion.query apiStore unreachable =
      .ok (.answered response) ∧
    decode response = some m ∧
    m.answers.Perm ((apiStore.v4Addresses "shop" "api").map upperQuestion.answer) := by
  have hproject : Alphanumeric "shop" := by decide
  have hdeployment : Alphanumeric "api" := by decide
  have hname : CaseVariant upperQuestion.name (hostName "shop" "api") := by decide
  have hheader : headerOf upperQuestion.query = some ⟨66, .ofWord 256, 1, 0, 0, 0⟩ := rfl
  apply (TextQuestion.variant_lists_iff Lowercase.ascii apiStore unreachable hproject hdeployment
    hname rfl hheader rfl (by decide) (List.prefix_refl _)).mpr
  have hlower : lowerName "shop" = "shop" ∧ lowerName "api" = "api" := by decide
  rw [hlower.1, hlower.2]
  exact ⟨List.Perm.refl _, by decide⟩

/-- `api.Shop.internal`, for an IPv4 address. -/
def shopQuestion : TextQuestion := ⟨["api", "Shop", "internal"], 1, 1, by decide, by decide⟩

/-- A project with a capital: the query by its very name has no answer. -/
theorem variant_missed :
    let store := DnsRecordStore.after [.register "Shop" "api" (.v4 ⟨10, 0, 0, 1⟩)]
    shopQuestion.name = "api.Shop.internal" ∧
      store.v4Addresses "Shop" "api" = [.v4 ⟨10, 0, 0, 1⟩] ∧
      ∃ (response : List UInt8) (m : Message),
        handleDnsQuery Lowercase.ascii shopQuestion.query store unreachable =
          .ok (.answered response) ∧
        decode response = some m ∧ m.header.flags.rcode = 3 ∧ m.answers = [] := by
  intro store
  have hresolved : shopQuestion.resolved Lowercase.ascii store = [] := by decide
  have hinternal : shopQuestion.Internal :=
    ⟨"api.Shop".toList, ".internal".toList, by decide, by decide⟩
  have hheader : headerOf shopQuestion.query = some ⟨66, .ofWord 256, 1, 0, 0, 0⟩ := rfl
  have hhandled := TextQuestion.handleDnsQuery_internal Lowercase.ascii store unreachable
    hheader rfl (by decide) (List.prefix_refl _) hinternal
  rw [hresolved] at hhandled
  exact ⟨by decide, by decide, _, _, hhandled, shopQuestion.decode_response _ _ _ rfl, rfl, rfl⟩

end Nexad.Dns
