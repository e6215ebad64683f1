import Nexad.Dns.Server
import Nexad.Laws.Dns.Packets

/-!
# Answers while records change

`resolve` looks twice. When the first look finds the replica, or the name is not
read as one, there is one look, and the answer is that of one moment. When it
finds no replica, the second look may see another state. That does no harm as
long as no deployment has a name that reads as a replica's (`NoReplicaNames`):
then the second look finds nothing, now as before (`answers_of_a_moment`).
-/

namespace Nexad.Dns

open Slice Interleave

/-! ## One moment -/

/-- No deployment has a name that reads as a replica's. -/
def NoReplicaNames (s : DnsRecordStore IpAddr) : Prop :=
  ∀ project deployment : String, (replicaOf deployment.toList).isSome → s.lookup project deployment = []

theorem resolveReplica_replicaOf (s : DnsRecordStore IpAddr) (project host : List Char) :
    s.resolveReplica project host =
      (replicaOf host).bind fun r => s.lookupReplica (String.ofList project) r.1 r.2 := by
  unfold DnsRecordStore.resolveReplica replicaOf
  cases Text.rsplitOnce '-' host with
  | none => rfl
  | some cut =>
    obtain ⟨deployment, maybeIndex⟩ := cut
    simp only [Option.bind_eq_bind, Option.bind_some, Option.bind_assoc]
    rfl

/-- A query is handled as far as its question, and then from the records. -/
theorem handleDnsQuery_eq (tables : Lowercase.Tables) (data : List UInt8) (s : DnsRecordStore IpAddr)
    (upstream : Upstream) : handleDnsQuery tables data s upstream =
      match readQuery data with
      | .error e => .error e
      | .ok none => .ok .dropped
      | .ok (some (id, queryName, qtype, questionEnd)) =>
        if isInternal (Lowercase.toLowercase tables queryName) then
          (buildDnsResponse id data queryName questionEnd qtype
            (s.resolve (Lowercase.toLowercase tables queryName))).map .answered
        else .ok (.forwarded (forwardToUpstream upstream data)) := by
  unfold handleDnsQuery readQuery
  split
  · rfl
  · cases readU16 data 0 with
    | error e => rfl
    | ok id =>
    cases readU16 data 2 with
    | error e => rfl
    | ok flags =>
    cases readU16 data 4 with
    | error e => rfl
    | ok qdCount =>
    simp only [bind, Except.bind]
    split
    · rfl
    · cases parseQuestion data 12 with
      | error e => rfl
      | ok question =>
        cases question with
        | none => rfl
        | some question => rfl

/-! ## The looks of a query -/

/-- The calls were answered in states of this kind. -/
def AnsweredIn (P : DnsRecordStore IpAddr → Prop) (calls : List ((op : RecordCall) × recordSig.Ans op)) :
    Prop :=
  ∀ op ans, ⟨op, ans⟩ ∈ calls → ∃ s s', P s ∧ Locked s op ans s'

section Looks

variable {α : Type} {P : DnsRecordStore IpAddr → Prop} {calls : List ((op : RecordCall) × recordSig.Ans op)}
  {a : α}

/-- The look for a deployment is answered in one moment. -/
theorem lookupDeployment_path {project host : List Char} {f : Option (List IpAddr) → α}
    (h : (lookupDeployment project host fun ips => .ret (f ips)).Path calls (.ret a))
    (hcalls : AnsweredIn P calls) : ∃ s, P s ∧
      a = f (if s.lookup (String.ofList project) (String.ofList host) = [] then none
        else some (s.lookup (String.ofList project) (String.ofList host))) := by
  unfold lookupDeployment at h
  cases h with
  | call ips h =>
    obtain ⟨s, s', hs, hlocked⟩ := hcalls _ _ List.mem_cons_self
    cases hlocked
    exact ⟨s, hs, h.ret_eq.symm⟩

/-- A name is resolved as in one moment, or needs no records. -/
theorem resolveCalls_path {name : String} {f : Option (List IpAddr) → α}
    (h : (resolveCalls name fun ips => .ret (f ips)).Path calls (.ret a))
    (hcalls : AnsweredIn P calls) (hP : ∀ s, P s → NoReplicaNames s) :
    (∀ s : DnsRecordStore IpAddr, a = f (s.resolve name)) ∨ ∃ s, P s ∧ a = f (s.resolve name) := by
  by_cases hlabels : ∃ host project zone,
      Text.splitN '.' 3 (Text.trimEndMatches '.' name.toList) = [host, project, zone]
  · obtain ⟨host, project, zone, hparts⟩ := hlabels
    simp only [DnsRecordStore.resolve, hparts, resolveReplica_replicaOf]
    simp only [resolveCalls, hparts] at h
    by_cases hzone : zone ≠ "internal".toList
    · rw [if_pos hzone] at h
      refine .inl fun s => ?_
      rw [if_pos hzone]
      exact h.ret_eq.symm
    · rw [if_neg hzone] at h
      simp only [if_neg hzone]
      right
      cases hreplica : replicaOf host with
      | none =>
        rw [hreplica] at h
        exact lookupDeployment_path h hcalls
      | some replica =>
        obtain ⟨deployment, index⟩ := replica
        rw [hreplica] at h
        cases h with
        | @call _ _ _ calls ans h =>
          obtain ⟨s, s', hs, hlocked⟩ := hcalls _ _ List.mem_cons_self
          cases hlocked
          refine ⟨s, hs, ?_⟩
          rw [Option.bind_some]
          dsimp only at h ⊢
          cases hip : s.lookupReplica (String.ofList project) deployment index with
          | some ip =>
            rw [hip] at h
            exact h.ret_eq.symm
          | none =>
            rw [hip] at h
            -- the name reads as a replica's, so no deployment has it, at either moment
            have hhost : (replicaOf (String.ofList host).toList).isSome := by
              rw [String.toList_ofList, hreplica]
              rfl
            obtain ⟨t, ht, ha⟩ := lookupDeployment_path h
              fun op ans hmem => hcalls op ans (List.mem_cons_of_mem _ hmem)
            rw [ha, hP t ht _ _ hhost, hP s hs _ _ hhost]
  · have hcode : a = f none := by
      unfold resolveCalls at h
      split at h
      · next heq => exact absurd ⟨_, _, _, heq⟩ hlabels
      · exact h.ret_eq.symm
    refine .inl fun s => ?_
    rw [hcode]
    unfold DnsRecordStore.resolve
    split
    · next heq => exact absurd ⟨_, _, _, heq⟩ hlabels
    · rfl

/-- A query is handled as in one moment, or needs no records. -/
theorem handleQuery_path {tables : Lowercase.Tables} {upstream : Upstream} {data : List UInt8}
    {f : Except Panic Handled → α}
    (h : (handleQuery tables upstream data fun handled => .ret (f handled)).Path calls (.ret a))
    (hcalls : AnsweredIn P calls) (hP : ∀ s, P s → NoReplicaNames s) :
    (∀ s, a = f (handleDnsQuery tables data s upstream)) ∨
      ∃ s, P s ∧ a = f (handleDnsQuery tables data s upstream) := by
  simp only [handleDnsQuery_eq]
  unfold handleQuery at h
  rcases heq : readQuery data with e | _ | ⟨id, queryName, qtype, questionEnd⟩
  · rw [heq] at h
    exact .inl fun _ => h.ret_eq.symm
  · rw [heq] at h
    exact .inl fun _ => h.ret_eq.symm
  · rw [heq] at h
    dsimp only at h ⊢
    by_cases hinternal : isInternal (Lowercase.toLowercase tables queryName)
    · simp only [if_pos hinternal] at h ⊢
      exact resolveCalls_path (f := fun ips =>
        f ((buildDnsResponse id data queryName questionEnd qtype ips).map .answered)) h hcalls hP
    · simp only [if_neg hinternal] at h ⊢
      exact .inl fun _ => h.ret_eq.symm

end Looks

/-! ## Runs -/

/-- The call registers nothing under a name that reads as a replica's. -/
def PlainCall : RecordCall → Prop
  | .apply (.register _ deployment _) => replicaOf deployment.toList = none
  | _ => True

theorem NoReplicaNames.locked {s s' : DnsRecordStore IpAddr} {op : RecordCall} {ans : recordSig.Ans op}
    (h : NoReplicaNames s) (hop : PlainCall op) (hlocked : Locked s op ans s') : NoReplicaNames s' := by
  cases hlocked with
  | lookupReplica => exact h
  | lookup => exact h
  | apply op =>
    intro project deployment hreplica
    have hbefore := h project deployment hreplica
    rw [DnsRecordStore.lookup_apply]
    cases op with
    | register p d ip =>
      have hother : ¬ (project = p ∧ deployment = d) := by
        rintro ⟨-, rfl⟩
        rw [show replicaOf deployment.toList = none from hop] at hreplica
        cases hreplica
      exact (if_neg hother).trans hbefore
    | deregister p d ip =>
      show (if project = p ∧ deployment = d then _ else _) = []
      split
      · rw [hbefore]
        rfl
      · exact hbefore

section Run

variable {tables : Lowercase.Tables} {upstream : Upstream} {sendTo : List UInt8 → Bool}
  {arrives : DnsRequest → Prop} {s₀ : DnsRecordStore IpAddr}
  {l : History recordSig (DnsRecordStore IpAddr) DnsRequest}
  {p : Pool recordSig (DnsRecordStore IpAddr) DnsRequest DnsReply}

theorem lookupDeployment_every {α : Type} (project host : List Char)
    {k : Option (List IpAddr) → Prog recordSig α} (hk : ∀ ips, (k ips).Every PlainCall) :
    (lookupDeployment project host k).Every PlainCall := ⟨trivial, fun _ => hk _⟩

theorem handleQuery_every {α : Type} (data : List UInt8) {k : Except Panic Handled → Prog recordSig α}
    (hk : ∀ handled, (k handled).Every PlainCall) :
    (handleQuery tables upstream data k).Every PlainCall := by
  unfold handleQuery
  split
  · exact hk _
  · exact hk _
  · dsimp only
    split
    · unfold resolveCalls
      split
      · split
        · exact hk _
        · split
          · exact lookupDeployment_every _ _ fun _ => hk _
          · refine ⟨trivial, fun ans => ?_⟩
            match ans with
            | some ip => exact hk _
            | none => exact lookupDeployment_every _ _ fun _ => hk _
      · exact hk _
    · exact hk _

/-- No request registers anything under a name that reads as a replica's. -/
def PlainNames (arrives : DnsRequest → Prop) : Prop :=
  ∀ project deployment ip, arrives (.record (.register project deployment ip)) →
    replicaOf deployment.toList = none

theorem PlainNames.code (h : PlainNames arrives) (req : DnsRequest) (harrives : arrives req) :
    (req.code tables upstream sendTo).Every PlainCall := by
  match req with
  | .datagram received =>
    unfold DnsRequest.code
    refine handleQuery_every _ fun _ => ?_
    exact trivial
  | .client [] | .client [_] => exact trivial
  | .client (high :: low :: rest) =>
    show (if _ then _ else _ : Prog recordSig DnsReply).Every PlainCall
    split
    · exact trivial
    · refine handleQuery_every _ fun _ => ?_
      exact trivial
  | .record (.register project deployment ip) => exact ⟨h project deployment ip harrives, fun _ => trivial⟩
  | .record (.deregister ..) => exact ⟨trivial, fun _ => trivial⟩

theorem PlainNames.visited (h : PlainNames arrives) (h₀ : NoReplicaNames s₀)
    (hrun : Run (dnsServer tables upstream sendTo arrives) (.idle s₀) l p) {s : DnsRecordStore IpAddr}
    (hs : Run.Visited l p s) : NoReplicaNames s := by
  have hcalls := (Run.every (M := dnsServer tables upstream sendTo arrives) (P := fun _ => PlainCall) h.code
    (Pool.idle_every _ _) hrun).2
  refine Run.visited (A := fun _ e => ∀ k req op ans, e = .call k req op ans → PlainCall op) h₀
    (fun q e q' hstep hplain hbefore => ?_) hrun
    (fun s e hmem k req op ans heq => hcalls s k req op ans (heq ▸ hmem)) hs
  cases hstep with
  | arrive => exact hbefore
  | call _ answered => exact hbefore.locked (hplain _ _ _ _ rfl) answered
  | env moves => exact moves.elim

theorem handleUdpDatagram_eq (received : List UInt8) (s : DnsRecordStore IpAddr) :
    handleUdpDatagram tables received s upstream sendTo =
      (handleDnsQuery tables (received.take 4096) s upstream).map (Handled.sent sendTo) := by
  unfold handleUdpDatagram
  cases handleDnsQuery tables (received.take 4096) s upstream <;> rfl

theorem handleTcpDnsClient_eq (high low : UInt8) {rest : List UInt8}
    (hlong : ¬ rest.length < BigEndian.value [high, low]) (s : DnsRecordStore IpAddr) :
    handleTcpDnsClient tables (high :: low :: rest) s upstream =
      (handleDnsQuery tables (rest.take (BigEndian.value [high, low])) s upstream).map Handled.framed := by
  rw [handleTcpDnsClient, if_neg hlong]
  cases handleDnsQuery tables (rest.take (BigEndian.value [high, low])) s upstream with
  | error e => rfl
  | ok handled =>
    simp only [Handled.framed, bind, Except.bind, Except.map]
    cases handled.response <;> rfl

/-- What the code of a request comes to is what it gets in one moment. -/
theorem code_path {P : DnsRecordStore IpAddr → Prop} {calls : List ((op : RecordCall) × recordSig.Ans op)}
    {req : DnsRequest} {reply : DnsReply} (h : (req.code tables upstream sendTo).Path calls (.ret reply))
    (hcalls : AnsweredIn P calls) (hP : ∀ s, P s → NoReplicaNames s) :
    (∀ s, reply = req.atOnce tables upstream sendTo s) ∨ ∃ s, P s ∧ reply = req.atOnce tables upstream sendTo s := by
  match req with
  | .datagram received =>
    simp only [DnsRequest.atOnce, handleUdpDatagram_eq]
    exact handleQuery_path (f := fun handled => DnsReply.datagram (handled.map (Handled.sent sendTo))) h
      hcalls hP
  | .client [] | .client [_] => exact .inl fun _ => h.ret_eq.symm
  | .client (high :: low :: rest) =>
    simp only [DnsRequest.atOnce]
    unfold DnsRequest.code at h
    dsimp only at h
    split at h
    · next hshort =>
      refine .inl fun s => ?_
      rw [handleTcpDnsClient, if_pos hshort]
      exact h.ret_eq.symm
    · next hlong =>
      simp only [handleTcpDnsClient_eq high low hlong]
      exact handleQuery_path (f := fun handled => DnsReply.client (handled.map Handled.framed)) h
        hcalls hP
  | .record op =>
    refine .inl fun s => ?_
    cases h with
    | call _ h => exact h.ret_eq.symm

/-- As long as no deployment has a name that reads as a replica's, whatever is
registered and deregistered meanwhile: each datagram and each client gets what
the whole handler makes of it from the records of one moment, one in which the
query looked at them if it looked at all. -/
theorem answers_of_a_moment (plain : PlainNames arrives) (h₀ : NoReplicaNames s₀)
    (hrun : Run (dnsServer tables upstream sendTo arrives) (.idle s₀) l p) {k : Nat} {req : DnsRequest}
    {reply : DnsReply} (hk : p.thread k = some (req, .ret reply)) :
    ∃ s, Run.Visited l p s ∧ reply = req.atOnce tables upstream sendTo s ∧
      (l.calls k = [] ∨ ∃ op ans, (s, .call k req op ans) ∈ l) := by
  have hcalls : AnsweredIn (fun s => ∃ op ans, (s, .call k req op ans) ∈ l) (l.calls k) := by
    intro op ans hmem
    obtain ⟨s, hcall⟩ := hrun.event_of_call hk hmem
    obtain ⟨-, -, t, t', -, rfl, -, hstep, -⟩ := hrun.split hcall
    cases hstep with
    | call _ answered => exact ⟨t.state, _, ⟨op, ans, hcall⟩, answered⟩
  have hplain : ∀ s, (∃ op ans, (s, .call k req op ans) ∈ l) → NoReplicaNames s := by
    rintro s ⟨op, ans, hcall⟩
    exact plain.visited h₀ hrun (.inr ⟨_, hcall⟩)
  rcases code_path (hrun.path hk) hcalls hplain with hany | ⟨s, hs, hreply⟩
  · cases hmade : l.calls k with
    | nil => exact ⟨p.state, .inl rfl, hany _, .inl rfl⟩
    | cons call _ =>
      obtain ⟨s, -, hs, -⟩ := hcalls call.1 call.2 (hmade ▸ List.mem_cons_self)
      obtain ⟨op, ans, hcall⟩ := hs
      exact ⟨s, .inr ⟨_, hcall⟩, hany s, .inr ⟨op, ans, hcall⟩⟩
  · obtain ⟨op, ans, hcall⟩ := hs
    exact ⟨s, .inr ⟨_, hcall⟩, hreply, .inr ⟨op, ans, hcall⟩⟩

end Run

section Register

/-- Queries, and registrations of `api`. -/
def apiOnly (req : DnsRequest) : Prop :=
  ∀ project deployment ip, req = .record (.register project deployment ip) → deployment = "api"

private theorem apiQuery_code : (DnsRequest.datagram apiQuery).code Lowercase.ascii unreachable udpSocket =
    .call (.lookup "shop" "api") fun (ips : List IpAddr) => .ret (.datagram
      (((buildDnsResponse 66 apiQuery "api.shop.internal" 35 1 (if ips = [] then none else some ips)).map
        .answered).map (Handled.sent udpSocket))) := by
  have hquestion : parseQuestion apiQuery 12 = .ok (some (".".intercalate apiQuestion.labels, 1, 35)) := by
    have hbytes := parseQuestion_bytes (byteSized_of_sized apiQuestion.sized) 1 1
      [0, 66, 1, 0, 0, 1, 0, 0, 0, 0, 0, 0] []
    have hlength : (questionBytes apiQuestion.labels 1 1).length = 23 := by decide
    rw [List.append_nil, hlength] at hbytes
    exact hbytes
  have hname : ".".intercalate apiQuestion.labels = "api.shop.internal" := by decide
  have hread : readQuery apiQuery = .ok (some (66, "api.shop.internal", 1, 35)) := by
    rw [hname] at hquestion
    unfold readQuery
    rw [hquestion]
    rfl
  have htake : apiQuery.take 4096 = apiQuery := by decide
  unfold DnsRequest.code handleQuery
  dsimp only
  rw [htake, hread]
  rfl

/-- A query for `api` arrives before the registration, and looks after it. -/
theorem answers_of_a_moment_api : ∃ l p reply,
    Run (dnsServer Lowercase.ascii unreachable udpSocket apiOnly) (.idle .new) l p ∧
    p.thread 0 = some (.datagram apiQuery, .ret reply) ∧ p.state = apiStore ∧
    ∃ s, Run.Visited l p s ∧
      reply = (DnsRequest.datagram apiQuery).atOnce Lowercase.ascii unreachable udpSocket s := by
  have hplain : PlainNames apiOnly := by
    intro project deployment ip harrives
    rw [harrives project deployment ip rfl]
    rfl
  have hempty : NoReplicaNames .new := fun _ _ _ => rfl
  have hquery : apiOnly (.datagram apiQuery) := fun _ _ _ h => by cases h
  have hrecord : apiOnly (.record (.register "shop" "api" (.v4 ⟨10, 0, 0, 1⟩))) := by
    intro project deployment ip h
    cases h
    rfl
  have hrun := (Run.start (dnsServer Lowercase.ascii unreachable udpSocket apiOnly) (.idle .new)).arrive 0
    (.datagram apiQuery) rfl hquery
    |>.arrive 1 (.record (.register "shop" "api" (.v4 ⟨10, 0, 0, 1⟩))) rfl hrecord
    |>.call 1 rfl (.apply _)
    |>.call 0 (congrArg (fun q => some (DnsRequest.datagram apiQuery, q)) apiQuery_code) (.lookup "shop" "api")
  obtain ⟨s, hs, hreply, -⟩ := answers_of_a_moment hplain hempty hrun (k := 0) rfl
  exact ⟨_, _, _, hrun, rfl, rfl, s, hs, hreply⟩

end Register

end Nexad.Dns
