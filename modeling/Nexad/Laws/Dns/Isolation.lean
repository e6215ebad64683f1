import Nexad.Laws.Dns.RecordStore

/-!
# What a project's names read

A query name is cut at its dots, and only the records of the project in its
second label are read. So projects cannot see each other
(`projects_isolated`): what a name of one resolves to depends on that one's
records alone, and no call on another changes it.
-/

namespace Nexad.Dns

variable {IpAddr : Type} [DecidableEq IpAddr]

/-- The text between the first dot of a name and the second, or its end. -/
def secondLabel (name : String) : Option String :=
  (name.toList.splitOn '.')[1]?.map String.ofList

/-- The project that a call is about. -/
def RecordOp.project : RecordOp IpAddr → String
  | .register project _ _ => project
  | .deregister project _ _ => project

omit [DecidableEq IpAddr] in
/-- Trailing dots aside, the second of three parts is the second label. -/
theorem secondLabel_of_parts {name : String} {host project zone : List Char}
    (h : Text.splitN '.' 3 (Text.trimEndMatches '.' name.toList) = [host, project, zone]) :
    secondLabel name = some (String.ofList project) := by
  obtain ⟨hparts, hhost, hproject⟩ := Text.splitN_eq_three h
  obtain ⟨dots, hname⟩ := Text.trimEndMatches_prefix '.' name.toList
  have hcut : name.toList = host ++ '.' :: (project ++ '.' :: (zone ++ dots)) := by
    rw [← hname, hparts]
    simp only [List.append_assoc, List.cons_append]
  rw [secondLabel, hcut, List.splitOn_append_cons_self_of_not_mem hhost,
    List.splitOn_append_cons_self_of_not_mem hproject]
  rfl

namespace DnsRecordStore

omit [DecidableEq IpAddr] in
theorem resolveReplica_congr {s s' : DnsRecordStore IpAddr} {project : List Char}
    (h : ∀ d, s.lookup (String.ofList project) d = s'.lookup (String.ofList project) d)
    (host : List Char) : s.resolveReplica project host = s'.resolveReplica project host := by
  simp only [resolveReplica, lookupReplica_eq, h]

omit [DecidableEq IpAddr] in
/-- Two stores with the same records of a project resolve its names alike. -/
theorem resolve_congr {s s' : DnsRecordStore IpAddr} {project : String}
    (h : ∀ d, s.lookup project d = s'.lookup project d) {name : String}
    (hname : secondLabel name = some project) : s.resolve name = s'.resolve name := by
  unfold resolve
  cases hparts : Text.splitN '.' 3 (Text.trimEndMatches '.' name.toList) with
  | nil => rfl
  | cons host more =>
    match more with
    | [] | [_] | _ :: _ :: _ :: _ => rfl
    | [project', zone] =>
      obtain rfl : String.ofList project' = project :=
        Option.some.inj ((secondLabel_of_parts hparts).symm.trans hname)
      dsimp only
      rw [resolveReplica_congr h, h]

/-- A call on one project keeps the records of every other. -/
theorem lookup_apply_ne (s : DnsRecordStore IpAddr) {op : RecordOp IpAddr} {project : String}
    (hop : op.project ≠ project) (d : String) : (s.apply op).lookup project d = s.lookup project d := by
  rw [lookup_apply]
  cases op with
  | register q deployment ip => exact if_neg fun h => hop h.1.symm
  | deregister q deployment ip => exact if_neg fun h => hop h.1.symm

/-- Projects cannot see each other. Two stores that agree on one resolve every
name with it as the second label alike, and a call on another changes nothing
of what is looked up or resolved in it. The names may hold any characters. -/
theorem projects_isolated (project : String) :
    (∀ s s' : DnsRecordStore IpAddr, (∀ d, s.lookup project d = s'.lookup project d) →
      ∀ name, secondLabel name = some project → s.resolve name = s'.resolve name) ∧
    (∀ (s : DnsRecordStore IpAddr) (op : RecordOp IpAddr), op.project ≠ project →
      (∀ d, (s.apply op).lookup project d = s.lookup project d) ∧
      (∀ d i, (s.apply op).lookupReplica project d i = s.lookupReplica project d i) ∧
      ∀ name, secondLabel name = some project → (s.apply op).resolve name = s.resolve name) := by
  refine ⟨fun s s' h name hname => resolve_congr h hname, fun s op hop => ?_⟩
  have hkept := fun d => s.lookup_apply_ne hop d
  refine ⟨hkept, fun d i => ?_, fun name hname => resolve_congr hkept hname⟩
  rw [lookupReplica_eq, lookupReplica_eq, hkept]

/-- A name with dashes and trailing dots reads its own project. -/
theorem projects_isolated_shop :
    ((after [.register "shop" "api-1" (⟨10, 0, 0, 1⟩ : Network.Ipv4Addr)]).apply
        (.register "shop-1" "api" ⟨10, 0, 0, 2⟩)).resolve "api-1.shop.internal.." =
      (after [.register "shop" "api-1" (⟨10, 0, 0, 1⟩ : Network.Ipv4Addr)]).resolve
        "api-1.shop.internal.." := by
  have hsecond : secondLabel "api-1.shop.internal.." = some "shop" := by decide
  have hother : (RecordOp.register "shop-1" "api" (⟨10, 0, 0, 2⟩ : Network.Ipv4Addr)).project ≠
    "shop" := by decide
  exact ((projects_isolated "shop").2 _ _ hother).2.2 _ hsecond

end DnsRecordStore

end Nexad.Dns
