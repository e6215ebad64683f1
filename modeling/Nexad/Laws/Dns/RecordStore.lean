import Nexad.Dns.RecordStore
import Nexad.Network.Subnet

/-!
# What a name resolves to

The store refines a plain function from project and deployment to addresses
(`lookup_after`). Reading a query name against it is unambiguous except in
one place: a host label that ends in a dash and a number also names a replica
of the deployment in front of the dash, and that reading is tried first. A
deployment is reachable by its own name exactly when no such replica stands
in its way (`resolve_own_name_iff`).
-/

namespace Nexad.Dns

variable {IpAddr : Type} [DecidableEq IpAddr]

/-! ## The store as a function -/

/-- What a store means: the addresses of each deployment of each project. -/
abbrev Registry (IpAddr : Type) := String → String → List IpAddr

/-- The registry after one call. -/
def Registry.apply (r : Registry IpAddr) : RecordOp IpAddr → Registry IpAddr
  | .register project deployment ip => fun p d =>
    if p = project ∧ d = deployment then
      if ip ∈ r p d then r p d else r p d ++ [ip]
    else r p d
  | .deregister project deployment ip => fun p d =>
    if p = project ∧ d = deployment then (r p d).filter (· ≠ ip) else r p d

/-- The registry after a sequence of calls. -/
def Registry.after (ops : List (RecordOp IpAddr)) : Registry IpAddr :=
  ops.foldl Registry.apply fun _ _ => []

/-- The name of a deployment. -/
def hostName (project deployment : String) : String := s!"{deployment}.{project}.internal"

theorem toList_hostName (project deployment : String) : (hostName project deployment).toList =
    deployment.toList ++ '.' :: project.toList ++ ".internal".toList := by
  simp [hostName, String.toList_append, toString]

/-- Nothing is trimmed from a name below `internal`. -/
theorem trimEndMatches_internal (front : List Char) :
    Text.trimEndMatches '.' (front ++ ".internal".toList) = front ++ ".internal".toList := by
  have hend : front ++ ".internal".toList = (front ++ ".interna".toList) ++ ['l'] := by
    simp
  rw [hend]
  exact Text.trimEndMatches_of_getLast (by decide)

namespace DnsRecordStore

omit [DecidableEq IpAddr] in
theorem lookupReplica_eq (s : DnsRecordStore IpAddr) (project deployment : String) (index : Nat) :
    s.lookupReplica project deployment index = (s.lookup project deployment)[index]? := by
  unfold lookupReplica lookup
  cases (s.entries.lookup project).bind (·.lookup deployment) <;> rfl

omit [DecidableEq IpAddr] in
private theorem lookup_insert (m : Finmap fun _ : String => Finmap fun _ : String => List IpAddr)
    (project p d : String) (projectMap : Finmap fun _ : String => List IpAddr) :
    lookup ⟨m.insert project projectMap⟩ p d =
      if p = project then (projectMap.lookup d).getD [] else lookup ⟨m⟩ p d := by
  unfold lookup
  by_cases hp : p = project
  · subst hp
    rw [Finmap.lookup_insert, if_pos rfl, Option.bind_some]
  · rw [Finmap.lookup_insert_of_ne _ hp, if_neg hp]

theorem lookup_register (s : DnsRecordStore IpAddr) (project deployment : String) (ip : IpAddr) :
    (s.register project deployment ip).lookup =
      Registry.apply s.lookup (.register project deployment ip) := by
  funext p d
  unfold register
  rw [lookup_insert]
  simp only [Registry.apply]
  by_cases hp : p = project
  · subst hp
    by_cases hd : d = deployment
    · subst hd
      simp only [Finmap.lookup_insert, Option.getD_some, and_self, if_true]
      unfold lookup
      cases s.entries.lookup p <;> simp
    · simp only [Finmap.lookup_insert_of_ne _ hd, hd, and_false, if_true, if_false]
      unfold lookup
      cases s.entries.lookup p <;> simp
  · simp only [hp, false_and, if_false]

private theorem lookup_retainOthers (projectMap : Finmap fun _ : String => List IpAddr)
    (deployment d : String) (ip : IpAddr) :
    ((retainOthers projectMap deployment ip).lookup d).getD [] =
      if d = deployment then ((projectMap.lookup d).getD []).filter (· ≠ ip)
      else (projectMap.lookup d).getD [] := by
  unfold retainOthers
  by_cases hd : d = deployment
  · subst hd
    rw [if_pos rfl]
    cases h : projectMap.lookup d with
    | none => simp only [h, Option.getD_none, List.filter_nil]
    | some ips =>
      simp only [Option.getD_some]
      split
      · next hempty => rw [Finmap.lookup_erase, hempty, Option.getD_none]
      · rw [Finmap.lookup_insert, Option.getD_some]
  · rw [if_neg hd]
    cases projectMap.lookup deployment with
    | none => rfl
    | some ips =>
      simp only
      split
      · rw [Finmap.lookup_erase_ne hd]
      · rw [Finmap.lookup_insert_of_ne _ hd]

omit [DecidableEq IpAddr] in
private theorem lookup_erase (m : Finmap fun _ : String => Finmap fun _ : String => List IpAddr)
    (project p d : String) :
    lookup ⟨m.erase project⟩ p d = if p = project then [] else lookup ⟨m⟩ p d := by
  unfold lookup
  by_cases hp : p = project
  · subst hp
    rw [Finmap.lookup_erase, if_pos rfl, Option.bind_none, Option.getD_none]
  · rw [Finmap.lookup_erase_ne hp, if_neg hp]

theorem lookup_deregister (s : DnsRecordStore IpAddr) (project deployment : String)
    (ip : IpAddr) : (s.deregister project deployment ip).lookup =
      Registry.apply s.lookup (.deregister project deployment ip) := by
  funext p d
  have hrest := fun m => lookup_retainOthers m deployment d ip
  simp only [deregister, Registry.apply]
  by_cases hp : p = project
  · subst hp
    cases hproject : s.entries.lookup p with
    | none =>
      have hnone : s.lookup p d = [] := by rw [lookup, hproject, Option.bind_none, Option.getD_none]
      simp only [hnone, List.filter_nil, ite_self]
    | some projectMap =>
      have hold : s.lookup p d = (projectMap.lookup d).getD [] := by
        rw [lookup, hproject, Option.bind_some]
      simp only [hold, true_and, ← hrest]
      split
      · next hempty =>
        rw [lookup_erase, if_pos rfl, hempty, Finmap.lookup_empty, Option.getD_none]
      · rw [lookup_insert, if_pos rfl]
  · simp only [hp, false_and, if_false]
    cases s.entries.lookup project with
    | none => rfl
    | some projectMap =>
      simp only
      split
      · rw [lookup_erase, if_neg hp]
      · rw [lookup_insert, if_neg hp]

theorem lookup_apply (s : DnsRecordStore IpAddr) (op : RecordOp IpAddr) :
    (s.apply op).lookup = Registry.apply s.lookup op := by
  cases op with
  | register project deployment ip => exact s.lookup_register project deployment ip
  | deregister project deployment ip => exact s.lookup_deregister project deployment ip

/-- One call more. -/
theorem after_concat (ops : List (RecordOp IpAddr)) (op : RecordOp IpAddr) :
    after (ops ++ [op]) = (after ops).apply op := by
  rw [after, List.foldl_append]
  rfl

/-- The store refines its registry over every sequence of calls. -/
theorem lookup_after (ops : List (RecordOp IpAddr)) : (after ops).lookup = Registry.after ops := by
  suffices h : ∀ (s : DnsRecordStore IpAddr) (r : Registry IpAddr), s.lookup = r →
      (ops.foldl apply s).lookup = ops.foldl Registry.apply r from
    h .new _ rfl
  induction ops with
  | nil => exact fun _ _ h => h
  | cons op ops ih =>
    rintro s r rfl
    exact ih _ _ (s.lookup_apply op)

/-- Addresses that are registered one after the other stand in that order. -/
theorem lookup_after_registers (project deployment : String) {ips : List IpAddr} (h : ips.Nodup) :
    (after (ips.map (.register project deployment))).lookup project deployment = ips := by
  induction ips using List.reverseRecOn with
  | nil => rfl
  | append_singleton ips ip ih =>
    obtain ⟨hbefore, -, hnew⟩ := List.nodup_append.mp h
    have hnotMem : ip ∉ ips := fun hmem => hnew ip hmem ip List.mem_cons_self rfl
    rw [List.map_append, List.map_singleton, after_concat, lookup_apply, Registry.apply]
    dsimp only
    rw [if_pos ⟨rfl, rfl⟩, ih hbefore, if_neg hnotMem]

/-! ## Names -/

omit [DecidableEq IpAddr] in
/-- A query name of the documented form is cut at its two dots. -/
theorem resolve_query (s : DnsRecordStore IpAddr) {project deployment : String}
    (hproject : '.' ∉ project.toList) (hdeployment : '.' ∉ deployment.toList) :
    s.resolve s!"{deployment}.{project}.internal" =
      (s.resolveReplica project.toList deployment.toList).elim
        (if s.lookup project deployment = [] then none else some (s.lookup project deployment))
        fun ip => some [ip] := by
  have htrim : Text.trimEndMatches '.' (s!"{deployment}.{project}.internal").toList =
      deployment.toList ++ '.' :: (project.toList ++ '.' :: "internal".toList) := by
    have hlist := toList_hostName project deployment
    rw [hostName] at hlist
    rw [hlist, trimEndMatches_internal]
    simp
  unfold resolve
  rw [htrim, Text.splitN_three hdeployment hproject]
  simp only [ne_eq, not_true_eq_false, if_false, String.ofList_toList]
  cases s.resolveReplica project.toList deployment.toList <;> rfl

/-- A deployment's name also names a replica of another one, with another
answer: `<base>-<index>`, where `base` has an address at that index. -/
def Shadowed (s : DnsRecordStore IpAddr) (project deployment : String) : Prop :=
  ∃ base index i ip, deployment = base ++ "-" ++ index ∧
    Text.parseUnsigned (2 ^ 64) index.toList = some i ∧
    s.lookupReplica project base i = some ip ∧ s.lookup project deployment ≠ [ip]

omit [DecidableEq IpAddr] in
/-- The replica reading of a name, spelled out. -/
theorem resolveReplica_eq_some_iff (s : DnsRecordStore IpAddr)
    (project deployment : String) (ip : IpAddr) :
    s.resolveReplica project.toList deployment.toList = some ip ↔
      ∃ base index i, deployment = base ++ "-" ++ index ∧
        Text.parseUnsigned (2 ^ 64) index.toList = some i ∧
        s.lookupReplica project base i = some ip := by
  simp only [resolveReplica, Option.bind_eq_bind, Option.bind_eq_some_iff, Prod.exists,
    Text.rsplitOnce_eq_some_iff, String.ofList_toList]
  constructor
  · rintro ⟨base, index, ⟨hname, -⟩, i, hi, hip⟩
    refine ⟨String.ofList base, String.ofList index, i, ?_, ?_, hip⟩
    · apply String.toList_injective
      simp [hname, String.toList_append]
    · rwa [String.toList_ofList]
  · rintro ⟨base, index, i, rfl, hi, hip⟩
    refine ⟨base.toList, index.toList, ⟨?_, ?_⟩, i, hi, ?_⟩
    · simp [String.toList_append]
    · exact Text.not_mem_of_parseUnsigned hi (by decide) (by decide)
    · rwa [String.ofList_toList]

omit [DecidableEq IpAddr] in
/-- A name without a dash is no replica's. -/
theorem resolveReplica_eq_none (s : DnsRecordStore IpAddr) (project : String) {deployment : String}
    (hdash : '-' ∉ deployment.toList) :
    s.resolveReplica project.toList deployment.toList = none := by
  apply Option.eq_none_iff_forall_ne_some.mpr
  intro ip hip
  obtain ⟨base, index, -, hname, -⟩ := (s.resolveReplica_eq_some_iff project deployment ip).mp hip
  apply hdash
  rw [hname]
  simp [String.toList_append]

omit [DecidableEq IpAddr] in
/-- So it resolves to the deployment's own list. -/
theorem resolve_undashed (s : DnsRecordStore IpAddr) {project deployment : String}
    (hproject : '.' ∉ project.toList) (hdeployment : '.' ∉ deployment.toList)
    (hdash : '-' ∉ deployment.toList) :
    (s.resolve (hostName project deployment)).getD [] = s.lookup project deployment := by
  rw [hostName, resolve_query s hproject hdeployment, resolveReplica_eq_none s project hdash, Option.elim_none]
  split
  · next hnone => rw [hnone, Option.getD_none]
  · rw [Option.getD_some]

/-- After any sequence of calls, a deployment with an address resolves to its
own list exactly when no replica shadows its name. -/
theorem resolve_own_name_iff (ops : List (RecordOp IpAddr)) {project deployment : String}
    (hproject : '.' ∉ project.toList) (hdeployment : '.' ∉ deployment.toList)
    (hregistered : (after ops).lookup project deployment ≠ []) :
    (after ops).resolve s!"{deployment}.{project}.internal" =
        some ((after ops).lookup project deployment) ↔
      ¬ Shadowed (after ops) project deployment := by
  rw [resolve_query _ hproject hdeployment]
  cases hreplica : (after ops).resolveReplica project.toList deployment.toList with
  | none =>
    simp only [Option.elim_none, hregistered, if_false, true_iff]
    rintro ⟨base, index, i, ip, hname, hi, hip, -⟩
    have := ((after ops).resolveReplica_eq_some_iff project deployment ip).mpr
      ⟨base, index, i, hname, hi, hip⟩
    rw [hreplica] at this
    cases this
  | some ip =>
    simp only [Option.elim_some, Option.some.injEq]
    constructor
    · rintro hown ⟨base, index, i, ip', hname, hi, hip, hne⟩
      have := ((after ops).resolveReplica_eq_some_iff project deployment ip').mpr
        ⟨base, index, i, hname, hi, hip⟩
      rw [hreplica] at this
      cases this
      exact hne hown.symm
    · intro hclear
      obtain ⟨base, index, i, hname, hi, hip⟩ :=
        ((after ops).resolveReplica_eq_some_iff project deployment ip).mp hreplica
      by_contra hne
      exact hclear ⟨base, index, i, ip, hname, hi, hip, fun h => hne h.symm⟩

/-- The calls of two projects with deployments `svc`, and of `svc-1` beside
one of them. In the end the `svc` beside it has a single address. -/
def shopOps : List (RecordOp Network.Ipv4Addr) :=
  [.register "shop" "svc" ⟨10, 0, 0, 1⟩, .register "shop" "svc" ⟨10, 0, 0, 2⟩,
    .register "shop" "svc-1" ⟨10, 0, 0, 3⟩, .register "crm" "svc" ⟨10, 0, 0, 4⟩,
    .register "crm" "svc" ⟨10, 0, 0, 5⟩, .register "shop" "svc-1" ⟨10, 0, 0, 6⟩,
    .deregister "shop" "svc" ⟨10, 0, 0, 2⟩]

/-- The name `svc-1` is not a replica's then, and the deployment answers to it. -/
theorem resolve_dashed_unshadowed :
    let s : DnsRecordStore Network.Ipv4Addr := after shopOps
    s.lookup "shop" "svc" = [⟨10, 0, 0, 1⟩] ∧
      s.lookup "shop" "svc-1" = [⟨10, 0, 0, 3⟩, ⟨10, 0, 0, 6⟩] ∧
      s.resolve "svc-1.shop.internal" = some (s.lookup "shop" "svc-1") := by
  refine ⟨by decide, by decide, (@resolve_own_name_iff _ _ shopOps "shop" "svc-1" (by decide)
    (by decide) (by decide)).mpr ?_⟩
  rintro ⟨base, index, i, ip, hname, hi, hip, -⟩
  -- `svc` is the only base with a numeric index, and it has no second address
  have hnone : (after shopOps).resolveReplica "shop".toList "svc-1".toList = none := by decide
  have hsome := ((after shopOps).resolveReplica_eq_some_iff "shop" "svc-1" ip).mpr
    ⟨base, index, i, hname, hi, hip⟩
  rw [hnone] at hsome
  cases hsome

/-- `svc` has two addresses, so the name `svc-1` reads as its second replica
and the deployment `svc-1` cannot be reached. -/
theorem resolve_shadowed :
    let s : DnsRecordStore Network.Ipv4Addr := after
      [.register "shop" "svc" ⟨10, 0, 0, 1⟩, .register "shop" "svc" ⟨10, 0, 0, 2⟩,
        .register "shop" "svc-1" ⟨10, 0, 0, 3⟩]
    s.lookup "shop" "svc-1" = [⟨10, 0, 0, 3⟩] ∧
      s.resolve "svc-1.shop.internal" = some [⟨10, 0, 0, 2⟩] ∧
      s.resolve "svc-1.shop.internal" ≠ some (s.lookup "shop" "svc-1") := by
  decide

end DnsRecordStore

end Nexad.Dns
