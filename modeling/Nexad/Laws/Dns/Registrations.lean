import Nexad.Base.Since
import Nexad.Laws.Dns.RecordStore

/-!
# What has been registered

A store says of each deployment which addresses are registered and in which
order their registrations began (`lookup_listed`), and keeps no map that has
nothing in it (`Compact`). Together with the frame of a single call this is
all there is to say of a run (`record_store_meets_model`).
-/

namespace Nexad.Dns

open Openings

variable {IpAddr : Type} [DecidableEq IpAddr]

/-- The project and the deployment that a call is about. -/
def RecordOp.target : RecordOp IpAddr → String × String
  | .register project deployment _ => (project, deployment)
  | .deregister project deployment _ => (project, deployment)

omit [DecidableEq IpAddr] in
theorem RecordOp.register_ne_deregister (p d : String) (ip ip' : IpAddr) :
    RecordOp.register p d ip ≠ .deregister p d ip' := by
  intro h
  cases h

namespace DnsRecordStore

/-! ## The order of registrations -/

theorem lookup_apply_other (s : DnsRecordStore IpAddr) (op : RecordOp IpAddr) {p d : String}
    (h : (p, d) ≠ op.target) : (s.apply op).lookup p d = s.lookup p d := by
  have hother : ∀ {project deployment}, (p, d) ≠ (project, deployment) →
      ¬ (p = project ∧ d = deployment) := by
    rintro project deployment hne ⟨rfl, rfl⟩
    exact hne rfl
  rw [lookup_apply]
  cases op with
  | register project deployment ip => exact if_neg (hother h)
  | deregister project deployment ip => exact if_neg (hother h)

/-- A deployment's list is what is registered for it, by the beginnings of the
registrations. -/
theorem lookup_listed (ops : List (RecordOp IpAddr)) (p d : String) :
    Listed (RecordOp.register p d) (.deregister p d) ops ((after ops).lookup p d) := by
  induction ops using List.reverseRecOn with
  | nil => exact .nil
  | append_singleton ops op ih =>
    rw [after_concat]
    by_cases htarget : (p, d) = op.target
    · rw [lookup_apply]
      cases op with
      | register project deployment ip =>
        cases htarget
        simp only [Registry.apply, and_self, if_true]
        exact ih.opened (fun _ _ h => (RecordOp.register.inj h).2.2) (RecordOp.register_ne_deregister p d) ip
      | deregister project deployment ip =>
        cases htarget
        simp only [Registry.apply, and_self, if_true]
        exact ih.closed (fun _ _ h => (RecordOp.deregister.inj h).2.2) (RecordOp.register_ne_deregister p d) ip
    · rw [lookup_apply_other _ _ htarget]
      refine ih.other (fun ip heq => ?_) (fun ip heq => ?_)
      · exact htarget (heq ▸ rfl)
      · exact htarget (heq ▸ rfl)

/-! ## No empty maps -/

/-- No project is without deployments, and no deployment without addresses. -/
structure Compact (s : DnsRecordStore IpAddr) : Prop where
  projects : ∀ project, s.entries.lookup project ≠ some ∅
  deployments : ∀ project projectMap, s.entries.lookup project = some projectMap →
    ∀ deployment, projectMap.lookup deployment ≠ some []

/-- A project's map that is as it should be. -/
def Filled (projectMap : Finmap fun _ : String => List IpAddr) : Prop :=
  projectMap ≠ ∅ ∧ ∀ deployment, projectMap.lookup deployment ≠ some []

omit [DecidableEq IpAddr] in
theorem compact_iff (s : DnsRecordStore IpAddr) :
    s.Compact ↔ ∀ project projectMap, s.entries.lookup project = some projectMap → Filled projectMap := by
  constructor
  · intro h project projectMap hlookup
    refine ⟨?_, h.deployments project projectMap hlookup⟩
    rintro rfl
    exact h.projects project hlookup
  · intro h
    exact ⟨fun project hlookup => (h project ∅ hlookup).1 rfl,
      fun project projectMap hlookup => (h project projectMap hlookup).2⟩

omit [DecidableEq IpAddr] in
theorem insert_ne_empty (m : Finmap fun _ : String => List IpAddr) (d : String) (ips : List IpAddr) :
    m.insert d ips ≠ ∅ := by
  intro h
  have hlookup := m.lookup_insert (a := d) (b := ips)
  rw [h, Finmap.lookup_empty] at hlookup
  cases hlookup

omit [DecidableEq IpAddr] in
theorem lookup_insert_ne_nil {m : Finmap fun _ : String => List IpAddr} {deployment : String}
    {ips : List IpAddr} (hm : ∀ d, m.lookup d ≠ some []) (hips : ips ≠ []) (d : String) :
    (m.insert deployment ips).lookup d ≠ some [] := by
  by_cases hd : d = deployment
  · subst hd
    rw [Finmap.lookup_insert]
    exact fun h => hips (Option.some.inj h)
  · rw [Finmap.lookup_insert_of_ne _ hd]
    exact hm d

omit [DecidableEq IpAddr] in
/-- A store stays compact when one project's map is filled in. -/
theorem Compact.insert {s : DnsRecordStore IpAddr} (h : s.Compact) (project : String)
    {projectMap : Finmap fun _ : String => List IpAddr} (hmap : Filled projectMap) :
    Compact ⟨s.entries.insert project projectMap⟩ := by
  refine (compact_iff _).mpr fun p m hlookup => ?_
  simp only at hlookup
  by_cases hp : p = project
  · subst hp
    rw [Finmap.lookup_insert] at hlookup
    exact Option.some.inj hlookup ▸ hmap
  · rw [Finmap.lookup_insert_of_ne _ hp] at hlookup
    exact (compact_iff s).mp h p m hlookup

omit [DecidableEq IpAddr] in
theorem Compact.erase {s : DnsRecordStore IpAddr} (h : s.Compact) (project : String) :
    Compact ⟨s.entries.erase project⟩ := by
  refine (compact_iff _).mpr fun p m hlookup => ?_
  simp only at hlookup
  by_cases hp : p = project
  · subst hp
    rw [Finmap.lookup_erase] at hlookup
    cases hlookup
  · rw [Finmap.lookup_erase_ne hp] at hlookup
    exact (compact_iff s).mp h p m hlookup

theorem Compact.register {s : DnsRecordStore IpAddr} (h : s.Compact) (project deployment : String)
    (ip : IpAddr) : (s.register project deployment ip).Compact := by
  refine h.insert project ⟨insert_ne_empty _ _ _, lookup_insert_ne_nil (fun d => ?_) ?_⟩
  · cases hlookup : s.entries.lookup project with
    | none =>
      rw [Option.getD_none, Finmap.lookup_empty]
      exact (Option.some_ne_none []).symm
    | some projectMap => exact h.deployments project projectMap hlookup d
  · split
    · next hmem => exact List.ne_nil_of_mem hmem
    · exact List.append_ne_nil_of_right_ne_nil _ (List.cons_ne_nil _ _)

theorem lookup_retainOthers_ne_nil {projectMap : Finmap fun _ : String => List IpAddr}
    (h : ∀ d, projectMap.lookup d ≠ some []) (deployment : String) (ip : IpAddr) (d : String) :
    (retainOthers projectMap deployment ip).lookup d ≠ some [] := by
  unfold retainOthers
  split
  · exact h d
  · dsimp only
    split
    · by_cases hd : d = deployment
      · subst hd
        rw [Finmap.lookup_erase]
        exact (Option.some_ne_none []).symm
      · rw [Finmap.lookup_erase_ne hd]
        exact h d
    · next hne => exact lookup_insert_ne_nil h hne d

theorem Compact.deregister {s : DnsRecordStore IpAddr} (h : s.Compact) (project deployment : String)
    (ip : IpAddr) : (s.deregister project deployment ip).Compact := by
  unfold DnsRecordStore.deregister
  split
  · exact h
  · next projectMap hlookup =>
    dsimp only
    split
    · exact h.erase project
    · next hne =>
      exact h.insert project
        ⟨hne, lookup_retainOthers_ne_nil (h.deployments project projectMap hlookup) deployment ip⟩

/-- Every run of calls leaves the store compact. -/
theorem compact_after (ops : List (RecordOp IpAddr)) : (after ops).Compact := by
  induction ops using List.reverseRecOn with
  | nil =>
    refine (compact_iff _).mpr fun project projectMap hlookup => ?_
    rw [after, List.foldl_nil, new, Finmap.lookup_empty] at hlookup
    cases hlookup
  | append_singleton ops op ih =>
    rw [after_concat]
    cases op with
    | register project deployment ip => exact ih.register project deployment ip
    | deregister project deployment ip => exact ih.deregister project deployment ip

/-- After any sequence of calls: what is looked up of a deployment are the
addresses whose registration is open, each once, by when it began; a replica
is the address at its place; nothing in the store is empty; and one more call
changes what is looked up of its own deployment only. -/
theorem record_store_meets_model (ops : List (RecordOp IpAddr)) :
    (∀ p d, Listed (RecordOp.register p d) (.deregister p d) ops ((after ops).lookup p d)) ∧
    (∀ p d i, (after ops).lookupReplica p d i = ((after ops).lookup p d)[i]?) ∧
    (after ops).Compact ∧
    ∀ (op : RecordOp IpAddr) (p d : String), (p, d) ≠ op.target →
      ((after ops).apply op).lookup p d = (after ops).lookup p d :=
  ⟨lookup_listed ops, fun p d i => (after ops).lookupReplica_eq p d i, compact_after ops,
    fun op _ _ h => (after ops).lookup_apply_other op h⟩

/-- An address that is registered again after it was taken out stands behind
one that was registered in between. -/
theorem record_store_meets_model_reopened :
    let ops : List (RecordOp Network.Ipv4Addr) :=
      [.register "app" "web" ⟨10, 0, 0, 1⟩, .register "app" "web" ⟨10, 0, 0, 2⟩,
        .deregister "app" "web" ⟨10, 0, 0, 1⟩, .register "app" "web" ⟨10, 0, 0, 1⟩]
    (after ops).lookup "app" "web" = [⟨10, 0, 0, 2⟩, ⟨10, 0, 0, 1⟩] ∧
      ((after ops).apply (.register "app" "api" ⟨10, 0, 0, 3⟩)).lookup "app" "web" =
        (after ops).lookup "app" "web" :=
  ⟨by decide, (record_store_meets_model _).2.2.2 _ "app" "web" (by decide)⟩

end DnsRecordStore

end Nexad.Dns
