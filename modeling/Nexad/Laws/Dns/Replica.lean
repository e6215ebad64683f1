import Nexad.Laws.Dns.Isolation

/-!
# The names of replicas

`<deployment>-<i>.<project>.internal` names the address that stands at place
`i` of the deployment's list. Registering appends to the list and deregistering
closes the gap. So a replica keeps its name exactly as long as none that stands
before it is deregistered (`replica_name_stable_iff`).
-/

namespace Nexad.Dns

/-- The host label of a replica. -/
def replicaLabel (deployment : String) (i : Nat) : String := s!"{deployment}-{i}"

/-- The name of a replica. -/
def replicaName (project deployment : String) (i : Nat) : String :=
  s!"{replicaLabel deployment i}.{project}.internal"

section Places

variable {α : Type} [DecidableEq α]

/-- What stands at a place still does after another element is taken out
exactly if that one did not stand before it. -/
theorem getElem?_filter_ne_iff {l : List α} (hnodup : l.Nodup) {i : Nat} {a b : α}
    (hi : l[i]? = some a) (hne : b ≠ a) :
    (l.filter (· ≠ b))[i]? = some a ↔ b ∉ l.take i := by
  obtain ⟨hlt, hget⟩ := List.getElem?_eq_some_iff.mp hi
  have hlen : (l.take i).length = i := List.length_take_of_le hlt.le
  have hsplit : l = l.take i ++ a :: l.drop (i + 1) := by
    rw [← hget, ← List.drop_eq_getElem_cons hlt, List.take_append_drop]
  have hfilter : l.filter (· ≠ b) =
      (l.take i).filter (· ≠ b) ++ a :: (l.drop (i + 1)).filter (· ≠ b) := by
    conv_lhs => rw [hsplit]
    rw [List.filter_append, List.filter_cons_of_pos (by simpa using hne.symm)]
  have hafter : a ∉ l.drop (i + 1) := by
    rw [hsplit] at hnodup
    exact (List.nodup_cons.mp (List.nodup_append.mp hnodup).2.1).1
  rw [hfilter]
  constructor
  · intro hstays hb
    -- the part before has become shorter
    have hshort : ((l.take i).filter (· ≠ b)).length < (l.take i).length :=
      List.length_filter_lt_length_iff_exists.mpr ⟨b, hb, by simp⟩
    rw [hlen] at hshort
    rw [List.getElem?_append_right hshort.le, List.getElem?_cons,
      if_neg (by omega)] at hstays
    exact hafter (List.mem_filter.mp (List.mem_of_getElem? hstays)).1
  · intro hb
    have hsame : (l.take i).filter (· ≠ b) = l.take i :=
      List.filter_eq_self.mpr fun c hc => by simpa using fun h : c = b => hb (h ▸ hc)
    rw [hsame, List.getElem?_append_right (by omega), hlen, Nat.sub_self, List.getElem?_cons_zero]

end Places

variable {IpAddr : Type} [DecidableEq IpAddr]

namespace DnsRecordStore

/-- The name of a replica resolves to an address, which stands at its place. -/
def NamesReplica (s : DnsRecordStore IpAddr) (project deployment : String) (i : Nat) (a : IpAddr) :
    Prop :=
  s.resolve (replicaName project deployment i) = some [a] ∧
    s.resolveReplica project.toList (replicaLabel deployment i).toList = some a

omit [DecidableEq IpAddr] in
/-- The replica reading of a replica's label. -/
theorem resolveReplica_label (s : DnsRecordStore IpAddr) (project deployment : String) (i : Nat) :
    s.resolveReplica project.toList (replicaLabel deployment i).toList =
      if i < 2 ^ 64 then (s.lookup project deployment)[i]? else none := by
  have hlabel : (replicaLabel deployment i).toList = deployment.toList ++ '-' :: Nat.toDigits 10 i := by
    simp [replicaLabel, String.toList_append, toString, Nat.toList_repr]
  have hdash : '-' ∉ Nat.toDigits 10 i := by
    intro hmem
    have hdigit := List.all_eq_true.mp (Text.toDigits_all_isDigit i) '-' hmem
    cases hdigit
  rw [resolveReplica, hlabel, Text.rsplitOnce_eq_some_iff.mpr ⟨rfl, hdash⟩]
  simp only [Option.bind_eq_bind, Option.bind_some, Text.parseUnsigned_toDigits_eq,
    String.ofList_toList]
  split
  · rw [Option.bind_some, lookupReplica_eq]
  · rfl

omit [DecidableEq IpAddr] in
/-- A replica's name that resolves has no dots but the two between its labels. -/
theorem no_dots_of_resolve {s : DnsRecordStore IpAddr} {project deployment : String} {i : Nat}
    {ips : List IpAddr} (h : s.resolve (replicaName project deployment i) = some ips) :
    '.' ∉ project.toList ∧ '.' ∉ (replicaLabel deployment i).toList := by
  have hlist : (replicaName project deployment i).toList =
      (replicaLabel deployment i).toList ++ '.' :: project.toList ++ ".internal".toList := by
    simp [replicaName, String.toList_append, toString]
  have htrim : Text.trimEndMatches '.' (replicaName project deployment i).toList =
      (replicaName project deployment i).toList := by
    rw [hlist]
    exact trimEndMatches_internal _
  unfold resolve at h
  rw [htrim] at h
  split at h
  · next host project' zone hparts =>
    split at h
    · cases h
    · next hzone =>
      obtain ⟨hname, hhost, hproject⟩ := Text.splitN_eq_three hparts
      rw [not_not] at hzone
      have hcut : host ++ '.' :: project' =
          (replicaLabel deployment i).toList ++ '.' :: project.toList := by
        have hname' : host ++ '.' :: project' ++ ".internal".toList =
            (replicaLabel deployment i).toList ++ '.' :: project.toList ++ ".internal".toList := by
          rw [← hlist, hname, hzone]
          simp
        exact List.append_cancel_right hname'
      -- one dot on the left, so none more on the right
      have hcount := congrArg (List.count '.') hcut
      rw [List.count_append, List.count_append, List.count_cons_self, List.count_cons_self,
        List.count_eq_zero.mpr hhost, List.count_eq_zero.mpr hproject] at hcount
      constructor
      · refine List.count_eq_zero.mp ?_
        omega
      · refine List.count_eq_zero.mp ?_
        omega
  · cases h

omit [DecidableEq IpAddr] in
/-- A replica's name resolves to what stands at its place, if it can be read. -/
theorem namesReplica_iff (s : DnsRecordStore IpAddr) {project deployment : String} {i : Nat}
    {a : IpAddr} : s.NamesReplica project deployment i a ↔
      '.' ∉ project.toList ∧ '.' ∉ (replicaLabel deployment i).toList ∧ i < 2 ^ 64 ∧
        (s.lookup project deployment)[i]? = some a := by
  constructor
  · rintro ⟨hresolve, hreplica⟩
    obtain ⟨hproject, hlabel⟩ := no_dots_of_resolve hresolve
    rw [resolveReplica_label] at hreplica
    split at hreplica
    · next hi => exact ⟨hproject, hlabel, hi, hreplica⟩
    · cases hreplica
  · rintro ⟨hproject, hlabel, hi, hget⟩
    have hreplica : s.resolveReplica project.toList (replicaLabel deployment i).toList = some a := by
      rw [resolveReplica_label, if_pos hi, hget]
    refine ⟨?_, hreplica⟩
    rw [replicaName, s.resolve_query hproject hlabel, hreplica]
    rfl

/-- No deployment has an address twice. -/
theorem nodup_lookup_after (ops : List (RecordOp IpAddr)) (project deployment : String) :
    ((after ops).lookup project deployment).Nodup := by
  induction ops using List.reverseRecOn with
  | nil => exact List.nodup_nil
  | append_singleton ops op ih =>
    rw [after, List.foldl_append, List.foldl_cons, List.foldl_nil, lookup_apply]
    change ((after ops).lookup project deployment).Nodup at ih
    cases op with
    | register p d ip =>
      simp only [Registry.apply]
      split
      · split
        · exact ih
        · next hnew => exact List.nodup_append.mpr ⟨ih, List.nodup_singleton ip, by
            intro x hx y hy
            rw [List.mem_singleton.mp hy]
            exact fun h => hnew (h ▸ hx)⟩
      · exact ih
    | deregister p d ip =>
      simp only [Registry.apply]
      split
      · exact ih.filter _
      · exact ih

/-- One call keeps what stands at a place unless it takes out something before it. -/
theorem getElem?_apply_iff (ops : List (RecordOp IpAddr)) (op : RecordOp IpAddr)
    {project deployment : String} {i : Nat} {a : IpAddr}
    (hi : ((after ops).lookup project deployment)[i]? = some a)
    (hstays : a ∈ (after (ops ++ [op])).lookup project deployment) :
    ((after (ops ++ [op])).lookup project deployment)[i]? = some a ↔
      ∀ b, op = .deregister project deployment b →
        b ∉ ((after ops).lookup project deployment).take i := by
  rw [after_concat, lookup_apply] at hstays ⊢
  cases op with
  | register p d ip =>
    refine iff_of_true ?_ fun b h => by cases h
    simp only [Registry.apply]
    split
    · split
      · exact hi
      · rw [List.getElem?_append_left (List.getElem?_eq_some_iff.mp hi).1, hi]
    · exact hi
  | deregister p d ip =>
    by_cases hsame : project = p ∧ deployment = d
    · obtain ⟨rfl, rfl⟩ := hsame
      simp only [Registry.apply, and_self, if_true, RecordOp.deregister.injEq, true_and,
        forall_eq'] at hstays ⊢
      have hne : ip ≠ a := by
        rintro rfl
        simp at hstays
      exact getElem?_filter_ne_iff (nodup_lookup_after ops project deployment) hi hne
    · simp only [Registry.apply, if_neg hsame]
      refine iff_of_true hi fun b h => ?_
      cases h
      exact absurd ⟨rfl, rfl⟩ hsame

/-- A replica's name that resolves to an address goes on doing so, while the
address is registered, if and only if no address that stands before it is
deregistered. -/
theorem replica_name_stable_iff {ops later : List (RecordOp IpAddr)} {project deployment : String}
    {i : Nat} {a : IpAddr} (hnames : (after ops).NamesReplica project deployment i a)
    (hstays : ∀ pre, pre <+: later → a ∈ (after (ops ++ pre)).lookup project deployment) :
    (∀ pre, pre <+: later → (after (ops ++ pre)).NamesReplica project deployment i a) ↔
      ∀ pre b, pre ++ [.deregister project deployment b] <+: later →
        b ∉ ((after (ops ++ pre)).lookup project deployment).take i := by
  obtain ⟨hproject, hlabel, hlt, hget⟩ := (namesReplica_iff _).mp hnames
  simp only [namesReplica_iff, hproject, hlabel, hlt, not_false_eq_true, true_and]
  constructor
  · intro hplace pre b hpre
    have hnow := hplace pre ((List.prefix_append pre _).trans hpre)
    have hnext := hplace _ hpre
    have hthere := hstays _ hpre
    rw [← List.append_assoc] at hnext hthere
    exact (getElem?_apply_iff (ops ++ pre) _ hnow hthere).mp hnext b rfl
  · intro hbefore pre
    induction pre using List.reverseRecOn with
    | nil =>
      intro _
      rw [List.append_nil]
      exact hget
    | append_singleton pre op ih =>
      intro hpre
      have hnow := ih ((List.prefix_append pre [op]).trans hpre)
      have hthere := hstays _ hpre
      rw [← List.append_assoc] at hthere ⊢
      refine (getElem?_apply_iff (ops ++ pre) op hnow hthere).mpr fun b hop => ?_
      subst hop
      exact hbefore pre b hpre

/-- Three replicas of `api`. -/
def threeReplicas : List (RecordOp Network.Ipv4Addr) :=
  [.register "shop" "api" ⟨10, 0, 0, 1⟩, .register "shop" "api" ⟨10, 0, 0, 2⟩,
    .register "shop" "api" ⟨10, 0, 0, 3⟩]

private theorem threeReplicas_names :
    (after threeReplicas).NamesReplica "shop" "api" 1 ⟨10, 0, 0, 2⟩ :=
  (namesReplica_iff _).mpr ⟨by decide, by decide, by decide, by decide⟩

/-- The second stays when the third goes. -/
theorem replica_name_stable_api : (after (threeReplicas ++
    [.deregister "shop" "api" ⟨10, 0, 0, 3⟩])).resolve "api-1.shop.internal" =
      some [⟨10, 0, 0, 2⟩] := by
  have hstays : ∀ pre, pre <+: [RecordOp.deregister "shop" "api" (⟨10, 0, 0, 3⟩ : Network.Ipv4Addr)] →
      ⟨10, 0, 0, 2⟩ ∈ (after (threeReplicas ++ pre)).lookup "shop" "api" := by
    intro pre hpre
    rcases List.prefix_cons_iff.mp hpre with rfl | ⟨rest, rfl, hrest⟩
    · decide
    · rw [List.prefix_nil.mp hrest]
      decide
  refine ((replica_name_stable_iff threeReplicas_names hstays).mpr ?_ _ List.prefix_rfl).1
  intro pre b hpre
  rcases List.prefix_cons_iff.mp hpre with hnil | ⟨rest, hcons, -⟩
  · exact absurd hnil (by simp)
  · cases pre with
    | nil =>
      cases hcons
      decide
    | cons op pre =>
      have hlength := hpre.length_le
      simp at hlength

/-- When the first goes, the name of the second resolves to the third. -/
theorem replica_name_moves :
    (after threeReplicas).NamesReplica "shop" "api" 1 ⟨10, 0, 0, 2⟩ ∧
    ⟨10, 0, 0, 2⟩ ∈ (after (threeReplicas ++ [.deregister "shop" "api" ⟨10, 0, 0, 1⟩])).lookup
      "shop" "api" ∧
    (after (threeReplicas ++ [.deregister "shop" "api" ⟨10, 0, 0, 1⟩])).resolve
      (replicaName "shop" "api" 1) = some [⟨10, 0, 0, 3⟩] :=
  ⟨threeReplicas_names, by decide, by decide⟩

end DnsRecordStore

end Nexad.Dns
