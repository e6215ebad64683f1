import Nexad.Network.Subnet

/-!
# What the allocator hands out

The byte that numbers the calls is one of 256, and only the first 255 of the
numbers it yields are followed by the zero that means exhaustion; the number
after that zero is 1 again. So the allocator keeps its promise exactly as
long as it is called at most 256 times.

`Numbered` is the invariant: the `i`-th call since the start, counted from
zero, was answered `start + i` modulo 256, and no thread was answered twice.
-/

namespace Nexad.Network

open Interleave

/-- A history of the allocator's callers. -/
abbrev CounterHistory := History counterSig SubnetAllocator Unit

/-- A pool of the allocator's callers. -/
abbrev CounterPool := Pool counterSig SubnetAllocator Unit (Option String)

/-- The calls made, newest first: the thread and the byte it was answered. -/
def grants : CounterHistory → List (Nat × UInt8)
  | [] => []
  | (_, .call k _ _ third) :: l => (k, third) :: grants l
  | _ :: l => grants l

/-- Thread `k` has returned `r`. -/
def Returned (p : CounterPool) (k : Nat) (r : Option String) : Prop :=
  p.thread k = some ((), .ret r)

/-- What overlay networking needs of a run from `a` to `p` with history `l`:
no subnet twice, every subnet a /24 of the base network other than the
master's, and nothing more after an exhausted answer. -/
structure HandedOutOnce (a : SubnetAllocator) (l : CounterHistory) (p : CounterPool) : Prop where
  distinct : ∀ j k s, Returned p j (some s) → Returned p k (some s) → j = k
  inside : ∀ k s, Returned p k (some s) → (∃ third, s = a.subnet third) ∧ s ≠ a.masterSubnet
  exhausted : ∀ l₁ l₂ q, l = l₂ ++ l₁ → Run a.machine (.idle a) l₁ q → Run a.machine q l₂ p →
    (∃ k, Returned q k none) → ∀ j r, q.thread j = none → Returned p j r → r = none

/-! ## Subnet texts -/

theorem SubnetAllocator.subnet_injective (a : SubnetAllocator) {s t : UInt8}
    (h : a.subnet s = a.subnet t) : s = t := by
  have hlist := congrArg String.toList h
  simp only [subnet, String.toList_append, List.append_assoc, List.append_cancel_left_eq,
    List.append_cancel_right_eq, Nat.toString_eq_repr, Nat.toList_repr] at hlist
  exact UInt8.toNat_inj.mp (Text.toDigits_injective hlist)

/-- The master's subnet is the zeroth one, which `allocate` skips. -/
theorem SubnetAllocator.masterSubnet_eq (a : SubnetAllocator) : a.masterSubnet = a.subnet 0 := by
  apply String.toList_injective
  simp only [masterSubnet, subnet, String.toList_append, List.append_assoc,
    List.append_cancel_left_eq]
  rfl

/-! ## The numbering of the calls -/

/-- The calls are numbered from `start` on, and no thread occurs twice. -/
def Numbered (start : UInt8) : List (Nat × UInt8) → Prop
  | [] => True
  | (k, third) :: g =>
    third = start + UInt8.ofNat g.length ∧ (∀ e ∈ g, e.1 ≠ k) ∧ Numbered start g

private theorem ofNat_add_inj {start : UInt8} {i j : Nat} (hi : i < 256) (hj : j < 256)
    (h : start + UInt8.ofNat i = start + UInt8.ofNat j) : i = j := by
  have hij := congrArg UInt8.toNat (UInt8.add_right_inj start |>.mp h)
  simp only [UInt8.toNat_ofNat'] at hij
  omega

/-- Every call has a number, and every number below the count is some call's. -/
theorem Numbered.number {start : UInt8} {g : List (Nat × UInt8)} (h : Numbered start g)
    {e : Nat × UInt8} (he : e ∈ g) : ∃ i < g.length, e.2 = start + UInt8.ofNat i := by
  induction g with
  | nil => exact absurd he List.not_mem_nil
  | cons x g ih =>
    obtain ⟨hx, -, hg⟩ := h
    rcases List.mem_cons.mp he with rfl | he
    · exact ⟨g.length, Nat.lt_succ_self _, hx⟩
    · obtain ⟨i, hi, hei⟩ := ih hg he
      exact ⟨i, Nat.lt_succ_of_lt hi, hei⟩

theorem Numbered.call {start : UInt8} {g : List (Nat × UInt8)} (h : Numbered start g) {i : Nat}
    (hi : i < g.length) : ∃ k, (k, start + UInt8.ofNat i) ∈ g := by
  induction g with
  | nil => exact absurd hi (Nat.not_lt_zero _)
  | cons x g ih =>
    obtain ⟨hx, -, hg⟩ := h
    by_cases hlast : i = g.length
    · refine ⟨x.1, List.mem_cons.mpr (.inl ?_)⟩
      rw [hlast, ← hx]
    · obtain ⟨k, hk⟩ := ih hg (by simp only [List.length_cons] at hi; omega)
      exact ⟨k, List.mem_cons_of_mem _ hk⟩

/-- Among 256 calls no byte is answered twice. -/
theorem Numbered.unique {start : UInt8} {g : List (Nat × UInt8)} (h : Numbered start g)
    (hlen : g.length ≤ 256) {e e' : Nat × UInt8} (he : e ∈ g) (he' : e' ∈ g) (heq : e.2 = e'.2) :
    e = e' := by
  induction g with
  | nil => exact absurd he List.not_mem_nil
  | cons x g ih =>
    obtain ⟨hx, -, hg⟩ := h
    simp only [List.length_cons] at hlen
    -- the newest call has the number `g.length`, the others have smaller ones
    have hnew : ∀ y ∈ g, x.2 ≠ y.2 := by
      intro y hy hxy
      obtain ⟨i, hi, hyi⟩ := hg.number hy
      have : i = g.length := by
        have hbyte : start + UInt8.ofNat i = start + UInt8.ofNat g.length := by
          rw [← hyi, ← hxy, hx]
        exact ofNat_add_inj (by omega) (by omega) hbyte
      omega
    rcases List.mem_cons.mp he with hhead | hin
    · rcases List.mem_cons.mp he' with hhead' | hin'
      · rw [hhead, hhead']
      · exact absurd (hhead ▸ heq) (hnew e' hin')
    · rcases List.mem_cons.mp he' with hhead' | hin'
      · exact absurd (hhead' ▸ heq.symm) (hnew e hin)
      · exact ih hg (by omega) hin hin'

/-- The 257th call repeats the first one's byte in another thread. -/
theorem Numbered.repeated {start : UInt8} {g : List (Nat × UInt8)} (h : Numbered start g)
    (hlen : 256 < g.length) : ∃ j k, j ≠ k ∧ (j, start) ∈ g ∧ (k, start) ∈ g := by
  induction g with
  | nil => exact absurd hlen (Nat.not_lt_zero _)
  | cons x g ih =>
    obtain ⟨hx, hfresh, hg⟩ := h
    by_cases hlast : g.length = 256
    · obtain ⟨k, hk⟩ := hg.call (i := 0) (by omega)
      have hzero : start + UInt8.ofNat 0 = start := UInt8.add_zero start
      rw [hzero] at hk
      refine ⟨k, x.1, hfresh _ hk, List.mem_cons_of_mem _ hk, List.mem_cons.mpr (.inl ?_)⟩
      have hwrap : x.2 = start := by
        rw [hx, hlast]
        exact UInt8.add_zero start
      rw [← hwrap]
    · obtain ⟨j, k, hjk, hj, hk⟩ := ih hg (by simp only [List.length_cons] at hlen; omega)
      exact ⟨j, k, hjk, List.mem_cons_of_mem _ hj, List.mem_cons_of_mem _ hk⟩

/-! ## Runs -/

/-- What `allocate` returns for the byte it was answered. -/
def SubnetAllocator.result (a : SubnetAllocator) (third : UInt8) : Option String :=
  if third = 0 then none else some (a.subnet third)

/-- Where a run has got to: the counter is one on for each call, the calls are
numbered, and a thread that has called has returned what its byte says. -/
structure Counted (a : SubnetAllocator) (l : CounterHistory) (p : CounterPool) : Prop where
  counter : p.state.nextThirdOctet = a.nextThirdOctet + UInt8.ofNat (grants l).length
  numbered : Numbered a.nextThirdOctet (grants l)
  waiting : ∀ k q, p.thread k = some ((), q) → q = a.allocate ∨ ∃ r, q = .ret r
  returned : ∀ k r, Returned p k r ↔ ∃ third, (k, third) ∈ grants l ∧ r = a.result third

/-- A thread that is not done has made no call. -/
theorem Counted.fresh {a : SubnetAllocator} {l : CounterHistory} {p : CounterPool}
    (h : Counted a l p) {k : Nat} (hk : ∀ r, ¬ Returned p k r) : ∀ e ∈ grants l, e.1 ≠ k := by
  rintro ⟨k', third⟩ he rfl
  exact hk _ ((h.returned _ _).mpr ⟨third, he, rfl⟩)

private theorem Counted.arrive {a : SubnetAllocator} {l : CounterHistory} {p : CounterPool}
    (h : Counted a l p) {k : Nat} (free : p.thread k = none) :
    Counted a ((p.state, .arrive k ()) :: l) (p.set p.state k ((), a.allocate)) := by
  refine ⟨h.counter, h.numbered, fun j q hj => ?_, fun j r => ?_⟩
  · by_cases hjk : j = k
    · subst hjk
      rw [Pool.set_thread_self] at hj
      cases hj
      exact .inl rfl
    · rw [Pool.set_thread_ne _ _ _ hjk] at hj
      exact h.waiting j q hj
  · show (p.set p.state k ((), a.allocate)).thread j = _ ↔ _
    by_cases hjk : j = k
    · subst hjk
      have hfresh := h.fresh (k := j) fun r hr => by
        rw [Returned, free] at hr
        cases hr
      rw [Pool.set_thread_self]
      constructor
      · intro hr
        cases hr
      · rintro ⟨third, he, -⟩
        exact absurd rfl (hfresh _ he)
    · rw [Pool.set_thread_ne _ _ _ hjk]
      exact h.returned j r

private theorem Counted.call {a : SubnetAllocator} {l : CounterHistory} {p : CounterPool}
    (h : Counted a l p) {k : Nat} (hk : p.thread k = some ((), a.allocate)) :
    Counted a ((p.state, .call k () (.fetchAdd 1) p.state.nextThirdOctet) :: l)
      (p.set { p.state with nextThirdOctet := p.state.nextThirdOctet + 1 } k
        ((), .ret (a.result p.state.nextThirdOctet))) := by
  have hfresh := h.fresh (k := k) fun r hr => by
    rw [Returned, hk] at hr
    cases hr
  refine ⟨?_, ⟨h.counter, hfresh, h.numbered⟩, fun j q hj => ?_, fun j r => ?_⟩
  · show p.state.nextThirdOctet + 1 = _
    rw [h.counter, UInt8.add_assoc, grants, List.length_cons, UInt8.ofNat_add]
    rfl
  · by_cases hjk : j = k
    · subst hjk
      rw [Pool.set_thread_self] at hj
      cases hj
      exact .inr ⟨_, rfl⟩
    · rw [Pool.set_thread_ne _ _ _ hjk] at hj
      exact h.waiting j q hj
  · show Pool.thread _ j = _ ↔ _
    by_cases hjk : j = k
    · subst hjk
      rw [Pool.set_thread_self]
      constructor
      · intro hr
        cases hr
        exact ⟨_, List.mem_cons_self, rfl⟩
      · rintro ⟨third, he, rfl⟩
        rcases List.mem_cons.mp he with he | he
        · cases he
          rfl
        · exact absurd rfl (hfresh _ he)
    · rw [Pool.set_thread_ne _ _ _ hjk]
      refine (h.returned j r).trans ⟨?_, ?_⟩
      · rintro ⟨third, he, hr⟩
        exact ⟨third, List.mem_cons_of_mem _ he, hr⟩
      · rintro ⟨third, he, hr⟩
        rcases List.mem_cons.mp he with he | he
        · cases he
          exact absurd rfl hjk
        · exact ⟨third, he, hr⟩

/-- Every run of the allocator's callers is counted. -/
theorem Counted.run {a : SubnetAllocator} {l : CounterHistory} {p : CounterPool}
    (h : Run a.machine (.idle a) l p) : Counted a l p := by
  refine Run.induct (I := Counted a) ?_ (fun l p e p' _ hc hs => ?_) h
  · refine ⟨(UInt8.add_zero _).symm, trivial, fun k q hq => ?_, fun k r => ?_⟩
    · cases hq
    constructor
    · intro hr
      cases hr
    · rintro ⟨_, he, -⟩
      exact absurd he List.not_mem_nil
  · cases hs with
    | arrive free _ => exact hc.arrive free
    | @call k req op cont ans s' at_call answered =>
      rcases hc.waiting k _ at_call with hq | ⟨r, hr⟩
      · rw [hq] at at_call
        cases hq
        cases answered
        exact hc.call at_call
      · cases hr
    | env moves => exact absurd moves not_false

/-- Callers that come one after the other, thread `i` as the `i`-th. -/
theorem SubnetAllocator.serial (a : SubnetAllocator) (n : Nat) :
    ∃ l p, Run a.machine (.idle a) l p ∧ (grants l).length = n ∧
      (∀ i < n, (i, a.nextThirdOctet + UInt8.ofNat i) ∈ grants l) ∧
      ∀ k, n ≤ k → p.thread k = none := by
  induction n with
  | zero => exact ⟨[], .idle a, .nil, rfl, fun _ hi => absurd hi (Nat.not_lt_zero _), fun _ _ => rfl⟩
  | succ n ih =>
    obtain ⟨l, p, hrun, hlen, hcalls, hidle⟩ := ih
    have harrive := hrun.cons (@Step.arrive _ _ _ _ a.machine p n () (hidle n (Nat.le_refl n)) trivial)
    have hcall := harrive.cons (.call (Pool.set_thread_self _ _ _ _) (.fetchAdd 1))
    refine ⟨_, _, hcall, congrArg (· + 1) hlen, fun i hi => ?_, fun k hk => ?_⟩
    · show (i, _) ∈ (n, p.state.nextThirdOctet) :: grants l
      by_cases hin : i = n
      · rw [(Counted.run hrun).counter, hlen, hin]
        exact List.mem_cons_self
      · exact List.mem_cons_of_mem _ (hcalls i (by omega))
    · rw [Pool.set_thread_ne _ _ _ (by omega), Pool.set_thread_ne _ _ _ (by omega)]
      exact hidle k (by omega)

/-! ## The promise, and how long it holds -/

private theorem result_eq_some {a : SubnetAllocator} {third : UInt8} {s : String}
    (h : some s = a.result third) : third ≠ 0 ∧ s = a.subnet third := by
  unfold SubnetAllocator.result at h
  split at h
  · cases h
  · next hne =>
    cases h
    exact ⟨hne, rfl⟩

/-- The 256th byte is the zero; a run that has seen it has made 256 calls. -/
private theorem Counted.spent {a : SubnetAllocator} {l : CounterHistory} {p : CounterPool}
    (hc : Counted a l p) (hstart : a.nextThirdOctet = 1) {k : Nat} (hk : (k, 0) ∈ grants l) :
    256 ≤ (grants l).length := by
  obtain ⟨i, hi, hzero⟩ := hc.numbered.number hk
  rw [hstart] at hzero
  have hnat := congrArg UInt8.toNat hzero
  simp only [UInt8.toNat_add, UInt8.toNat_ofNat', UInt8.toNat_ofNat] at hnat
  omega

theorem grants_append (l₂ l₁ : CounterHistory) : grants (l₂ ++ l₁) = grants l₂ ++ grants l₁ := by
  induction l₂ with
  | nil => rfl
  | cons e l₂ ih =>
    obtain ⟨s, e⟩ := e
    cases e <;> simp [grants, ih]

private theorem handedOutOnce_of_le {a : SubnetAllocator} (hstart : a.nextThirdOctet = 1)
    {l : CounterHistory} {p : CounterPool} (h : Run a.machine (.idle a) l p)
    (hlen : (grants l).length ≤ 256) : HandedOutOnce a l p := by
  have hc := Counted.run h
  refine ⟨fun j k s hj hk => ?_, fun k s hk => ?_, ?_⟩
  · obtain ⟨t, ht, hts⟩ := (hc.returned j _).mp hj
    obtain ⟨u, hu, hus⟩ := (hc.returned k _).mp hk
    obtain ⟨-, rfl⟩ := result_eq_some hts
    have htu := a.subnet_injective (result_eq_some hus).2
    exact congrArg Prod.fst (hc.numbered.unique hlen ht hu htu)
  · obtain ⟨third, -, hs⟩ := (hc.returned k _).mp hk
    obtain ⟨hne, rfl⟩ := result_eq_some hs
    refine ⟨⟨third, rfl⟩, fun hm => hne ?_⟩
    rw [a.masterSubnet_eq] at hm
    exact a.subnet_injective hm
  · rintro l₁ l₂ q rfl h₁ - ⟨k, hk⟩ j r hj hr
    have hq := Counted.run h₁
    -- a thread idle in `q` that has returned in `p` called in between
    obtain ⟨third, hthird, -⟩ := (hc.returned j r).mp hr
    have hbefore : (j, third) ∉ grants l₁ := fun he =>
      hq.fresh (k := j) (fun r hr => by rw [Returned, hj] at hr; cases hr) _ he rfl
    obtain ⟨zero, hzero, hnone⟩ := (hq.returned k none).mp hk
    have hz : zero = 0 := by
      by_contra hne
      rw [SubnetAllocator.result, if_neg hne] at hnone
      cases hnone
    have hspent := hq.spent hstart (hz ▸ hzero)
    rw [grants_append, List.length_append] at hlen
    rw [grants_append, List.mem_append] at hthird
    rcases hthird with hafter | hafter
    · have := List.length_pos_of_mem hafter
      omega
    · exact absurd hafter hbefore

private theorem not_handedOutOnce_of_lt {a : SubnetAllocator} (hstart : a.nextThirdOctet = 1)
    {l : CounterHistory} {p : CounterPool} (h : Run a.machine (.idle a) l p)
    (hlen : 256 < (grants l).length) : ¬ HandedOutOnce a l p := by
  intro hsafe
  have hc := Counted.run h
  obtain ⟨j, k, hjk, hj, hk⟩ := hc.numbered.repeated hlen
  have hone : some (a.subnet 1) = a.result 1 := rfl
  rw [hstart] at hj hk
  exact hjk (hsafe.distinct j k _ ((hc.returned j _).mpr ⟨1, hj, hone⟩)
    ((hc.returned k _).mpr ⟨1, hk, hone⟩))

theorem SubnetAllocator.new_nextThirdOctet {cidr : String} {a : SubnetAllocator}
    (h : SubnetAllocator.new cidr = some a) : a.nextThirdOctet = 1 := by
  unfold SubnetAllocator.new at h
  split at h
  · split at h
    · cases h
    · split at h
      · cases h
      · obtain ⟨ip, -, rfl⟩ := Option.map_eq_some_iff.mp h
        rfl
  · cases h

/-- An allocator keeps its promise in a run exactly when the run makes at most
256 calls. -/
theorem SubnetAllocator.handedOutOnce_iff {cidr : String} {a : SubnetAllocator}
    (hnew : SubnetAllocator.new cidr = some a) {l : CounterHistory} {p : CounterPool}
    (h : Run a.machine (.idle a) l p) : HandedOutOnce a l p ↔ (grants l).length ≤ 256 := by
  have hstart := SubnetAllocator.new_nextThirdOctet hnew
  refine ⟨fun hsafe => ?_, handedOutOnce_of_le hstart h⟩
  by_contra hlen
  exact not_handedOutOnce_of_lt hstart h (by omega) hsafe

/-- Three calls are within the bound. -/
theorem SubnetAllocator.handedOutOnce_three : ∃ a l p,
    SubnetAllocator.new "172.20.0.0/16" = some a ∧ (grants l).length = 3 ∧
      HandedOutOnce a l p := by
  obtain ⟨l, p, hrun, hlen, -⟩ := SubnetAllocator.serial ⟨172, 20, 1⟩ 3
  have hnew : SubnetAllocator.new "172.20.0.0/16" = some ⟨172, 20, 1⟩ := by decide
  exact ⟨_, l, p, hnew, hlen, (SubnetAllocator.handedOutOnce_iff hnew hrun).mpr (by omega)⟩

/-- 257 callers one after the other: the first and the last get the same subnet. -/
theorem SubnetAllocator.subnet_handed_out_twice : ∃ a l p,
    SubnetAllocator.new "172.20.0.0/16" = some a ∧ Run a.machine (.idle a) l p ∧
      Returned p 0 (some "172.20.1.0/24") ∧ Returned p 256 (some "172.20.1.0/24") ∧
      ¬ HandedOutOnce a l p := by
  obtain ⟨l, p, hrun, hlen, hcalls, -⟩ := SubnetAllocator.serial ⟨172, 20, 1⟩ 257
  have hc := Counted.run hrun
  refine ⟨_, l, p, by decide, hrun, (hc.returned 0 _).mpr ⟨1, hcalls 0 (by omega), by decide⟩,
    (hc.returned 256 _).mpr ⟨1, hcalls 256 (by omega), by decide⟩, ?_⟩
  exact not_handedOutOnce_of_lt rfl hrun (by omega)

end Nexad.Network
