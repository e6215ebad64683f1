import Mathlib.Data.List.Pairwise
import Nexad.State.MemoryRouteStore

/-!
# The allocations of subnets in memory

The vector keeps what the table `subnet_allocations` declares: one entry for a
node and a project, and one for a subnet. Each call says what it does to the
entries, whatever was called before (`subnet_table`).
-/

namespace Nexad.State

open Relational

variable {s : InMemoryRouteStore} {a b : SubnetAllocation} {n p : String}

theorem SubnetAllocation.isFor_iff : a.isFor n p = true ↔ a.nodeId = n ∧ a.project = p := by
  simp [isFor]

/-- An entry stands in the way of an allocation: of its node and project, or of
its subnet. -/
def SubnetAllocation.Clashes (a b : SubnetAllocation) : Prop :=
  a.nodeId = b.nodeId ∧ a.project = b.project ∨ a.subnet = b.subnet

namespace InMemoryRouteStore

/-! ## The calls -/

/-- An allocation goes well when nothing stands in its way, and adds its entry;
otherwise nothing changes. -/
theorem allocateSubnet_cases (s : InMemoryRouteStore) (a : SubnetAllocation) :
    (∀ e ∈ s.subnets, ¬ e.Clashes a) ∧ s.allocateSubnet a = (.ok (), ⟨s.subnets ++ [a]⟩) ∨
      (∃ e ∈ s.subnets, e.Clashes a) ∧ ∃ text, s.allocateSubnet a = (.error (.network text), s) := by
  unfold allocateSubnet
  split
  · next hpair =>
    obtain ⟨e, he, hfor⟩ := List.any_eq_true.mp hpair
    exact .inr ⟨⟨e, he, .inl (SubnetAllocation.isFor_iff.mp hfor)⟩, _, rfl⟩
  · next hpair =>
    split
    · next htaken =>
      obtain ⟨e, he, hsubnet⟩ := List.any_eq_true.mp htaken
      exact .inr ⟨⟨e, he, .inr (of_decide_eq_true hsubnet)⟩, _, rfl⟩
    · next htaken =>
      refine .inl ⟨fun e he hclash => ?_, rfl⟩
      rcases hclash with hfor | hsubnet
      · exact hpair (List.any_eq_true.mpr ⟨e, he, SubnetAllocation.isFor_iff.mpr hfor⟩)
      · exact htaken (List.any_eq_true.mpr ⟨e, he, decide_eq_true hsubnet⟩)

theorem allocateSubnet_ok_iff :
    (s.allocateSubnet a).1 = .ok () ↔ ∀ e ∈ s.subnets, ¬ e.Clashes a := by
  rcases allocateSubnet_cases s a with ⟨hfree, hok⟩ | ⟨⟨e, he, hclash⟩, text, herror⟩
  · rw [hok]
    exact iff_of_true rfl hfree
  · rw [herror]
    exact iff_of_false (fun h => by cases h) fun hfree => hfree e he hclash

theorem mem_of_getNodeSubnet (h : s.getNodeSubnet n p = some a) :
    a ∈ s.subnets ∧ a.nodeId = n ∧ a.project = p := by
  unfold getNodeSubnet at h
  have hfor := List.find?_some h
  exact ⟨List.mem_of_find?_eq_some h, SubnetAllocation.isFor_iff.mp hfor⟩

theorem mem_deallocateSubnet : a ∈ (s.deallocateSubnet n p).2.subnets ↔
    a ∈ s.subnets ∧ ¬ (a.nodeId = n ∧ a.project = p) := by
  rw [deallocateSubnet, List.mem_filter, ← SubnetAllocation.isFor_iff, Bool.not_eq_true',
    Bool.not_eq_true]

theorem deallocateSubnet_true_iff : (s.deallocateSubnet n p).1 = true ↔
    ∃ a ∈ s.subnets, a.nodeId = n ∧ a.project = p := by
  rw [deallocateSubnet, decide_eq_true_iff, List.length_filter_lt_length_iff_exists]
  simp only [Bool.not_eq_true', Bool.not_eq_false, SubnetAllocation.isFor_iff]

/-! ## Runs -/

/-- No two entries stand in each other's way. -/
def Distinct (s : InMemoryRouteStore) : Prop := s.subnets.Pairwise fun a b => ¬ a.Clashes b

theorem Distinct.run (h : s.Distinct) (op : SubnetOp) : (op.run s).Distinct := by
  cases op with
  | deallocate n p => exact h.sublist List.filter_sublist
  | allocate a =>
    show (s.allocateSubnet a).2.Distinct
    rcases allocateSubnet_cases s a with ⟨hfree, hok⟩ | ⟨-, text, herror⟩
    · rw [hok]
      refine List.pairwise_append.mpr ⟨h, List.pairwise_singleton _ _, fun e he e' he' => ?_⟩
      rw [List.mem_singleton.mp he']
      exact hfree e he
    · rw [herror]
      exact h

theorem distinct_after (ops : List SubnetOp) : (after ops).Distinct := by
  have hall : ∀ s : InMemoryRouteStore, s.Distinct → (ops.foldl SubnetOp.run s).Distinct := by
    induction ops with
    | nil => exact fun _ h => h
    | cons op ops ih => exact fun s h => ih _ (h.run op)
  exact hall _ List.Pairwise.nil

/-- Each entry is the only one of its node and project, and of its subnet. -/
theorem Distinct.eq (h : s.Distinct) (ha : a ∈ s.subnets) (hb : b ∈ s.subnets) (hclash : a.Clashes b) :
    a = b := by
  by_contra hne
  have hsymmetric : Std.Symm fun a b : SubnetAllocation => ¬ a.Clashes b :=
    ⟨fun a b hapart hclash => hapart (hclash.imp (fun h => ⟨h.1.symm, h.2.symm⟩) Eq.symm)⟩
  exact List.Pairwise.forall h ha hb hne hclash

/-- The store is a table of allocations with two keys. -/
structure SubnetTable (s : InMemoryRouteStore) : Prop where
  pairs : s.subnets.Pairwise fun a b => ¬ (a.nodeId = b.nodeId ∧ a.project = b.project)
  subnets : s.subnets.Pairwise fun a b => a.subnet ≠ b.subnet
  get : ∀ n p a, s.getNodeSubnet n p = some a ↔ a ∈ s.subnets ∧ a.nodeId = n ∧ a.project = p
  allocated : ∀ a, (s.allocateSubnet a).1 = .ok () ↔
    (∀ e ∈ s.subnets, ¬ (e.nodeId = a.nodeId ∧ e.project = a.project)) ∧
      ∀ e ∈ s.subnets, e.subnet ≠ a.subnet
  added : ∀ a, (s.allocateSubnet a).1 = .ok () → (s.allocateSubnet a).2.subnets = s.subnets ++ [a]
  refused : ∀ a, (s.allocateSubnet a).1 ≠ .ok () → (s.allocateSubnet a).2 = s
  deallocated : ∀ n p, (s.deallocateSubnet n p).1 = true ↔
    ∃ a ∈ s.subnets, a.nodeId = n ∧ a.project = p
  removed : ∀ n p a, a ∈ (s.deallocateSubnet n p).2.subnets ↔
    a ∈ s.subnets ∧ ¬ (a.nodeId = n ∧ a.project = p)
  freed : ∀ n p, ∀ a ∈ s.subnets, a.nodeId = n → a.project = p → ∀ n' p',
    (∀ e ∈ (s.deallocateSubnet n p).2.subnets, ¬ (e.nodeId = n' ∧ e.project = p')) →
      ((s.deallocateSubnet n p).2.allocateSubnet ⟨n', p', a.subnet⟩).1 = .ok ()

end InMemoryRouteStore

open InMemoryRouteStore

/-- Whatever was called, the entries have two keys, and the calls read, add and
remove one entry by them. -/
theorem subnet_table (ops : List SubnetOp) : (after ops).SubnetTable := by
  have hdistinct := distinct_after ops
  generalize after ops = s at hdistinct
  have hfree : ∀ {s : InMemoryRouteStore} {a : SubnetAllocation}, (∀ e ∈ s.subnets, ¬ e.Clashes a) ↔
      (∀ e ∈ s.subnets, ¬ (e.nodeId = a.nodeId ∧ e.project = a.project)) ∧
        ∀ e ∈ s.subnets, e.subnet ≠ a.subnet := by
    intro s a
    simp only [SubnetAllocation.Clashes, not_or, forall_and, ne_eq]
  refine ⟨hdistinct.imp fun h => not_or.mp h |>.1, hdistinct.imp fun h => not_or.mp h |>.2,
    fun n p a => ?_, fun a => allocateSubnet_ok_iff.trans hfree, fun a hok => ?_, fun a herror => ?_,
    fun _ _ => deallocateSubnet_true_iff, fun _ _ _ => mem_deallocateSubnet,
    fun n p a ha hn hp n' p' hpair => ?_⟩
  · constructor
    · intro hget
      exact mem_of_getNodeSubnet hget
    · rintro ⟨ha, hfor⟩
      cases hget : s.getNodeSubnet n p with
      | none =>
        have hnone := List.find?_eq_none.mp hget a ha
        exact absurd (SubnetAllocation.isFor_iff.mpr hfor) hnone
      | some b =>
        obtain ⟨hb, hnode, hproject⟩ := mem_of_getNodeSubnet hget
        rw [hdistinct.eq hb ha (.inl ⟨hnode.trans hfor.1.symm, hproject.trans hfor.2.symm⟩)]
  · rcases allocateSubnet_cases s a with ⟨-, hok'⟩ | ⟨-, text, herror⟩
    · rw [hok']
    · rw [herror] at hok
      cases hok
  · rcases allocateSubnet_cases s a with ⟨-, hok⟩ | ⟨-, text, herror'⟩
    · rw [hok] at herror
      exact absurd rfl herror
    · rw [herror']
  · rw [allocateSubnet_ok_iff, hfree]
    refine ⟨hpair, fun e he hsubnet => ?_⟩
    obtain ⟨he, hother⟩ := mem_deallocateSubnet.mp he
    exact hother ((hdistinct.eq he ha (.inr hsubnet)) ▸ ⟨hn, hp⟩)

end Nexad.State
