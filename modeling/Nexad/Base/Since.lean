import Mathlib.Data.List.Nodup
import Mathlib.Order.Basic

/-!
# Open since when

Things open and close over a history of events, each perhaps many times. A
thing that is open at the end has been so since its first opening after its
last closing. `Listed` is the list of what is open, the longest open first,
and each kind of event changes that list in one way: an opening appends what
was not open, a closing takes out, and any other event changes nothing.
-/

namespace Openings

variable {ε α : Type}

/-- Open since the event at a place: it opens, nothing after it closes, and
what was opened before it was closed before it. -/
structure Since (opens closes : ε) (events : List ε) (i : Nat) : Prop where
  opened : events[i]? = some opens
  unclosed : ∀ j, i < j → events[j]? ≠ some closes
  first : ∀ j < i, events[j]? = some opens → ∃ k, j < k ∧ k < i ∧ events[k]? = some closes

/-- What is open at the end, in the order in which it was opened. -/
structure Listed (opens closes : α → ε) (events : List ε) (l : List α) : Prop where
  nodup : l.Nodup
  mem_iff : ∀ a, a ∈ l ↔ ∃ i, Since (opens a) (closes a) events i
  ordered : l.Pairwise fun a b => ∀ i j, Since (opens a) (closes a) events i →
    Since (opens b) (closes b) events j → i < j

section Since

variable {opens closes e : ε} {events : List ε} {i j : Nat}

theorem Since.lt_length (h : Since opens closes events i) : i < events.length :=
  (List.getElem?_eq_some_iff.mp h.opened).1

theorem getElem?_concat_of_lt (h : i < events.length) : (events ++ [e])[i]? = events[i]? :=
  List.getElem?_append_left h

/-- An event that is there is one of the old ones or the last. -/
theorem getElem?_concat_eq_some {e' : ε} (h : (events ++ [e])[i]? = some e') :
    events[i]? = some e' ∨ i = events.length ∧ e = e' := by
  rcases Nat.lt_or_ge i events.length with hlt | hge
  · exact .inl (getElem?_concat_of_lt hlt ▸ h)
  · rw [List.getElem?_append_right hge] at h
    obtain ⟨hlt, hget⟩ := List.getElem?_eq_some_iff.mp h
    simp only [List.length_singleton] at hlt
    have hi : i = events.length := by omega
    subst hi
    simp only [Nat.sub_self, List.getElem_singleton] at hget
    exact .inr ⟨rfl, hget⟩

/-- It stays open through an event that does not close it. -/
theorem Since.concat (h : Since opens closes events i) (he : e ≠ closes) :
    Since opens closes (events ++ [e]) i where
  opened := by
    rw [getElem?_concat_of_lt h.lt_length]
    exact h.opened
  unclosed := by
    intro j hj hclosed
    rcases getElem?_concat_eq_some hclosed with hold | ⟨-, hlast⟩
    · exact h.unclosed j hj hold
    · exact he hlast
  first := by
    intro j hj hopen
    have hlength := h.lt_length
    rw [getElem?_concat_of_lt (Nat.lt_trans hj hlength)] at hopen
    obtain ⟨k, hjk, hki, hclosed⟩ := h.first j hj hopen
    refine ⟨k, hjk, hki, ?_⟩
    rw [getElem?_concat_of_lt (Nat.lt_trans hki hlength)]
    exact hclosed

/-- It was open before the last event, or that event opened it. -/
theorem Since.of_concat (h : Since opens closes (events ++ [e]) i) :
    Since opens closes events i ∨
      (i = events.length ∧ e = opens ∧ ∀ j, ¬ Since opens closes events j) := by
  rcases getElem?_concat_eq_some h.opened with hold | ⟨rfl, rfl⟩
  · have hlength := (List.getElem?_eq_some_iff.mp hold).1
    refine .inl ⟨hold, fun j hj hclosed => ?_, fun j hj hopen => ?_⟩
    · refine h.unclosed j hj ?_
      rw [getElem?_concat_of_lt (List.getElem?_eq_some_iff.mp hclosed).1]
      exact hclosed
    · rw [← getElem?_concat_of_lt (e := e) (Nat.lt_trans hj hlength)] at hopen
      obtain ⟨k, hjk, hki, hclosed⟩ := h.first j hj hopen
      rw [getElem?_concat_of_lt (Nat.lt_trans hki hlength)] at hclosed
      exact ⟨k, hjk, hki, hclosed⟩
  · refine .inr ⟨rfl, rfl, fun j hopen => ?_⟩
    have hopened := hopen.opened
    rw [← getElem?_concat_of_lt (e := e) hopen.lt_length] at hopened
    obtain ⟨k, hjk, hki, hclosed⟩ := h.first j hopen.lt_length hopened
    rw [getElem?_concat_of_lt hki] at hclosed
    exact hopen.unclosed k hjk hclosed

/-- What a closing ends is not open. -/
theorem not_since_closed (hapart : opens ≠ closes) : ¬ Since opens closes (events ++ [closes]) i := by
  intro h
  rcases Nat.lt_or_ge i events.length with hlt | hge
  · exact h.unclosed _ hlt List.getElem?_concat_length
  · rcases getElem?_concat_eq_some h.opened with hold | ⟨-, heq⟩
    · exact absurd (List.getElem?_eq_some_iff.mp hold).1 (Nat.not_lt.mpr hge)
    · exact hapart heq.symm

/-- What was opened and not closed after that is open since some event. -/
theorem exists_since (hapart : opens ≠ closes) (hopen : events[j]? = some opens)
    (hunclosed : ∀ k, j < k → events[k]? ≠ some closes) : ∃ i, Since opens closes events i := by
  -- the first opening that nothing closes
  induction j using Nat.strongRecOn with
  | ind j ih =>
    by_cases hfirst : ∀ j' < j, events[j']? = some opens →
        ∃ k, j' < k ∧ k < j ∧ events[k]? = some closes
    · exact ⟨j, hopen, hunclosed, hfirst⟩
    · push Not at hfirst
      obtain ⟨j', hj', hopen', hbetween⟩ := hfirst
      refine ih j' hj' hopen' fun k hk hclosed => ?_
      rcases Nat.lt_trichotomy k j with hlt | rfl | hgt
      · exact hbetween k hk hlt hclosed
      · exact hapart (Option.some.inj (hopen.symm.trans hclosed))
      · exact hunclosed k hgt hclosed

/-- An opening of what is not open opens it. -/
theorem since_opened (hapart : opens ≠ closes) (hclosed : ∀ j, ¬ Since opens closes events j) :
    Since opens closes (events ++ [opens]) events.length where
  opened := List.getElem?_concat_length
  unclosed := by
    intro j hj h
    rcases getElem?_concat_eq_some h with hold | ⟨rfl, -⟩
    · exact absurd (List.getElem?_eq_some_iff.mp hold).1 (Nat.not_lt.mpr (Nat.le_of_lt hj))
    · exact Nat.lt_irrefl _ hj
  first := by
    intro j hj hopen
    rw [getElem?_concat_of_lt hj] at hopen
    by_contra hnone
    push Not at hnone
    have hunclosed : ∀ k, j < k → events[k]? ≠ some closes := by
      intro k hk hclose
      have hlt := (List.getElem?_eq_some_iff.mp hclose).1
      refine hnone k hk hlt ?_
      rw [getElem?_concat_of_lt hlt]
      exact hclose
    obtain ⟨i, hi⟩ := exists_since hapart hopen hunclosed
    exact hclosed i hi

end Since

section Listed

variable {opens closes : α → ε} {events : List ε} {l : List α} {e : ε}

theorem Listed.nil : Listed opens closes [] [] where
  nodup := List.nodup_nil
  mem_iff a := by
    refine ⟨fun h => absurd h List.not_mem_nil, ?_⟩
    rintro ⟨i, hi⟩
    exact absurd hi.lt_length (Nat.not_lt_zero i)
  ordered := .nil

/-- An event that changes nothing of what is open since when. -/
theorem Listed.kept (h : Listed opens closes events l)
    (hkept : ∀ a i, Since (opens a) (closes a) (events ++ [e]) i ↔ Since (opens a) (closes a) events i) :
    Listed opens closes (events ++ [e]) l where
  nodup := h.nodup
  mem_iff a := by
    simp only [hkept]
    exact h.mem_iff a
  ordered := by
    simp only [hkept]
    exact h.ordered

/-- An event of something else. -/
theorem Listed.other (h : Listed opens closes events l) (hopens : ∀ a, e ≠ opens a)
    (hcloses : ∀ a, e ≠ closes a) : Listed opens closes (events ++ [e]) l := by
  refine h.kept fun a i => ⟨fun hsince => ?_, fun hsince => hsince.concat (hcloses a)⟩
  rcases hsince.of_concat with hold | ⟨-, heq, -⟩
  · exact hold
  · exact absurd heq (hopens a)

variable [DecidableEq α] (hopens : Function.Injective opens) (hcloses : Function.Injective closes)
  (hapart : ∀ a b, opens a ≠ closes b)

include hopens hapart in
/-- An opening appends what was not open. -/
theorem Listed.opened (h : Listed opens closes events l) (a : α) :
    Listed opens closes (events ++ [opens a]) (if a ∈ l then l else l ++ [a]) := by
  have hold : ∀ {b i}, Since (opens b) (closes b) events i →
      Since (opens b) (closes b) (events ++ [opens a]) i := fun hb => hb.concat (hapart a _)
  split
  · next hmem =>
    refine h.kept fun b i => ⟨fun hb => ?_, hold⟩
    rcases hb.of_concat with hb | ⟨-, heq, hnone⟩
    · exact hb
    · rw [← hopens heq] at hnone
      obtain ⟨j, hj⟩ := (h.mem_iff a).mp hmem
      exact absurd hj (hnone j)
  · next hmem =>
    have hnone : ∀ j, ¬ Since (opens a) (closes a) events j := fun j hj =>
      hmem ((h.mem_iff a).mpr ⟨j, hj⟩)
    have hnew := since_opened (hapart a a) hnone
    -- the others are open since when they were, `a` since the end
    have hback : ∀ {b i}, Since (opens b) (closes b) (events ++ [opens a]) i →
        Since (opens b) (closes b) events i ∨ (b = a ∧ i = events.length) := by
      intro b i hb
      rcases hb.of_concat with hb | ⟨hi, heq, -⟩
      · exact .inl hb
      · exact .inr ⟨(hopens heq).symm, hi⟩
    refine ⟨?_, fun b => ?_, ?_⟩
    · exact List.nodup_append_comm.mp (List.nodup_cons.mpr ⟨hmem, h.nodup⟩)
    · rw [List.mem_append, List.mem_singleton, h.mem_iff]
      constructor
      · rintro (⟨i, hi⟩ | rfl)
        · exact ⟨i, hold hi⟩
        · exact ⟨_, hnew⟩
      · rintro ⟨i, hi⟩
        rcases hback hi with hi | ⟨rfl, -⟩
        · exact .inl ⟨i, hi⟩
        · exact .inr rfl
    · refine List.pairwise_append.mpr ⟨?_, List.pairwise_singleton _ _, fun b hb c hc => ?_⟩
      · refine h.ordered.imp_of_mem fun {b c} hb hc hlt i j hi hj => ?_
        rcases hback hi with hi | ⟨rfl, -⟩
        · rcases hback hj with hj | ⟨rfl, -⟩
          · exact hlt i j hi hj
          · exact absurd hc hmem
        · exact absurd hb hmem
      · obtain rfl := List.mem_singleton.mp hc
        intro i j hi hj
        rcases hback hi with hi | ⟨rfl, -⟩
        · rcases hback hj with hj | ⟨-, rfl⟩
          · exact absurd hj (hnone j)
          · exact hi.lt_length
        · exact absurd hb hmem

include hcloses hapart in
/-- A closing takes out what it closes. -/
theorem Listed.closed (h : Listed opens closes events l) (a : α) :
    Listed opens closes (events ++ [closes a]) (l.filter (· ≠ a)) := by
  have hself : ∀ i, ¬ Since (opens a) (closes a) (events ++ [closes a]) i :=
    fun _ => not_since_closed (hapart a a)
  have hiff : ∀ {b i}, b ≠ a → (Since (opens b) (closes b) (events ++ [closes a]) i ↔
      Since (opens b) (closes b) events i) := by
    intro b i hb
    refine ⟨fun hsince => ?_, fun hsince => hsince.concat fun heq => hb (hcloses heq).symm⟩
    rcases hsince.of_concat with hold | ⟨-, heq, -⟩
    · exact hold
    · exact absurd heq.symm (hapart b a)
  refine ⟨h.nodup.filter _, fun b => ?_, ?_⟩
  · simp only [List.mem_filter, decide_eq_true_eq]
    constructor
    · rintro ⟨hb, hne⟩
      obtain ⟨i, hi⟩ := (h.mem_iff b).mp hb
      exact ⟨i, (hiff hne).mpr hi⟩
    · rintro ⟨i, hi⟩
      have hne : b ≠ a := by
        rintro rfl
        exact hself i hi
      exact ⟨(h.mem_iff b).mpr ⟨i, (hiff hne).mp hi⟩, hne⟩
  · refine (h.ordered.sublist List.filter_sublist).imp_of_mem fun {b c} hb hc hlt i j hi hj => ?_
    have hb' : b ≠ a := of_decide_eq_true (List.mem_filter.mp hb).2
    have hc' : c ≠ a := of_decide_eq_true (List.mem_filter.mp hc).2
    exact hlt i j ((hiff hb').mp hi) ((hiff hc').mp hj)

end Listed

end Openings
