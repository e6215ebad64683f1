import Nexad.Laws.Base.Upsert

/-!
# Statements on tables that reference one another

An insertion is refused for a value that is taken, and then for a parent that
is missing (`insert_of_keys`). An update of columns outside of all keys is
never refused (`update_outside_keys`). A query reads the rows of a list of
values as that list, in the order of a column (`select_mapped`).
-/

namespace Relational

theorem Value.text_ne_null (s : String) : Value.text s ≠ .null := Value.noConfusion

theorem Value.integer_ne_null (n : Int) : Value.integer n ≠ .null := Value.noConfusion

/-- What permutes the values of a function are its values on a permutation. -/
theorem exists_map_of_perm {α β : Type} {f : α → β} {l : List α} {l' : List β}
    (h : l'.Perm (l.map f)) : ∃ m : List α, l' = m.map f ∧ m.Perm l := by
  have hvalues : List.Forall₂ (fun b a => b = f a) (l.map f) l :=
    List.forall₂_map_left_iff.mpr (List.forall₂_same.mpr fun _ _ => rfl)
  obtain ⟨m, hm, hperm⟩ := List.perm_comp_forall₂ h hvalues
  exact ⟨m, List.forall₂_eq_eq_eq ▸ List.forall₂_map_right_iff.mpr hm, hperm⟩

variable {T C : Type} [DecidableEq T] [DecidableEq C]

namespace Database

variable {db : Database T C} {t : T} {tbl : Table T C}

/-- An insertion of values for its columns, none of them a null where none may be. -/
theorem insert_of_keys {values : List (C × Value)} (ht : db t = some tbl)
    (hcovers : tbl.schema.Covers (values.map Prod.fst)) (hfilled : tbl.schema.Filled (Row.ofList values))
    (hself : ∀ fk ∈ tbl.schema.foreignKeys, fk.parent ≠ t) :
    db.insert true t values =
      if ∃ r ∈ tbl.rows, tbl.schema.Conflict r (Row.ofList values) then .error .unique
      else if ∃ fk ∈ tbl.schema.foreignKeys, ¬ db.HasParent fk (Row.ofList values) then
        .error .foreignKey
      else .ok (db.setRows t tbl (tbl.rows ++ [Row.ofList values])) := by
  have hparents : (True ∧ ∃ fk ∈ tbl.schema.foreignKeys,
      ¬ (db.setRows t tbl (tbl.rows ++ [Row.ofList values])).HasParent fk (Row.ofList values)) ↔
      ∃ fk ∈ tbl.schema.foreignKeys, ¬ db.HasParent fk (Row.ofList values) := by
    rw [true_and]
    refine exists_congr fun fk => and_congr_right fun hfk => ?_
    rw [HasParent, HasParent, rows_setRows_of_ne _ _ _ (hself fk hfk)]
  unfold insert
  simp only [ht]
  rw [if_neg (not_not.mpr hcovers), if_neg (not_not.mpr hfilled)]
  split
  · rfl
  · by_cases h : ∃ fk ∈ tbl.schema.foreignKeys, ¬ db.HasParent fk (Row.ofList values)
    · rw [if_pos (hparents.mpr h), if_pos h]
    · rw [if_neg (fun h' => h (hparents.mp h')), if_neg h]

variable [Fintype T]

/-- The columns that a statement sets are outside of all keys of a table and of
all keys that reference it. -/
structure OutsideKeys (db : Database T C) (t : T) (schema : Schema T C) (sets : List (C × Value)) :
    Prop where
  covers : schema.Covers (sets.map Prod.fst)
  unique : ∀ key ∈ schema.unique, ∀ c ∈ key, c ∉ sets.map Prod.fst
  own : ∀ fk ∈ schema.foreignKeys, fk.column ∉ sets.map Prod.fst
  referenced : ∀ t', ∀ fk ∈ db.foreignKeys t', fk.parent = t →
    t' ≠ t ∧ fk.parentColumn ∉ sets.map Prod.fst

/-- Such a statement, with no null where none may be, is carried out. -/
theorem update_outside_keys {p : Row C → Bool} {sets : List (C × Value)} (hdb : db.Integrity)
    (ht : db t = some tbl) (houtside : OutsideKeys db t tbl.schema sets)
    (hfilled : ∀ r, tbl.schema.Filled r → tbl.schema.Filled (r.assign sets)) :
    db.update true t p sets =
      .ok (db.setRows t tbl (assigned tbl p sets), (tbl.rows.filter p).length) := by
  have hsound := hdb.sound t tbl ht
  have hkept : ∀ {r : Row C} {c : C}, c ∉ sets.map Prod.fst →
      (if p r then r.assign sets else r) c = r c := by
    intro r c hc
    split
    · exact Row.assign_of_notMem _ _ hc
    · rfl
  have hrows : (tbl.rows.map fun r => (p r, if p r then r.assign sets else r)).map Prod.snd =
      assigned tbl p sets := by
    rw [List.map_map]
    rfl
  have hself : ∀ fk ∈ tbl.schema.foreignKeys, fk.parent ≠ t := by
    intro fk hfk hparent
    rw [← foreignKeys_of_some ht] at hfk
    exact (houtside.referenced t fk hfk hparent).1 rfl
  unfold update
  simp only [ht]
  rw [if_neg (not_not.mpr houtside.covers), if_neg, if_neg, hrows, if_neg, if_neg]
  · -- a child still finds the row it referenced
    rintro ⟨-, hbroken⟩
    refine hbroken fun t' fk hfk hparent c hc hreferred => .inr ?_
    obtain ⟨r, hr, -, hrefers⟩ := hreferred
    obtain ⟨-, hcolumn⟩ := houtside.referenced t' fk hfk hparent
    refine ⟨if p r then r.assign sets else r, ?_, ?_⟩
    · rw [hparent, rows_setRows_self]
      exact List.mem_map_of_mem hr
    · rw [hkept hcolumn]
      exact hrefers.2
  · -- a row still finds its parent, in another table
    rintro ⟨-, hbroken⟩
    refine hbroken fun e he hp fk hfk => ?_
    obtain ⟨r, hr, rfl⟩ := List.mem_map.mp he
    have hold : db.HasParent fk r :=
      hdb.references t fk (foreignKeys_of_some ht ▸ hfk) r (rows_of_some ht ▸ hr)
    rw [HasParent, rows_setRows_of_ne _ _ _ (hself fk hfk)]
    dsimp only
    rw [hkept (houtside.own fk hfk)]
    exact hold
  · refine not_not.mpr (List.pairwise_map.mpr (hsound.distinct.imp ?_))
    rintro r r' hdistinct - ⟨key, hkey, hagrees⟩
    refine hdistinct ⟨key, hkey, fun c hc => ?_⟩
    have hsame := hagrees c hc
    dsimp only at hsame
    rwa [hkept (houtside.unique key hkey c hc), hkept (houtside.unique key hkey c hc)] at hsame
  · refine not_not.mpr fun e he hp => ?_
    obtain ⟨r, hr, rfl⟩ := List.mem_map.mp he
    dsimp only at hp ⊢
    rw [if_pos hp]
    exact hfilled r (hsound.filled r hr)

omit [Fintype T]

/-- A query of a table whose rows are those of some values: all that are meant, in
the order of the column. -/
theorem select_mapped {α : Type} {columns : List C} {l : List α} {rowOf : α → Row C}
    (ht : db t = some tbl) (hcovers : tbl.schema.Covers columns) (hrows : db.rows t = l.map rowOf)
    {p : Row C → Bool} {q : α → Bool} (hp : ∀ a ∈ l, p (rowOf a) = q a) (scan : Scan C) {c : C}
    {le : α → α → Bool} (hle : ∀ a b, (rowOf a c).le (rowOf b c) = le a b)
    (trans : ∀ a b c, le a b → le b c → le a c) (total : ∀ a b, le a b || le b a) :
    ∃ listed : List α, listed.Perm (l.filter q) ∧ listed.Pairwise (fun a b => le a b) ∧
      db.select columns t p (some (c, scan)) = .ok (listed.map fun a c =>
        if c ∈ columns then some (rowOf a c) else none) := by
  have hfilter : (db.rows t).filter p = (l.filter q).map rowOf := by
    rw [hrows, List.filter_map]
    exact congrArg (List.map rowOf) (List.filter_congr hp)
  have hscan : (scan.order ((db.rows t).filter p)).Perm ((l.filter q).map rowOf) := by
    rw [← hfilter]
    exact scan.perm _
  obtain ⟨found, hfound, hperm⟩ := exists_map_of_perm hscan
  have hsorted : scan.sorted c ((db.rows t).filter p) = (found.mergeSort le).map rowOf := by
    rw [Scan.sorted, hfound]
    exact (List.map_mergeSort (f := rowOf) fun a _ b _ => (hle a b).symm).symm
  refine ⟨found.mergeSort le, (List.mergeSort_perm _ _).trans hperm, List.pairwise_mergeSort trans total _, ?_⟩
  unfold select
  simp only [ht, if_neg (not_not.mpr hcovers), Option.elim_some]
  rw [← rows_of_some ht, hsorted, List.map_map]
  rfl

end Database

end Relational
