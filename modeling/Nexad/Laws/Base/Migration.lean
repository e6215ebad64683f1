import Nexad.Base.Migration
import Nexad.Laws.Base.Relational

/-!
# Copying a table

Rows that meet the constraints of a table, among themselves and with the rows
it has, go in one after the other, and what goes in is what was copied.
-/

namespace Relational

open Results

set_option linter.unusedSectionVars false

variable {T C : Type} [DecidableEq T] [DecidableEq C]

private theorem lookup_map_self (columns : List C) (r : Row C) (c : C) :
    (columns.map fun c => (c, r c)).lookup c = if c ∈ columns then some (r c) else none := by
  induction columns with
  | nil => rfl
  | cons c' columns ih =>
    rw [List.map_cons, List.lookup_cons, ih]
    by_cases hc : c = c'
    · subst hc
      simp
    · simp [hc, beq_false_of_ne hc]

/-- A row is its own values under the columns it may have. -/
theorem Row.ofList_self {columns : List C} {r : Row C} (h : ∀ c, c ∉ columns → r c = .null) :
    Row.ofList (columns.zip (columns.map r)) = r := by
  have hzip : columns.zip (columns.map r) = columns.map fun c => (c, r c) := by
    have hmap := List.zip_map' (f := id) (g := r) (l := columns)
    rwa [List.map_id] at hmap
  funext c
  rw [Row.ofList, Row.assign, hzip, lookup_map_self]
  by_cases hc : c ∈ columns
  · rw [if_pos hc, Option.getD_some]
  · rw [if_neg hc, Option.getD_none, h c hc]

namespace Database

/-- Copying rows into a table whose columns are listed in their order. -/
theorem insertAll_eq_ok {enforce : Bool} {into : T} {db : Database T C} {tbl : Table T C}
    {rs : List (Row C)} (ht : db into = some tbl)
    (hwithin : ∀ r ∈ rs, ∀ c, c ∉ tbl.schema.columns → r c = .null)
    (hfilled : ∀ r ∈ rs, tbl.schema.Filled r)
    (hdistinct : (tbl.rows ++ rs).Pairwise fun r r' => ¬ tbl.schema.Conflict r r')
    (hparents : ∀ fk ∈ tbl.schema.foreignKeys, fk.parent ≠ into ∧ ∀ r ∈ rs, db.HasParent fk r) :
    db.insertAll enforce into tbl.schema.columns rs = .ok (db.setRows into tbl (tbl.rows ++ rs)) := by
  induction rs generalizing db tbl with
  | nil =>
    rw [insertAll, List.append_nil, setRows_same ht]
  | cons r rs ih =>
    have hself := Row.ofList_self (hwithin r List.mem_cons_self)
    have hcovers : tbl.schema.Covers
        ((tbl.schema.columns.zip (tbl.schema.columns.map r)).map Prod.fst) := by
      intro c hc
      obtain ⟨e, he, rfl⟩ := List.mem_map.mp hc
      exact (List.of_mem_zip he).1
    obtain ⟨-, -, hapart⟩ := List.pairwise_append.mp hdistinct
    have hfirst : db.insert enforce into (tbl.schema.columns.zip (tbl.schema.columns.map r)) =
        .ok (db.setRows into tbl (tbl.rows ++ [r])) := by
      have hinsert := @insert_eq_ok _ _ _ _ enforce _ _ _ _ ht hcovers
      rw [hself] at hinsert
      exact hinsert (hfilled r List.mem_cons_self)
        (fun r' hr' => hapart r' hr' r List.mem_cons_self)
        (fun fk hfk => ⟨(hparents fk hfk).1, (hparents fk hfk).2 r List.mem_cons_self⟩)
    have hrest := @ih (db.setRows into tbl (tbl.rows ++ [r])) { tbl with rows := tbl.rows ++ [r] }
      (setRows_self _ _ _ _) (fun r hr => hwithin r (List.mem_cons_of_mem _ hr))
      (fun r hr => hfilled r (List.mem_cons_of_mem _ hr))
      (by simpa only [List.append_assoc, List.singleton_append] using hdistinct) ?_
    · simp only [insertAll, ht, ne_eq, not_true_eq_false, if_false, hfirst, hrest,
        List.append_assoc, List.singleton_append]
      unfold setRows
      rw [Function.update_idem]
    · intro fk hfk
      obtain ⟨hne, hall⟩ := hparents fk hfk
      refine ⟨hne, fun r hr => (hall r (List.mem_cons_of_mem _ hr)).mono fun r' hr' _ _ => .inl ?_⟩
      rw [rows_setRows_of_ne _ _ _ hne]
      exact hr'

end Database

end Relational
