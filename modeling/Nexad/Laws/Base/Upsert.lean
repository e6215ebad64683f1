import Nexad.Laws.Base.Relational

/-!
# Rows by key

An upsert writes one row: the one that has its key, or a new one. So a query
by the key finds what was written (`first_upsert_self`), and every query that
the key decides and that does not select this row finds what it found before
(`first_upsert_of_apart`). A deletion by a condition leaves nothing that the
condition selects, and no other query notices.
-/

namespace Relational

open Results

-- the instances of tables are for the statements, not for every lemma on them
set_option linter.unusedSectionVars false

variable {T C : Type} [DecidableEq T] [DecidableEq C]

namespace Row

/-- The value of a column that an upsert sets. -/
theorem assign_of_mem (r row : Row C) {sets : List C} {c : C} (h : c ∈ sets) :
    r.assign (row.excluded sets) c = row c := by
  rw [assign, excluded, List.lookup_graph row h, Option.getD_some]

/-- The value of a column that it does not set. -/
theorem assign_of_unset (r row : Row C) {sets : List C} {c : C} (h : c ∉ sets) :
    r.assign (row.excluded sets) c = r c := by
  refine assign_of_notMem _ _ fun hmem => h ?_
  obtain ⟨e, he, rfl⟩ := List.mem_map.mp hmem
  obtain ⟨c', hc', rfl⟩ := List.mem_map.mp he
  exact hc'

theorem withKey_iff {row : Row C} {key : List C} {r : Row C} :
    row.withKey key r = true ↔ Row.Agrees key r row := decide_eq_true_iff

/-- Agreement is about the columns of the key. -/
theorem agrees_congr {key : List C} {r₁ r₂ r₁' r₂' : Row C} (h : ∀ c ∈ key, r₁ c = r₂ c)
    (h' : ∀ c ∈ key, r₁' c = r₂' c) : Agrees key r₁ r₁' ↔ Agrees key r₂ r₂' :=
  forall_congr' fun c => forall_congr' fun hc => by rw [h c hc, h' c hc]

end Row

namespace Database

/-- The first row of a table that a condition selects. -/
def first (db : Database T C) (t : T) (p : Row C → Bool) : Option (Row C) := (db.rows t).find? p

theorem first_eq_some {db : Database T C} {t : T} {p : Row C → Bool} {r : Row C}
    (h : db.first t p = some r) : r ∈ db.rows t ∧ p r = true :=
  ⟨List.mem_of_find?_eq_some h, List.find?_some h⟩

/-- The only row that a condition selects is the first. -/
theorem first_eq_some_of_only {db : Database T C} {t : T} {p : Row C → Bool} {r : Row C}
    (hr : r ∈ db.rows t) (hp : p r = true) (honly : ∀ r' ∈ db.rows t, p r' = true → r' = r) :
    db.first t p = some r := by
  cases hfound : db.first t p with
  | none => exact absurd hp (List.find?_eq_none.mp hfound r hr)
  | some r' =>
    obtain ⟨hr', hp'⟩ := first_eq_some hfound
    rw [honly r' hr' hp']

/-- A condition selects a row, or there is none that it selects. -/
theorem first_eq_none_iff {db : Database T C} {t : T} {p : Row C → Bool} :
    db.first t p = none ↔ ∀ r ∈ db.rows t, ¬ p r = true := List.find?_eq_none

variable [Fintype T]

/-! ## Statements on a table that references nothing -/

section NoKeys

variable {enforce : Bool} {db : Database T C} {t : T} {tbl : Table T C}

/-- An insertion of values for its columns. -/
theorem insert_of_no_keys {values : List (C × Value)} (ht : db t = some tbl)
    (hown : tbl.schema.foreignKeys = []) (hcovers : tbl.schema.Covers (values.map Prod.fst)) :
    db.insert enforce t values =
      if ¬ tbl.schema.Filled (Row.ofList values) then .error .notNull
      else if ∃ r ∈ tbl.rows, tbl.schema.Conflict r (Row.ofList values) then .error .unique
      else .ok (db.setRows t tbl (tbl.rows ++ [Row.ofList values])) := by
  have hparents : ¬ (enforce = true ∧ ∃ fk ∈ tbl.schema.foreignKeys,
      ¬ (db.setRows t tbl (tbl.rows ++ [Row.ofList values])).HasParent fk (Row.ofList values)) := by
    rintro ⟨-, fk, hfk, -⟩
    rw [hown] at hfk
    cases hfk
  unfold insert
  simp only [ht]
  rw [if_neg (not_not.mpr hcovers), if_neg hparents]

/-- An update of its columns, when it is not referenced by any row either. -/
theorem update_of_no_keys {p : Row C → Bool} {sets : List (C × Value)} (ht : db t = some tbl)
    (hown : tbl.schema.foreignKeys = []) (hcovers : tbl.schema.Covers (sets.map Prod.fst))
    (hchildren : ∀ t', ∀ fk ∈ db.foreignKeys t', fk.parent = t → t' ≠ t ∧ db.rows t' = []) :
    db.update enforce t p sets =
      if ¬ ∀ r ∈ tbl.rows, p r = true → tbl.schema.Filled (r.assign sets) then .error .notNull
      else if ¬ tbl.rows.Pairwise fun r r' => p r = true ∨ p r' = true → ¬ tbl.schema.Conflict
          (if p r then r.assign sets else r) (if p r' then r'.assign sets else r') then
        .error .unique
      else .ok (db.setRows t tbl (assigned tbl p sets), (tbl.rows.filter p).length) := by
  have hrows : (tbl.rows.map fun r => (p r, if p r then r.assign sets else r)).map Prod.snd =
      assigned tbl p sets := by
    rw [List.map_map]
    rfl
  have hfilled : (∀ e ∈ tbl.rows.map fun r => (p r, if p r then r.assign sets else r),
      e.1 = true → tbl.schema.Filled e.2) ↔
      ∀ r ∈ tbl.rows, p r = true → tbl.schema.Filled (r.assign sets) := by
    rw [List.forall_mem_map]
    refine forall₂_congr fun r _ => forall_congr' fun hp => ?_
    rw [if_pos (show p r = true from hp)]
  have hdistinct : tbl.schema.Apart (tbl.rows.map fun r => (p r, if p r then r.assign sets else r)) ↔
      tbl.rows.Pairwise fun r r' => p r = true ∨ p r' = true → ¬ tbl.schema.Conflict
        (if p r then r.assign sets else r) (if p r' then r'.assign sets else r') := List.pairwise_map
  have hparents : ¬ (enforce = true ∧ ¬ ∀ e ∈ tbl.rows.map fun r =>
      (p r, if p r then r.assign sets else r), e.1 = true → ∀ fk ∈ tbl.schema.foreignKeys,
        (db.setRows t tbl (assigned tbl p sets)).HasParent fk e.2) := by
    rintro ⟨-, hbroken⟩
    refine hbroken fun e _ _ fk hfk => ?_
    rw [hown] at hfk
    cases hfk
  have hreferences : ¬ (enforce = true ∧ ¬ ∀ t', ∀ fk ∈ db.foreignKeys t', fk.parent = t →
      ∀ c ∈ (db.setRows t tbl (assigned tbl p sets)).rows t',
        (∃ r ∈ tbl.rows, p r = true ∧ fk.Refers c r) →
          (db.setRows t tbl (assigned tbl p sets)).HasParent fk c) := by
    rintro ⟨-, hbroken⟩
    refine hbroken fun t' fk hfk hparent c hc => ?_
    obtain ⟨hne, hempty⟩ := hchildren t' fk hfk hparent
    rw [rows_setRows_of_ne _ _ _ hne, hempty] at hc
    cases hc
  unfold update
  simp only [ht]
  rw [if_neg (not_not.mpr hcovers), hrows, if_neg hparents, if_neg hreferences]
  by_cases hnull : ∀ r ∈ tbl.rows, p r = true → tbl.schema.Filled (r.assign sets)
  · rw [if_neg (not_not.mpr (hfilled.mpr hnull)), if_neg (not_not.mpr hnull)]
    by_cases hapart : tbl.schema.Apart (tbl.rows.map fun r => (p r, if p r then r.assign sets else r))
    · rw [if_neg (not_not.mpr hapart), if_neg (not_not.mpr (hdistinct.mp hapart))]
    · rw [if_pos hapart, if_pos (fun h => hapart (hdistinct.mpr h))]
  · rw [if_pos (fun h => hnull (hfilled.mp h)), if_pos hnull]

end NoKeys

/-! ## Upserts -/

section Upsert

variable {enforce : Bool} {db db' : Database T C} {t : T} {values : List (C × Value)}
  {target sets : List C}

/-- An upsert is an update of the row that has the key, or an insertion. -/
theorem upsert_cases (h : db.upsert enforce t values target sets = .ok db') :
    (∃ n, db.update enforce t ((Row.ofList values).withKey target)
      ((Row.ofList values).excluded sets) = .ok (db', n)) ∨
    db.insert enforce t values = .ok db' := by
  unfold upsert at h
  cases ht : db t with
  | none =>
    simp only [ht] at h
    cases h
  | some tbl =>
    simp only [ht, ite_error_eq_ok, not_not] at h
    obtain ⟨-, -, -, h⟩ := h
    split at h
    · split at h
      · cases h
      · next done n hupdate =>
        cases h
        exact .inl ⟨n, hupdate⟩
    · exact .inr h

/-- The rows after an upsert. -/
theorem upsert_ok (h : db.upsert enforce t values target sets = .ok db') :
    ∃ tbl, db t = some tbl ∧ (∀ t', (db' t').map Table.schema = (db t').map Table.schema) ∧
      (((∃ r ∈ tbl.rows, Row.Agrees target r (Row.ofList values)) ∧ db'.rows t =
        assigned tbl ((Row.ofList values).withKey target)
          ((Row.ofList values).excluded sets)) ∨
      ((∀ r ∈ tbl.rows, ¬ Row.Agrees target r (Row.ofList values)) ∧
        db'.rows t = tbl.rows ++ [Row.ofList values])) := by
  unfold upsert at h
  cases ht : db t with
  | none =>
    simp only [ht] at h
    cases h
  | some tbl =>
    simp only [ht, ite_error_eq_ok, not_not] at h
    obtain ⟨-, -, -, h⟩ := h
    refine ⟨tbl, rfl, ?_⟩
    split at h
    · next hrow =>
      split at h
      · cases h
      · next done n hupdate =>
        cases h
        obtain ⟨tbl', ht', hdb', -⟩ := update_ok hupdate
        obtain rfl : tbl = tbl' := Option.some.inj (ht.symm.trans ht')
        rw [hdb', rows_setRows_self]
        exact ⟨schema_setRows ht _, .inl ⟨hrow, rfl⟩⟩
    · next hnone =>
      obtain ⟨tbl', ht', hdb', -⟩ := insert_ok h
      obtain rfl : tbl = tbl' := Option.some.inj (ht.symm.trans ht')
      rw [hdb', rows_setRows_self]
      exact ⟨schema_setRows ht _, .inr ⟨fun r hr hagrees => hnone ⟨r, hr, hagrees⟩, rfl⟩⟩

/-- The other tables keep their rows. -/
theorem upsert_rows_of_ne {t' : T} (hne : t' ≠ t)
    (h : db.upsert enforce t values target sets = .ok db') : db'.rows t' = db.rows t' := by
  rcases upsert_cases h with ⟨n, hupdate⟩ | hinsert
  · obtain ⟨tbl, -, rfl, -⟩ := update_ok hupdate
    exact rows_setRows_of_ne _ _ _ hne
  · obtain ⟨tbl, -, rfl, -⟩ := insert_ok hinsert
    exact rows_setRows_of_ne _ _ _ hne

theorem upsert_integrity (hdb : db.Integrity) (h : db.upsert true t values target sets = .ok db') :
    db'.Integrity := by
  rcases upsert_cases h with ⟨n, hupdate⟩ | hinsert
  · exact update_integrity hdb hupdate
  · exact insert_integrity hdb hinsert

/-- An upsert adds a row that its table may hold or turns rows into such rows. -/
theorem Every.upsert {P : T → Row C → Prop} (hdb : db.Every P) (hnew : P t (Row.ofList values))
    (hset : ∀ r ∈ db.rows t, P t r → P t (r.assign ((Row.ofList values).excluded sets)))
    (h : db.upsert enforce t values target sets = .ok db') : db'.Every P := by
  rcases upsert_cases h with ⟨n, hupdate⟩ | hinsert
  · exact hdb.update (fun r hr _ => hset r hr) hupdate
  · exact hdb.insert hnew hinsert

/-- What holds of the rows there are, of the new row and of every row that the
new one may overwrite, holds of the rows after an upsert. -/
theorem forall_rows_upsert {P : Row C → Prop}
    (h : db.upsert enforce t values target sets = .ok db') (hrows : ∀ r ∈ db.rows t, P r)
    (hnew : P (Row.ofList values))
    (hset : ∀ r ∈ db.rows t, P (r.assign ((Row.ofList values).excluded sets))) :
    ∀ r ∈ db'.rows t, P r := by
  have hevery : db.Every fun t' r => t' = t → P r := by
    rintro t' r hr rfl
    exact hrows r hr
  have hafter := hevery.upsert (fun _ => hnew) (fun r hr _ _ => hset r hr) h
  exact fun r hr => hafter t r hr rfl

/-- The key of an upsert finds what it wrote. -/
theorem first_upsert_self (hfull : Row.Agrees target (Row.ofList values) (Row.ofList values))
    (hapart : ∀ c ∈ target, c ∉ sets) (h : db.upsert enforce t values target sets = .ok db') :
    ∃ r, db'.first t ((Row.ofList values).withKey target) = some r ∧
      ∀ c ∈ sets, r c = Row.ofList values c := by
  obtain ⟨tbl, -, -, ⟨⟨r, hr, hagrees⟩, hdb'⟩ | ⟨hnone, hdb'⟩⟩ := upsert_ok h
  · -- the first row that had the key still has it, and what was set
    have hsame : (Row.ofList values).withKey target ∘ (fun r =>
        if (Row.ofList values).withKey target r then
          r.assign ((Row.ofList values).excluded sets) else r) =
        (Row.ofList values).withKey target := by
      funext r
      rw [Function.comp_apply]
      split
      · next hkey =>
        rw [hkey, Row.withKey_iff, Row.agrees_congr
          (fun c hc => Row.assign_of_unset _ _ (hapart c hc)) fun _ _ => rfl]
        exact Row.withKey_iff.mp hkey
      · rfl
    obtain ⟨found, hfound⟩ := Option.isSome_iff_exists.mp
      (List.find?_isSome.mpr ⟨r, hr, Row.withKey_iff.mpr hagrees⟩)
    refine ⟨found.assign ((Row.ofList values).excluded sets), ?_, fun c hc =>
      Row.assign_of_mem _ _ hc⟩
    rw [first, hdb', assigned, List.find?_map, hsame, hfound, Option.map_some,
      if_pos (List.find?_some hfound)]
  · refine ⟨Row.ofList values, ?_, fun c _ => rfl⟩
    have hbefore : tbl.rows.find? ((Row.ofList values).withKey target) = none :=
      List.find?_eq_none.mpr fun r hr => mt Row.withKey_iff.mp (hnone r hr)
    rw [first, hdb', List.find?_append, hbefore, Option.none_or, List.find?_singleton,
      if_pos (Row.withKey_iff.mpr hfull)]

/-- A query that does not select the row of an upsert, nor looks at what it
sets, finds what it found. -/
theorem first_upsert_of_apart {p : Row C → Bool}
    (hp : ∀ r, p (r.assign ((Row.ofList values).excluded sets)) = p r)
    (hother : ∀ r, Row.Agrees target r (Row.ofList values) → p r = false)
    (hnew : p (Row.ofList values) = false)
    (h : db.upsert enforce t values target sets = .ok db') : db'.first t p = db.first t p := by
  obtain ⟨tbl, ht, -, ⟨-, hdb'⟩ | ⟨-, hdb'⟩⟩ := upsert_ok h
  · have hsame : p ∘ (fun r => if (Row.ofList values).withKey target r then
        r.assign ((Row.ofList values).excluded sets) else r) = p := by
      funext r
      rw [Function.comp_apply]
      split
      · exact hp r
      · rfl
    rw [first, hdb', assigned, List.find?_map, hsame, first, rows_of_some ht]
    cases hfound : tbl.rows.find? p with
    | none => rfl
    | some r =>
      have hr : ¬ (Row.ofList values).withKey target r = true := by
        intro hkey
        have hselected := List.find?_some hfound
        rw [hother r (Row.withKey_iff.mp hkey)] at hselected
        cases hselected
      rw [Option.map_some, if_neg hr]
  · rw [first, hdb', List.find?_append, List.find?_singleton, hnew, if_neg Bool.false_ne_true,
      Option.or_none, first, rows_of_some ht]

/-- An update of columns outside of the only key of a table that references
nothing and is not referenced goes well. -/
theorem update_eq_ok (enforce : Bool) (p : Row C → Bool) {tbl : Table T C} {row : Row C}
    (hdb : db.Integrity) (ht : db t = some tbl) (hunique : tbl.schema.unique = [target])
    (hown : tbl.schema.foreignKeys = []) (hchildren : ∀ t', ∀ fk ∈ db.foreignKeys t', fk.parent ≠ t)
    (hsets : tbl.schema.Covers sets) (hapart : ∀ c ∈ target, c ∉ sets)
    (hfilled : tbl.schema.Filled row) :
    ∃ done, db.update enforce t p (row.excluded sets) = .ok done := by
  have hsound := hdb.sound t tbl ht
  have hnames : (row.excluded sets).map Prod.fst = sets := by
    rw [Row.excluded, List.map_map]
    exact List.map_id sets
  have hkept : ∀ r : Row C, ∀ c ∈ target, (if p r then r.assign (row.excluded sets) else r) c = r c := by
    intro r c hc
    split
    · exact Row.assign_of_unset _ _ (hapart c hc)
    · rfl
  rw [update_of_no_keys ht hown (hnames.symm ▸ hsets) fun t' fk hfk hparent =>
    absurd hparent (hchildren t' fk hfk)]
  rw [if_neg, if_neg]
  · exact ⟨_, rfl⟩
  · refine not_not.mpr (hsound.distinct.imp ?_)
    rintro r r' hdistinct - ⟨key, hkey, hagrees⟩
    refine hdistinct ⟨key, hkey, ?_⟩
    rw [hunique, List.mem_singleton] at hkey
    subst hkey
    exact (Row.agrees_congr (hkept r) (hkept r')).mp hagrees
  · refine not_not.mpr fun r hr _ c hc => ?_
    by_cases hset : c ∈ sets
    · rw [Row.assign_of_mem _ _ hset]
      exact hfilled c hc
    · rw [Row.assign_of_unset _ _ hset]
      exact hsound.filled r hr c hc

/-- An upsert by the only key of a table that references nothing and is not
referenced goes well. -/
theorem upsert_eq_ok {tbl : Table T C} (hdb : db.Integrity) (ht : db t = some tbl)
    (hunique : tbl.schema.unique = [target]) (hown : tbl.schema.foreignKeys = [])
    (hchildren : ∀ t', ∀ fk ∈ db.foreignKeys t', fk.parent ≠ t)
    (hcovers : tbl.schema.Covers (values.map Prod.fst))
    (hfilled : tbl.schema.Filled (Row.ofList values)) (hsets : tbl.schema.Covers sets)
    (hapart : ∀ c ∈ target, c ∉ sets) :
    ∃ db', db.upsert enforce t values target sets = .ok db' := by
  have hconflict : ∀ r r', tbl.schema.Conflict r r' ↔ Row.Agrees target r r' := by
    intro r r'
    rw [Schema.Conflict, hunique]
    exact ⟨fun ⟨key, hkey, hsame⟩ => List.mem_singleton.mp hkey ▸ hsame,
      fun hagrees => ⟨target, List.mem_singleton_self _, hagrees⟩⟩
  unfold upsert
  simp only [ht]
  rw [if_neg (not_not.mpr (hunique ▸ List.mem_singleton_self target)), if_neg (not_not.mpr hcovers),
    if_neg (not_not.mpr hfilled)]
  by_cases hrow : ∃ r ∈ tbl.rows, Row.Agrees target r (Row.ofList values)
  · rw [if_pos hrow]
    obtain ⟨done, hdone⟩ := update_eq_ok enforce ((Row.ofList values).withKey target) hdb ht hunique
      hown hchildren hsets hapart hfilled
    rw [hdone]
    exact ⟨done.1, rfl⟩
  · rw [if_neg hrow, insert_of_no_keys ht hown hcovers, if_neg (not_not.mpr hfilled), if_neg]
    · exact ⟨_, rfl⟩
    · rintro ⟨r, hr, hr'⟩
      exact hrow ⟨r, hr, (hconflict _ _).mp hr'⟩

end Upsert

/-! ## Deletion without references -/

/-- Without foreign keys a deletion goes well and removes what it selects. -/
theorem delete_eq_ok_of_no_keys {db : Database T C} {t : T} {p : Row C → Bool}
    (hkeys : ∀ t', db.foreignKeys t' = []) (ht : (db t).isSome) :
    ∃ db', db.delete true t p = .ok db' ∧
      (∀ t', (db' t').map Table.schema = (db t').map Table.schema) ∧
      db'.rows t = (db.rows t).filter fun r => !p r := by
  have hrank : db.Ranked fun _ => 0 := by
    intro t' fk hfk
    rw [hkeys] at hfk
    cases hfk
  have hgone : ∀ r, gone db true t p t r = p r := by
    intro r
    rw [Bool.eq_iff_iff, gone_iff hrank fun _ => Nat.zero_le _]
    constructor
    · intro hdoomed
      cases hdoomed with
      | target holds => exact holds
      | cascade key =>
        rw [hkeys] at key
        cases key
    · exact .target
  refine ⟨_, delete_eq_ok hrank (fun _ => Nat.zero_le _) ht fun t' fk hfk => ?_,
    schema_without db _, ?_⟩
  · rw [hkeys] at hfk
    cases hfk
  · rw [rows_without]
    exact List.filter_congr fun r _ => by rw [hgone]

/-- A query that selects nothing of what a deletion removes finds what it found. -/
theorem first_of_filter {db db' : Database T C} {t : T} {p q : Row C → Bool}
    (h : db'.rows t = (db.rows t).filter fun r => !p r) (hapart : ∀ r, p r = true → q r = false) :
    db'.first t q = db.first t q := by
  have hsame : (fun r => decide ((!p r) = true ∧ q r = true)) = q := by
    funext r
    cases hp : p r with
    | false => simp
    | true => simp [hapart r hp]
  rw [first, h, List.find?_filter, hsame, first]

/-- What a deletion selects is gone. -/
theorem first_of_filter_self {db db' : Database T C} {t : T} {p : Row C → Bool}
    (h : db'.rows t = (db.rows t).filter fun r => !p r) : db'.first t p = none := by
  refine first_eq_none_iff.mpr fun r hr hp => ?_
  rw [h, List.mem_filter, hp] at hr
  exact Bool.false_ne_true hr.2

end Database

end Relational
