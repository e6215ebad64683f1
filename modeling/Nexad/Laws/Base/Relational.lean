import Nexad.Base.Relational
import Nexad.Base.Results

/-!
# Statements keep the integrity of a database

For each statement one inversion (`insert_ok`, `update_ok`, `delete_ok`): what
held when it succeeded and what the database is afterwards. From it follows
that integrity is kept. For a deletion there is in addition what the cascade
reaches: `Doomed` is the closure, and the rounds of `doomedIn` compute it when
the cascading keys have a rank (`doomedIn_iff`).
-/

namespace Relational

open Results

set_option linter.unusedSectionVars false

variable {T C : Type} [DecidableEq T] [DecidableEq C]

theorem Row.assign_of_notMem (r : Row C) (sets : List (C × Value)) {c : C}
    (h : c ∉ sets.map Prod.fst) : r.assign sets c = r c := by
  have hnone : sets.lookup c = none := by
    apply List.lookup_eq_none_iff.mpr
    intro e he
    have hne : c ≠ e.1 := fun hc => h (hc ▸ List.mem_map_of_mem he)
    simpa using hne
  rw [Row.assign, hnone, Option.getD_none]

namespace Database

/-! ## Rows and keys after a change of one table -/

@[simp] theorem setRows_self (db : Database T C) (t : T) (tbl : Table T C) (rows : List (Row C)) :
    db.setRows t tbl rows t = some { tbl with rows } := Function.update_self ..

theorem setRows_of_ne (db : Database T C) {t t' : T} (tbl : Table T C) (rows : List (Row C))
    (h : t' ≠ t) : db.setRows t tbl rows t' = db t' := Function.update_of_ne h ..

@[simp] theorem rows_setRows_self (db : Database T C) (t : T) (tbl : Table T C)
    (rs : List (Row C)) : (db.setRows t tbl rs).rows t = rs := by
  rw [rows, setRows_self, Option.elim_some]

theorem rows_setRows_of_ne (db : Database T C) {t t' : T} (tbl : Table T C) (rs : List (Row C))
    (h : t' ≠ t) : (db.setRows t tbl rs).rows t' = db.rows t' := by
  rw [rows, setRows_of_ne _ _ _ h, rows]

theorem schema_setRows {db : Database T C} {t : T} {tbl : Table T C} (h : db t = some tbl)
    (rs : List (Row C)) (t' : T) :
    (db.setRows t tbl rs t').map Table.schema = (db t').map Table.schema := by
  by_cases ht : t' = t
  · subst ht
    rw [setRows_self, h]
    rfl
  · rw [setRows_of_ne _ _ _ ht]

theorem foreignKeys_setRows {db : Database T C} {t : T} {tbl : Table T C} (h : db t = some tbl)
    (rs : List (Row C)) (t' : T) : (db.setRows t tbl rs).foreignKeys t' = db.foreignKeys t' := by
  by_cases ht : t' = t
  · subst ht
    simp only [foreignKeys, setRows_self, h, Option.elim_some]
  · rw [foreignKeys, setRows_of_ne _ _ _ ht, foreignKeys]

/-- Writing back the rows of a table changes nothing. -/
theorem setRows_same {db : Database T C} {t : T} {tbl : Table T C} (h : db t = some tbl) :
    db.setRows t tbl tbl.rows = db := by
  funext t'
  by_cases ht : t' = t
  · rw [ht, setRows_self, h]
  · rw [setRows_of_ne _ _ _ ht]

theorem rows_of_some {db : Database T C} {t : T} {tbl : Table T C} (h : db t = some tbl) :
    db.rows t = tbl.rows := by
  rw [rows, h, Option.elim_some]

theorem foreignKeys_of_some {db : Database T C} {t : T} {tbl : Table T C} (h : db t = some tbl) :
    db.foreignKeys t = tbl.schema.foreignKeys := by
  rw [foreignKeys, h, Option.elim_some]

/-- A parent row that is still there is still a parent. -/
theorem HasParent.mono {db db' : Database T C} {fk : ForeignKey T C} {r : Row C}
    (h : db.HasParent fk r) (hrows : ∀ r' ∈ db.rows fk.parent, r fk.column = r' fk.parentColumn →
      r fk.column ≠ .null → r' ∈ db'.rows fk.parent ∨ db'.HasParent fk r) :
    db'.HasParent fk r := by
  rcases h with hnull | hparent
  · exact .inl hnull
  · obtain ⟨r', hmem, heq⟩ := hparent
    by_cases hnull : r fk.column = .null
    · exact .inl hnull
    · rcases hrows r' hmem heq hnull with hstays | hother
      · exact .inr ⟨r', hstays, heq⟩
      · exact hother

/-! ## Insertion -/

theorem insert_ok {enforce : Bool} {db db' : Database T C} {t : T} {values : List (C × Value)}
    (h : db.insert enforce t values = .ok db') : ∃ tbl, db t = some tbl ∧
      db' = db.setRows t tbl (tbl.rows ++ [Row.ofList values]) ∧
      tbl.schema.Covers (values.map Prod.fst) ∧ tbl.schema.Filled (Row.ofList values) ∧
      (∀ r ∈ tbl.rows, ¬ tbl.schema.Conflict r (Row.ofList values)) ∧
      (enforce = true → ∀ fk ∈ tbl.schema.foreignKeys, db'.HasParent fk (Row.ofList values)) := by
  unfold insert at h
  cases ht : db t with
  | none =>
    simp only [ht] at h
    cases h
  | some tbl =>
    simp only [ht, ite_error_eq_ok, not_not, not_exists, not_and] at h
    obtain ⟨hcovers, hfilled, hdistinct, hparents, hdb⟩ := h
    cases hdb
    exact ⟨tbl, rfl, rfl, hcovers, hfilled, hdistinct, hparents⟩

/-- One insertion of values that meet the constraints. -/
theorem insert_eq_ok {enforce : Bool} {db : Database T C} {t : T} {tbl : Table T C}
    {values : List (C × Value)} (ht : db t = some tbl)
    (hcovers : tbl.schema.Covers (values.map Prod.fst))
    (hfilled : tbl.schema.Filled (Row.ofList values))
    (hdistinct : ∀ r ∈ tbl.rows, ¬ tbl.schema.Conflict r (Row.ofList values))
    (hparents : ∀ fk ∈ tbl.schema.foreignKeys, fk.parent ≠ t ∧ db.HasParent fk (Row.ofList values)) :
    db.insert enforce t values =
      .ok (db.setRows t tbl (tbl.rows ++ [Row.ofList values])) := by
  have hrefs : ∀ fk ∈ tbl.schema.foreignKeys,
      (db.setRows t tbl (tbl.rows ++ [Row.ofList values])).HasParent fk (Row.ofList values) := by
    intro fk hfk
    obtain ⟨hne, hparent⟩ := hparents fk hfk
    refine hparent.mono fun r hr _ _ => .inl ?_
    rw [rows_setRows_of_ne _ _ _ hne]
    exact hr
  unfold insert
  simp only [ht, ite_error_eq_ok, not_not, not_exists, not_and]
  exact ⟨hcovers, hfilled, hdistinct, fun _ => hrefs, trivial⟩

/-- An insertion adds a row that its table may hold. -/
theorem Every.insert {enforce : Bool} {db db' : Database T C} {P : T → Row C → Prop} {t : T}
    {values : List (C × Value)} (hdb : db.Every P) (hnew : P t (Row.ofList values))
    (h : db.insert enforce t values = .ok db') : db'.Every P := by
  obtain ⟨tbl, ht, rfl, -⟩ := insert_ok h
  intro t' r hr
  by_cases hne : t' = t
  · subst hne
    rw [rows_setRows_self] at hr
    rcases List.mem_append.mp hr with hr | hr
    · exact hdb t' r (rows_of_some ht ▸ hr)
    · rw [List.mem_singleton.mp hr]
      exact hnew
  · rw [rows_setRows_of_ne _ _ _ hne] at hr
    exact hdb t' r hr

/-- Tables stay sound when one of them gets rows that are. -/
theorem Integrity.sound_setRows {db : Database T C} (hdb : db.Integrity) {t t' : T}
    {tbl tbl' : Table T C} {rows : List (Row C)} (hsound : Table.Sound { tbl with rows })
    (ht' : db.setRows t tbl rows t' = some tbl') : tbl'.Sound := by
  by_cases hne : t' = t
  · subst hne
    rw [setRows_self] at ht'
    cases ht'
    exact hsound
  · rw [setRows_of_ne _ _ _ hne] at ht'
    exact hdb.sound t' tbl' ht'

/-- A row of given columns is null in all others. -/
private theorem ofList_within {s : Schema T C} {values : List (C × Value)}
    (h : s.Covers (values.map Prod.fst)) {c : C} (hc : c ∉ s.columns) :
    Row.ofList values c = .null :=
  Row.assign_of_notMem _ _ fun hmem => hc (h c hmem)

private theorem inserted_sound {tbl : Table T C} (hsound : tbl.Sound) {values : List (C × Value)}
    (hcovers : tbl.schema.Covers (values.map Prod.fst))
    (hfilled : tbl.schema.Filled (Row.ofList values))
    (hdistinct : ∀ r ∈ tbl.rows, ¬ tbl.schema.Conflict r (Row.ofList values)) :
    Table.Sound { tbl with rows := tbl.rows ++ [Row.ofList values] } := by
  refine ⟨fun r hr c hc => ?_, fun r hr => ?_, ?_⟩
  · rcases List.mem_append.mp hr with hr | hr
    · exact hsound.within r hr c hc
    · rw [List.mem_singleton.mp hr]
      exact ofList_within hcovers hc
  · rcases List.mem_append.mp hr with hr | hr
    · exact hsound.filled r hr
    · rw [List.mem_singleton.mp hr]
      exact hfilled
  · refine List.pairwise_append.mpr ⟨hsound.distinct, List.pairwise_singleton _ _, ?_⟩
    intro r hr r' hr'
    rw [List.mem_singleton.mp hr']
    exact hdistinct r hr

theorem insert_integrity {db db' : Database T C} {t : T} {values : List (C × Value)}
    (hdb : db.Integrity) (h : db.insert true t values = .ok db') : db'.Integrity := by
  obtain ⟨tbl, ht, hdb', hcovers, hfilled, hdistinct, hparents⟩ := insert_ok h
  refine ⟨fun t' tbl' ht' => ?_, fun t' fk hfk r hr => ?_⟩
  · rw [hdb'] at ht'
    have hsound := inserted_sound (hdb.sound t tbl ht) hcovers hfilled hdistinct
    exact hdb.sound_setRows hsound ht'
  · -- a row that was there keeps its parent: insertion takes no row away
    have hkeep : db.HasParent fk r → db'.HasParent fk r := by
      intro hpar
      refine hpar.mono fun r' hr' _ _ => .inl ?_
      rw [hdb']
      by_cases hparent : fk.parent = t
      · rw [hparent, rows_setRows_self]
        rw [hparent, rows_of_some ht] at hr'
        exact List.mem_append_left _ hr'
      · rw [rows_setRows_of_ne _ _ _ hparent]
        exact hr'
    rw [hdb', foreignKeys_setRows ht] at hfk
    rw [hdb'] at hr
    by_cases hne : t' = t
    · subst hne
      rw [rows_setRows_self] at hr
      rcases List.mem_append.mp hr with hr | hr
      · rw [← rows_of_some ht] at hr
        exact hkeep (hdb.references t' fk hfk r hr)
      · rw [List.mem_singleton.mp hr]
        exact hparents rfl fk (foreignKeys_of_some ht ▸ hfk)
    · rw [rows_setRows_of_ne _ _ _ hne] at hr
      exact hkeep (hdb.references t' fk hfk r hr)

/-! ## Update -/

section Update

variable [Fintype T]

/-- The rows of a table after an update. -/
def assigned (tbl : Table T C) (p : Row C → Bool) (sets : List (C × Value)) : List (Row C) :=
  tbl.rows.map fun r => if p r then r.assign sets else r

theorem update_ok {enforce : Bool} {db db' : Database T C} {t : T} {p : Row C → Bool}
    {sets : List (C × Value)} {n : Nat} (h : db.update enforce t p sets = .ok (db', n)) :
    ∃ tbl, db t = some tbl ∧ db' = db.setRows t tbl (assigned tbl p sets) ∧
      n = (tbl.rows.filter p).length ∧ tbl.schema.Covers (sets.map Prod.fst) ∧
      (∀ r ∈ tbl.rows, p r = true → tbl.schema.Filled (r.assign sets)) ∧
      (tbl.rows.Pairwise fun r r' => p r = true ∨ p r' = true → ¬ tbl.schema.Conflict
        (if p r then r.assign sets else r) (if p r' then r'.assign sets else r')) ∧
      (enforce = true → (∀ r ∈ tbl.rows, p r = true → ∀ fk ∈ tbl.schema.foreignKeys,
          db'.HasParent fk (r.assign sets)) ∧
        ∀ t', ∀ fk ∈ db.foreignKeys t', fk.parent = t → ∀ c ∈ db'.rows t',
          (∃ r ∈ tbl.rows, p r = true ∧ fk.Refers c r) → db'.HasParent fk c) := by
  unfold update at h
  cases ht : db t with
  | none =>
    simp only [ht] at h
    cases h
  | some tbl =>
    have hrows : (tbl.rows.map fun r => (p r, if p r then r.assign sets else r)).map Prod.snd =
        assigned tbl p sets := by
      rw [List.map_map]
      rfl
    simp only [ht, ite_error_eq_ok, not_not, not_and] at h
    obtain ⟨hcovers, hfilled, hdistinct, hchildren, hparents, hdb⟩ := h
    cases hdb
    refine ⟨tbl, rfl, by rw [hrows], rfl, hcovers, fun r hr hp => ?_,
      List.pairwise_map.mp hdistinct, fun he => ⟨fun r hr hp => ?_, hparents he⟩⟩
    · have := hfilled _ (List.mem_map_of_mem hr) hp
      simpa only [hp, if_true] using this
    · have := hchildren he _ (List.mem_map_of_mem hr) hp
      simpa only [hp, if_true] using this

/-- An update turns rows that their table may hold into such rows. -/
theorem Every.update {enforce : Bool} {db db' : Database T C} {P : T → Row C → Prop} {t : T}
    {p : Row C → Bool} {sets : List (C × Value)} {n : Nat} (hdb : db.Every P)
    (hset : ∀ r ∈ db.rows t, p r = true → P t r → P t (r.assign sets))
    (h : db.update enforce t p sets = .ok (db', n)) : db'.Every P := by
  obtain ⟨tbl, ht, rfl, -⟩ := update_ok h
  intro t' r hr
  by_cases hne : t' = t
  · subst hne
    rw [rows_setRows_self] at hr
    obtain ⟨r', hr', rfl⟩ := List.mem_map.mp hr
    have hmem : r' ∈ db.rows t' := rows_of_some ht ▸ hr'
    have hold := hdb t' r' hmem
    split
    · next hp => exact hset r' hmem hp hold
    · exact hold
  · rw [rows_setRows_of_ne _ _ _ hne] at hr
    exact hdb t' r hr

/-- An update that matched a row has written it. -/
theorem update_mem {enforce : Bool} {db db' : Database T C} {t : T} {p : Row C → Bool}
    {sets : List (C × Value)} {n : Nat} (h : db.update enforce t p sets = .ok (db', n))
    (hn : n ≠ 0) : ∃ r ∈ db.rows t, p r = true ∧ r.assign sets ∈ db'.rows t := by
  obtain ⟨tbl, ht, rfl, rfl, -⟩ := update_ok h
  obtain ⟨r, hr⟩ := List.exists_mem_of_length_pos (Nat.pos_of_ne_zero hn)
  obtain ⟨hr, hp⟩ := List.mem_filter.mp hr
  refine ⟨r, rows_of_some ht ▸ hr, hp, ?_⟩
  rw [rows_setRows_self]
  exact List.mem_map.mpr ⟨r, hr, if_pos hp⟩

/-- An update that matches no row changes nothing. -/
theorem update_none {enforce : Bool} {db db' : Database T C} {t : T} {p : Row C → Bool}
    {sets : List (C × Value)} (h : db.update enforce t p sets = .ok (db', 0)) : db' = db := by
  obtain ⟨tbl, ht, hdb', hn, -⟩ := update_ok h
  have hmiss : ∀ r ∈ tbl.rows, ¬ p r = true :=
    List.filter_eq_nil_iff.mp (List.length_eq_zero_iff.mp hn.symm)
  have hrows : assigned tbl p sets = tbl.rows := by
    unfold assigned
    conv => rhs; rw [← List.map_id tbl.rows]
    exact List.map_congr_left fun r hr => if_neg (hmiss r hr)
  rw [hdb', hrows, setRows_same ht]

private theorem assigned_sound {tbl : Table T C} (hsound : tbl.Sound) {p : Row C → Bool}
    {sets : List (C × Value)} (hcovers : tbl.schema.Covers (sets.map Prod.fst))
    (hfilled : ∀ r ∈ tbl.rows, p r = true → tbl.schema.Filled (r.assign sets))
    (hdistinct : tbl.rows.Pairwise fun r r' => p r = true ∨ p r' = true → ¬ tbl.schema.Conflict
      (if p r then r.assign sets else r) (if p r' then r'.assign sets else r')) :
    Table.Sound { tbl with rows := assigned tbl p sets } := by
  refine ⟨fun r hr c hc => ?_, fun r hr => ?_, ?_⟩
  · obtain ⟨r, hmem, rfl⟩ := List.mem_map.mp hr
    split
    · rw [Row.assign_of_notMem _ _ fun h => hc (hcovers c h)]
      exact hsound.within r hmem c hc
    · exact hsound.within r hmem c hc
  · obtain ⟨r, hmem, rfl⟩ := List.mem_map.mp hr
    split
    · next hp => exact hfilled r hmem hp
    · exact hsound.filled r hmem
  · refine List.pairwise_map.mpr (hdistinct.imp₂ (fun r r' hnew hold => ?_) hsound.distinct)
    by_cases hp : p r = true ∨ p r' = true
    · exact hnew hp
    · rw [not_or] at hp
      rw [if_neg hp.1, if_neg hp.2]
      exact hold

theorem update_integrity {db db' : Database T C} {t : T} {p : Row C → Bool}
    {sets : List (C × Value)} {n : Nat} (hdb : db.Integrity)
    (h : db.update true t p sets = .ok (db', n)) : db'.Integrity := by
  obtain ⟨tbl, ht, hdb', -, hcovers, hfilled, hdistinct, hrefs⟩ := update_ok h
  obtain ⟨hchildren, hparents⟩ := hrefs rfl
  refine ⟨fun t' tbl' ht' => ?_, fun t' fk hfk c hc => ?_⟩
  · rw [hdb'] at ht'
    have hsound := assigned_sound (hdb.sound t tbl ht) hcovers hfilled hdistinct
    exact hdb.sound_setRows hsound ht'
  · rw [hdb', foreignKeys_setRows ht] at hfk
    -- a row the update did not touch lost its parent only to the update
    have hkeep : c ∈ db.rows t' → db'.HasParent fk c := by
      intro hold
      refine (hdb.references t' fk hfk c hold).mono fun r hr heq hnull => ?_
      by_cases hparent : fk.parent = t
      · rw [hparent, rows_of_some ht] at hr
        by_cases hp : p r = true
        · exact .inr (hparents t' fk hfk hparent c hc ⟨r, hr, hp, hnull, heq⟩)
        · left
          rw [hdb', hparent, rows_setRows_self]
          exact List.mem_map.mpr ⟨r, hr, if_neg hp⟩
      · left
        rw [hdb', rows_setRows_of_ne _ _ _ hparent]
        exact hr
    by_cases hne : t' = t
    · subst hne
      have hmem := hc
      rw [hdb', rows_setRows_self] at hmem
      obtain ⟨r, hr, hrc⟩ := List.mem_map.mp hmem
      split at hrc
      · next hp =>
        rw [← hrc]
        exact hchildren r hr hp fk (foreignKeys_of_some ht ▸ hfk)
      · rw [hrc, ← rows_of_some ht] at hr
        exact hkeep hr
    · have hmem := hc
      rw [hdb', rows_setRows_of_ne _ _ _ hne] at hmem
      exact hkeep hmem

end Update

/-! ## Cascade -/

/-- The rows a cascading deletion reaches: its target rows, and each row whose
cascading key references a row that is reached. -/
inductive Doomed (db : Database T C) (target : T) (p : Row C → Bool) : T → Row C → Prop
  | target {r : Row C} (holds : p r = true) : Doomed db target p target r
  | cascade {t : T} {r r' : Row C} {fk : ForeignKey T C} (key : fk ∈ db.foreignKeys t)
      (cascades : fk.onDelete = .cascade) (parent : r' ∈ db.rows fk.parent)
      (reached : Doomed db target p fk.parent r') (refers : fk.Refers r r') :
      Doomed db target p t r

/-- A rank that every cascading key goes down by: no table cascades into itself. -/
def Ranked (db : Database T C) (rank : T → Nat) : Prop :=
  ∀ t, ∀ fk ∈ db.foreignKeys t, fk.onDelete = .cascade → rank fk.parent < rank t

theorem doomedIn_succ_iff {db : Database T C} {target : T} {p : Row C → Bool} {n : Nat} {t : T}
    {r : Row C} : doomedIn db target p (n + 1) t r = true ↔ doomedIn db target p n t r = true ∨
      ∃ fk ∈ db.foreignKeys t, fk.onDelete = .cascade ∧ ∃ r' ∈ db.rows fk.parent,
        doomedIn db target p n fk.parent r' = true ∧ fk.Refers r r' := by
  rw [doomedIn, Bool.or_eq_true, decide_eq_true_iff]

theorem Doomed.of_doomedIn {db : Database T C} {target : T} {p : Row C → Bool} {n : Nat} {t : T}
    {r : Row C} (h : doomedIn db target p n t r = true) : Doomed db target p t r := by
  induction n generalizing t r with
  | zero =>
    rw [doomedIn, Bool.and_eq_true, decide_eq_true_iff] at h
    obtain ⟨rfl, hp⟩ := h
    exact .target hp
  | succ n ih =>
    rcases doomedIn_succ_iff.mp h with h | h
    · exact ih h
    · obtain ⟨fk, hfk, hcascade, r', hr', hdoomed, hrefers⟩ := h
      exact .cascade hfk hcascade hr' (ih hdoomed) hrefers

private theorem doomedIn_target (db : Database T C) (target : T) {p : Row C → Bool} {r : Row C}
    (h : p r = true) (n : Nat) : doomedIn db target p n target r = true := by
  induction n with
  | zero => simpa [doomedIn] using h
  | succ n ih => exact doomedIn_succ_iff.mpr (.inl ih)

/-- From a table's rank on, further rounds reach none of its rows. -/
private theorem doomedIn_stable {db : Database T C} {rank : T → Nat} (hrank : db.Ranked rank)
    (target : T) (p : Row C → Bool) {n : Nat} {t : T} {r : Row C} (hn : rank t ≤ n)
    (h : doomedIn db target p (n + 1) t r = true) : doomedIn db target p n t r = true := by
  induction n generalizing t r with
  | zero =>
    rcases doomedIn_succ_iff.mp h with h | h
    · exact h
    · obtain ⟨fk, hfk, hcascade, -⟩ := h
      exact absurd (hrank t fk hfk hcascade) (by omega)
  | succ n ih =>
    rcases doomedIn_succ_iff.mp h with h | h
    · exact h
    · obtain ⟨fk, hfk, hcascade, r', hr', hdoomed, hrefers⟩ := h
      have hlt := hrank t fk hfk hcascade
      have hparent := ih (by omega) hdoomed
      exact doomedIn_succ_iff.mpr (.inr ⟨fk, hfk, hcascade, r', hr', hparent, hrefers⟩)

/-- Enough rounds compute the closure. -/
theorem doomedIn_iff {db : Database T C} {rank : T → Nat} (hrank : db.Ranked rank) {n : Nat}
    (hn : ∀ t, rank t ≤ n) {target : T} {p : Row C → Bool} {t : T} {r : Row C} :
    doomedIn db target p n t r = true ↔ Doomed db target p t r := by
  refine ⟨Doomed.of_doomedIn, fun h => ?_⟩
  induction h with
  | target holds => exact doomedIn_target db target holds n
  | cascade key cascades parent reached refers ih =>
    exact doomedIn_stable hrank target p (hn _)
      (doomedIn_succ_iff.mpr (.inr ⟨_, key, cascades, _, parent, ih, refers⟩))

/-! ## Deletion -/

theorem rows_without (db : Database T C) (gone : T → Row C → Bool) (t : T) :
    (db.without gone).rows t = (db.rows t).filter fun r => !gone t r := by
  unfold rows without
  cases db t <;> rfl

theorem mem_rows_without {db : Database T C} {gone : T → Row C → Bool} {t : T} {r : Row C} :
    r ∈ (db.without gone).rows t ↔ r ∈ db.rows t ∧ gone t r = false := by
  rw [rows_without, List.mem_filter, Bool.not_eq_true']

theorem schema_without (db : Database T C) (gone : T → Row C → Bool) (t : T) :
    (db.without gone t).map Table.schema = (db t).map Table.schema := by
  unfold without
  cases db t <;> rfl

theorem foreignKeys_without (db : Database T C) (gone : T → Row C → Bool) (t : T) :
    (db.without gone).foreignKeys t = db.foreignKeys t := by
  unfold foreignKeys without
  cases db t <;> rfl

/-- A table that loses nothing stays as it is. -/
theorem without_of_stays {db : Database T C} {gone : T → Row C → Bool} {t : T}
    (h : ∀ r ∈ db.rows t, gone t r = false) : db.without gone t = db t := by
  unfold without
  cases ht : db t with
  | none => rfl
  | some tbl =>
    rw [rows_of_some ht] at h
    have hrows : tbl.rows.filter (fun r => !gone t r) = tbl.rows :=
      List.filter_eq_self.mpr fun r hr => by simp [h r hr]
    rw [Option.map_some, hrows]

/-- A table that loses everything is left empty. -/
theorem without_of_gone {db : Database T C} {gone : T → Row C → Bool} {t : T} {tbl : Table T C}
    (ht : db t = some tbl) (h : ∀ r ∈ tbl.rows, gone t r = true) :
    db.without gone t = some { tbl with rows := [] } := by
  have hrows : tbl.rows.filter (fun r => !gone t r) = [] :=
    List.filter_eq_nil_iff.mpr fun r hr => by simp [h r hr]
  rw [without, ht, Option.map_some, hrows]

variable [Fintype T]

/-- What a deletion removes. -/
def gone (db : Database T C) (enforce : Bool) (t : T) (p : Row C → Bool) : T → Row C → Bool :=
  doomedIn db t p (if enforce then Fintype.card T else 0)

theorem delete_ok {enforce : Bool} {db db' : Database T C} {t : T} {p : Row C → Bool}
    (h : db.delete enforce t p = .ok db') : (db t).isSome ∧
      db' = db.without (gone db enforce t p) ∧
      (enforce = true → ∀ t', ∀ fk ∈ db.foreignKeys t', ∀ c ∈ db'.rows t',
        (∃ r ∈ db.rows fk.parent, gone db enforce t p fk.parent r = true ∧ fk.Refers c r) →
          db'.HasParent fk c) := by
  unfold delete at h
  cases ht : db t with
  | none =>
    simp only [ht] at h
    cases h
  | some tbl =>
    simp only [ht, ite_error_eq_ok, not_not, not_and] at h
    obtain ⟨hchildren, hdb⟩ := h
    cases hdb
    exact ⟨rfl, rfl, hchildren⟩

/-- A deletion leaves rows that were there. -/
theorem Every.delete {enforce : Bool} {db db' : Database T C} {P : T → Row C → Prop} {t : T}
    {p : Row C → Bool} (hdb : db.Every P) (h : db.delete enforce t p = .ok db') : db'.Every P := by
  obtain ⟨-, rfl, -⟩ := delete_ok h
  exact fun t' r hr => hdb t' r (mem_rows_without.mp hr).1

/-- A deletion under the foreign keys removes exactly what the cascade reaches. -/
theorem gone_iff {db : Database T C} {rank : T → Nat} (hrank : db.Ranked rank)
    (hcard : ∀ t, rank t ≤ Fintype.card T) {target : T} {p : Row C → Bool} {t : T} {r : Row C} :
    gone db true target p t r = true ↔ Doomed db target p t r :=
  doomedIn_iff hrank hcard

/-- A deletion succeeds when every key that references a removed row cascades. -/
theorem delete_eq_ok {db : Database T C} {rank : T → Nat} (hrank : db.Ranked rank)
    (hcard : ∀ t, rank t ≤ Fintype.card T) {t : T} {p : Row C → Bool} (ht : (db t).isSome)
    (hkeys : ∀ t', ∀ fk ∈ db.foreignKeys t', fk.onDelete = .cascade ∨
      ∀ c ∈ db.rows t', ∀ r, fk.Refers c r → ¬ Doomed db t p fk.parent r) :
    db.delete true t p = .ok (db.without (gone db true t p)) := by
  obtain ⟨tbl, htbl⟩ := Option.isSome_iff_exists.mp ht
  have hcheck : ∀ t', ∀ fk ∈ db.foreignKeys t', ∀ c ∈ (db.without (gone db true t p)).rows t',
      (∃ r ∈ db.rows fk.parent, gone db true t p fk.parent r = true ∧ fk.Refers c r) →
        (db.without (gone db true t p)).HasParent fk c := by
    intro t' fk hfk c hc h
    obtain ⟨r, hr, hgone, hrefers⟩ := h
    have hdoomed := (gone_iff hrank hcard).mp hgone
    rcases hkeys t' fk hfk with hcascade | hsafe
    · have := (gone_iff hrank hcard).mpr (.cascade hfk hcascade hr hdoomed hrefers)
      rw [(mem_rows_without.mp hc).2] at this
      cases this
    · exact absurd hdoomed (hsafe c (mem_rows_without.mp hc).1 r hrefers)
  unfold delete
  simp only [htbl]
  rw [if_neg]
  · rfl
  · intro h
    exact h.2 hcheck

theorem delete_integrity {db db' : Database T C} {t : T} {p : Row C → Bool} (hdb : db.Integrity)
    (h : db.delete true t p = .ok db') : db'.Integrity := by
  obtain ⟨-, hdb', hchildren⟩ := delete_ok h
  refine ⟨fun t' tbl' ht' => ?_, fun t' fk hfk c hc => ?_⟩
  · rw [hdb'] at ht'
    obtain ⟨tbl, htbl, rfl⟩ := Option.map_eq_some_iff.mp ht'
    have hold := hdb.sound t' tbl htbl
    exact ⟨fun r hr => hold.within r (List.mem_filter.mp hr).1,
      fun r hr => hold.filled r (List.mem_filter.mp hr).1,
      hold.distinct.sublist List.filter_sublist⟩
  · have hmem := hc
    rw [hdb', mem_rows_without] at hmem
    rw [hdb', foreignKeys_without] at hfk
    refine (hdb.references t' fk hfk c hmem.1).mono fun r hr heq hnull => ?_
    -- the parent row stays, or the deletion took it and was checked for its children
    cases hgone : gone db true t p fk.parent r with
    | false =>
      left
      rw [hdb', mem_rows_without]
      exact ⟨hr, hgone⟩
    | true => exact .inr (hchildren rfl t' fk hfk c hc ⟨r, hr, hgone, hnull, heq⟩)

end Database

end Relational
