import Nexad.Base.Relational

/-!
# Schema statements and connections

The statements that change which tables there are, run one after the other on
a connection. A connection remembers whether foreign keys are enforced and
whether a transaction is open, and the two meet in one rule: the pragma that
switches enforcement has no effect inside a transaction. While enforcement is
on, dropping a table first deletes its rows, with everything that cascades.
-/

namespace Relational

/-- The statements of a migration. -/
inductive Stmt (T C : Type) where
  | pragmaForeignKeys (on : Bool)
  | createTable (ifNotExists : Bool) (t : T) (schema : Schema T C)
  | addColumn (t : T) (column : C)
  | createIndex (t : T) (columns : List C)
  | insertSelect (into : T) (columns : List C) (source : T)
  | dropTable (t : T)
  | renameTable (t t' : T)

/-- A connection and the database behind it. -/
structure Connection (T C : Type) where
  foreignKeys : Bool
  inTransaction : Bool
  db : Database T C

variable {T C : Type} [DecidableEq T] [DecidableEq C]

/-- The schema after another table got a new name: its keys follow the name. -/
def Schema.renameParent (s : Schema T C) (t t' : T) : Schema T C :=
  { s with foreignKeys := s.foreignKeys.map fun fk =>
      if fk.parent = t then { fk with parent := t' } else fk }

namespace Database

/-- `CREATE TABLE`. -/
def createTable (ifNotExists : Bool) (db : Database T C) (t : T) (schema : Schema T C) :
    Except SqlError (Database T C) :=
  match db t with
  | some _ => if ifNotExists then .ok db else .error .tableExists
  | none => .ok (Function.update db t (some ⟨schema, []⟩))

/-- `ALTER TABLE t ADD COLUMN`, nullable and null in the rows there are. -/
def addColumn (db : Database T C) (t : T) (column : C) : Except SqlError (Database T C) :=
  match db t with
  | none => .error .noSuchTable
  | some tbl =>
    .ok (Function.update db t
      (some { tbl with schema := { tbl.schema with columns := tbl.schema.columns ++ [column] } }))

/-- Insert rows one after the other, each under the columns of its table. -/
def insertAll (enforce : Bool) (into : T) (columns : List C) (db : Database T C) :
    List (Row C) → Except SqlError (Database T C)
  | [] => .ok db
  | r :: rs =>
    match db into with
    | none => .error .noSuchTable
    | some tbl =>
      if tbl.schema.columns.length ≠ columns.length then .error .noSuchColumn
      else
        match db.insert enforce into (tbl.schema.columns.zip (columns.map r)) with
        | .error e => .error e
        | .ok db' => insertAll enforce into columns db' rs

/-- `DROP TABLE`. -/
def dropTable [Fintype T] (enforce : Bool) (db : Database T C) (t : T) :
    Except SqlError (Database T C) :=
  match db t with
  | none => .error .noSuchTable
  | some _ =>
    if enforce then
      match db.delete true t (fun _ => true) with
      | .error e => .error e
      | .ok db' => .ok (Function.update db' t none)
    else .ok (Function.update db t none)

/-- `ALTER TABLE t RENAME TO t'`. -/
def renameTable (db : Database T C) (t t' : T) : Except SqlError (Database T C) :=
  match db t, db t' with
  | none, _ => .error .noSuchTable
  | some _, some _ => .error .tableExists
  | some tbl, none =>
    .ok fun x => (Function.update (Function.update db t none) t' (some tbl) x).map fun tbl =>
      { tbl with schema := tbl.schema.renameParent t t' }

end Database

namespace Connection

variable [Fintype T]

/-- The connection over another database. -/
def withDb (c : Connection T C) (db : Except SqlError (Database T C)) :
    Except SqlError (Connection T C) :=
  db.map fun db => { c with db }

/-- Run one statement. -/
def exec (c : Connection T C) : Stmt T C → Except SqlError (Connection T C)
  | .pragmaForeignKeys on => .ok (if c.inTransaction then c else { c with foreignKeys := on })
  | .createTable ifNotExists t schema => c.withDb (c.db.createTable ifNotExists t schema)
  | .addColumn t column => c.withDb (c.db.addColumn t column)
  | .createIndex t _ => c.withDb (if (c.db t).isSome then .ok c.db else .error .noSuchTable)
  | .insertSelect into columns source =>
    match c.db source with
    | none => .error .noSuchTable
    | some tbl => c.withDb (c.db.insertAll c.foreignKeys into columns tbl.rows)
  | .dropTable t => c.withDb (c.db.dropTable c.foreignKeys t)
  | .renameTable t t' => c.withDb (c.db.renameTable t t')

/-- Run a script up to the first statement that fails. -/
def execAll (c : Connection T C) : List (Stmt T C) → Except SqlError (Connection T C)
  | [] => .ok c
  | stmt :: stmts =>
    match c.exec stmt with
    | .error e => .error e
    | .ok c' => c'.execAll stmts

/-- Run a script in a transaction of its own: all of it, or nothing. -/
def transaction (c : Connection T C) (stmts : List (Stmt T C)) : Except SqlError (Connection T C) :=
  (execAll { c with inTransaction := true } stmts).map fun c' => { c' with inTransaction := false }

/-! ## What a script leaves of the connection -/

section Flags

variable {c c' : Connection T C}

omit [DecidableEq T] [DecidableEq C] [Fintype T] in
theorem withDb_flags {db : Except SqlError (Database T C)} (h : c.withDb db = .ok c') :
    c'.foreignKeys = c.foreignKeys ∧ c'.inTransaction = c.inTransaction := by
  cases db with
  | error e => cases h
  | ok db =>
    cases h
    exact ⟨rfl, rfl⟩

/-- In a transaction no statement touches the flags. -/
theorem exec_flags (opened : c.inTransaction = true) {stmt : Stmt T C} (h : c.exec stmt = .ok c') :
    c'.foreignKeys = c.foreignKeys ∧ c'.inTransaction = c.inTransaction := by
  cases stmt with
  | pragmaForeignKeys on =>
    rw [exec, if_pos opened] at h
    cases h
    exact ⟨rfl, rfl⟩
  | insertSelect into columns source =>
    rw [exec] at h
    split at h
    · cases h
    · exact withDb_flags h
  | createTable => exact withDb_flags h
  | addColumn => exact withDb_flags h
  | createIndex => exact withDb_flags h
  | dropTable => exact withDb_flags h
  | renameTable => exact withDb_flags h

theorem execAll_flags {stmts : List (Stmt T C)} (opened : c.inTransaction = true)
    (h : c.execAll stmts = .ok c') :
    c'.foreignKeys = c.foreignKeys ∧ c'.inTransaction = c.inTransaction := by
  induction stmts generalizing c with
  | nil =>
    cases h
    exact ⟨rfl, rfl⟩
  | cons stmt stmts ih =>
    rw [execAll] at h
    split at h
    · cases h
    · next c₁ hstmt =>
      obtain ⟨hkeys, htx⟩ := exec_flags opened hstmt
      obtain ⟨hkeys', htx'⟩ := ih (htx.trans opened) h
      exact ⟨hkeys'.trans hkeys, htx'.trans htx⟩

/-- A transaction leaves the connection as it was, but for the database. -/
theorem transaction_flags {foreignKeys : Bool} {db : Database T C} {stmts : List (Stmt T C)}
    (h : transaction ⟨foreignKeys, false, db⟩ stmts = .ok c') : c' = ⟨foreignKeys, false, c'.db⟩ := by
  unfold transaction at h
  cases hrun : execAll { foreignKeys, inTransaction := true, db } stmts with
  | error e =>
    rw [hrun] at h
    cases h
  | ok c₁ =>
    rw [hrun] at h
    cases h
    obtain ⟨hkeys, -⟩ := execAll_flags rfl hrun
    show (⟨c₁.foreignKeys, false, c₁.db⟩ : Connection T C) = _
    rw [hkeys]

end Flags

end Connection

end Relational
