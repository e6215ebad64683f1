import Nexad.Base.Aead
import Nexad.State.Sqlite

/-!
# `EncryptedSqliteSecretStore`

Each operation is one statement on `secrets.db`, whose only table has a row
for each secret: `nonce (12 bytes) || ciphertext`. The nonce of an encryption
is drawn from the system, so here it is an argument. The store encrypts and
decrypts without associated data. A statement may also fail for reasons of its
own: `Step` lets any operation end in such an error with nothing changed.
-/

namespace Nexad.Secrets

open Relational Slice
open Nexad.State (Failure)

/-- The tables of `secrets.db`. -/
inductive TableName where
  | secrets
  deriving DecidableEq, Repr

instance : Fintype TableName where
  elems := {.secrets}
  complete t := by cases t; decide

/-- The columns of `secrets`. -/
inductive Column where
  | project
  | name
  | value
  deriving DecidableEq, Repr

/-- A database with secrets. -/
abbrev SecretsDb := Database TableName Column

/-- `CREATE TABLE IF NOT EXISTS secrets`. -/
def secretsSchema : Schema TableName Column where
  columns := [.project, .name, .value]
  notNull := [.project, .name, .value]
  unique := [[.project, .name]]
  foreignKeys := []

/-- What the crates decide: the cipher, and how the errors of a statement and
of a column of another type read. -/
structure Crates where
  aes256Gcm : Aead 32 12
  sqlError : SqlError → String
  invalidColumnType : Column → Option Value → String

/-- The store, less its connection: the cipher with the master key. -/
structure EncryptedSqliteSecretStore where
  cipher : ArrayOf UInt8 32
  deriving DecidableEq, Repr

/-- `NexaError::Secret`. -/
def secretError (text : String) : Failure := .error (.secret text)

/-- An access outside of a slice ends the call. -/
def checked {α : Type} (x : Except Panic α) : Except Failure α := x.mapError fun _ => .panic

/-- The rows where a column is a text. -/
def whereText (c : Column) (s : String) (r : Row Column) : Bool := r c = .text s

/-- `WHERE project = ?1 AND name = ?2`. -/
def whereSecret (project name : String) (r : Row Column) : Bool :=
  whereText .project project r && whereText .name name r

namespace EncryptedSqliteSecretStore

variable (K : Crates)

/-- `EncryptedSqliteSecretStore::new`, with a key of the cipher's length. -/
def new (conn : SecretsDb) (masterKey : ArrayOf UInt8 32) :
    Except Failure (EncryptedSqliteSecretStore × SecretsDb) :=
  match conn.createTable true .secrets secretsSchema with
  | .error e =>
    let text := K.sqlError e
    .error (secretError s!"failed to init secrets table: {text}")
  | .ok db => .ok (⟨masterKey⟩, db)

variable (store : EncryptedSqliteSecretStore)

/-- `encrypt`. -/
def encrypt (nonce : ArrayOf UInt8 12) (plaintext : List UInt8) : Except Failure (List UInt8) :=
  match K.aes256Gcm.encrypt store.cipher nonce [] plaintext with
  | .error e => .error (secretError s!"encryption failed: {e}")
  | .ok ciphertext => .ok (nonce.1 ++ ciphertext)

/-- `decrypt`. -/
def decrypt (blob : List UInt8) : Except Failure (List UInt8) :=
  if blob.length < 12 then .error (secretError "ciphertext too short")
  else do
    let (nonceBytes, ciphertext) ← checked (splitAt blob 12)
    let nonce ← checked (fromSlice 12 nonceBytes)
    match K.aes256Gcm.decrypt store.cipher nonce [] ciphertext with
    | .error e => .error (secretError s!"decryption failed: {e}")
    | .ok plaintext => .ok plaintext

/-- `set`. -/
def set (db : SecretsDb) (nonce : ArrayOf UInt8 12) (project name : String) (value : List UInt8) :
    SecretsDb × Except Failure Unit :=
  match store.encrypt K nonce value with
  | .error e => (db, .error e)
  | .ok encrypted =>
    match db.upsert true .secrets
        [(.project, .text project), (.name, .text name), (.value, .blob encrypted)]
        [.project, .name] [.value] with
    | .error e =>
      let text := K.sqlError e
      (db, .error (secretError s!"failed to set secret: {text}"))
    | .ok db' => (db', .ok ())

/-- `get`. -/
def get (db : SecretsDb) (project name : String) : Except Failure (Option (List UInt8)) :=
  match db.select [.value] .secrets (whereSecret project name) none with
  | .error e =>
    let text := K.sqlError e
    .error (secretError s!"query failed: {text}")
  | .ok rows =>
    match rows.head? with
    | none => .ok none
    | some row =>
      match row .value with
      | some (.blob blob) => (store.decrypt K blob).map some
      | other =>
        let text := K.invalidColumnType .value other
        .error (secretError s!"query failed: {text}")

/-- `list`. -/
def list (scan : Scan Column) (db : SecretsDb) (project : String) : Except Failure (List String) :=
  match db.select [.name] .secrets (whereText .project project) (some (.name, scan)) with
  | .error e =>
    let text := K.sqlError e
    .error (secretError s!"query failed: {text}")
  | .ok rows => rows.mapM fun row =>
    match row .name with
    | some (.text name) => .ok name
    | other =>
      let text := K.invalidColumnType .name other
      .error (secretError s!"row read failed: {text}")

/-- `delete`. -/
def delete (db : SecretsDb) (project name : String) : SecretsDb × Except Failure Unit :=
  match db.delete true .secrets (whereSecret project name) with
  | .error e =>
    let text := K.sqlError e
    (db, .error (secretError s!"delete failed: {text}"))
  | .ok db' => (db', .ok ())

end EncryptedSqliteSecretStore

/-! ## Runs of the store -/

/-- A call of the store; a `set` comes with the nonce that is drawn for it. -/
inductive SecretOp where
  | set (project name : String) (value : List UInt8) (nonce : ArrayOf UInt8 12)
  | get (project name : String)
  | list (project : String)
  | delete (project name : String)
  deriving DecidableEq, Repr

/-- What a call answers when all is well. -/
inductive Reply where
  | unit
  | value (found : Option (List UInt8))
  | names (found : List String)
  deriving DecidableEq, Repr

/-- How a call ends. -/
abbrev Outcome := Except Failure Reply

variable (K : Crates) (store : EncryptedSqliteSecretStore)

/-- Run a call. -/
def SecretOp.run (scan : Scan Column) (db : SecretsDb) : SecretOp → SecretsDb × Outcome
  | .set project name value nonce =>
    let (db', result) := store.set K db nonce project name value
    (db', result.map fun _ => .unit)
  | .get project name => (db, (store.get K db project name).map .value)
  | .list project => (db, (EncryptedSqliteSecretStore.list K scan db project).map .names)
  | .delete project name =>
    let (db', result) := EncryptedSqliteSecretStore.delete K db project name
    (db', result.map fun _ => .unit)

/-- One call: it runs, with any scan of the rows, or its statement fails for a reason
of its own. -/
inductive Step (db : SecretsDb) (op : SecretOp) : Outcome → SecretsDb → Prop
  | run (scan : Scan Column) : Step db op (op.run K store scan db).2 (op.run K store scan db).1
  | fault (text : String) : Step db op (.error (secretError text)) db

/-- The calls of a store that was new once, newest first, each with its end.
The daemon may open the same database again, with the same key. -/
inductive Calls : List (SecretOp × Outcome) → SecretsDb → Prop
  | new {db : SecretsDb} :
      EncryptedSqliteSecretStore.new K (fun _ => none) store.cipher = .ok (store, db) → Calls [] db
  | call {made : List (SecretOp × Outcome)} {db db' : SecretsDb} {op : SecretOp} {outcome : Outcome} :
      Calls made db → Step K store db op outcome db' → Calls ((op, outcome) :: made) db'
  | restart {made : List (SecretOp × Outcome)} {db db' : SecretsDb} :
      Calls made db → EncryptedSqliteSecretStore.new K db store.cipher = .ok (store, db') →
      Calls made db'

end Nexad.Secrets
