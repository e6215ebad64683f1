import Nexad.Laws.Base.Upsert
import Nexad.Secrets.Encrypted
import Mathlib.Data.List.Sort
import Mathlib.Data.String.Basic

/-!
# The secret store is a map

A secret is what the last `set` of it that went well was given, unless a
`delete` followed (`current`). Each operation meets the table in one of two
ways: it looks at the row of one secret (`get_eq`) or at the names of a
project's rows (`list_eq`), and it writes one row or removes it (`Wrote`,
`Removed`), which no other row notices. So by induction over the calls the
store answers what `current` says, and the blobs in between are the cipher's
business alone.
-/

namespace Nexad.Secrets

open Relational Results Slice
open Nexad.State (Failure)

variable {K : Crates} {store : EncryptedSqliteSecretStore}

/-! ## Blobs -/

section Blobs

/-- A blob that begins with a nonce is decrypted under it. -/
theorem decrypt_append (nonce : ArrayOf UInt8 12) (ciphertext : List UInt8) :
    store.decrypt K (nonce.1 ++ ciphertext) =
      match K.aes256Gcm.decrypt store.cipher nonce [] ciphertext with
      | .error e => .error (secretError s!"decryption failed: {e}")
      | .ok plaintext => .ok plaintext := by
  have hlength : ¬ (nonce.1 ++ ciphertext).length < 12 := by
    rw [List.length_append, nonce.2]
    omega
  rw [EncryptedSqliteSecretStore.decrypt, if_neg hlength, splitAt_append]
  show (checked (fromSlice 12 nonce.1) >>= _) = _
  rw [fromSlice_coe]
  rfl

/-- What is decrypted is a nonce and what the cipher decrypts under it. -/
theorem decrypt_eq_ok_iff {blob plaintext : List UInt8} :
    store.decrypt K blob = .ok plaintext ↔ ∃ (nonce : ArrayOf UInt8 12) (ciphertext : List UInt8),
      blob = nonce.1 ++ ciphertext ∧
        K.aes256Gcm.decrypt store.cipher nonce [] ciphertext = .ok plaintext := by
  constructor
  · intro h
    by_cases hlength : blob.length < 12
    · rw [EncryptedSqliteSecretStore.decrypt, if_pos hlength] at h
      cases h
    · obtain ⟨nonce, ciphertext, rfl⟩ := exists_array_append (Nat.le_of_not_lt hlength)
      rw [decrypt_append] at h
      split at h
      · cases h
      · next plaintext' hdecrypt =>
        cases h
        exact ⟨nonce, ciphertext, rfl, hdecrypt⟩
  · rintro ⟨nonce, ciphertext, rfl, hdecrypt⟩
    rw [decrypt_append, hdecrypt]

/-- What was encrypted is decrypted. -/
theorem decrypt_encrypt (inverts : K.aes256Gcm.Inverts) {nonce : ArrayOf UInt8 12}
    {value blob : List UInt8} (h : store.encrypt K nonce value = .ok blob) :
    store.decrypt K blob = .ok value := by
  unfold EncryptedSqliteSecretStore.encrypt at h
  split at h
  · cases h
  · next ciphertext hencrypt =>
    cases h
    exact decrypt_eq_ok_iff.mpr ⟨nonce, ciphertext, rfl, inverts _ _ _ _ _ hencrypt⟩

end Blobs

/-! ## Rows -/

/-- The table of the secrets, with the constraints it was created with. -/
structure SecretsTable (db : SecretsDb) : Prop where
  schemas : (db .secrets).map Table.schema = some secretsSchema
  integrity : db.Integrity

/-- The values of a row. -/
def cells (project name : String) (value : Value) : List (Column × Value) :=
  [(.project, .text project), (.name, .text name), (.value, value)]

theorem whereSecret_iff {project name : String} {r : Row Column} :
    whereSecret project name r = true ↔ r .project = .text project ∧ r .name = .text name := by
  rw [whereSecret, Bool.and_eq_true, whereText, whereText, decide_eq_true_iff, decide_eq_true_iff]

/-- The table has every column there is. -/
theorem covers (columns : List Column) : secretsSchema.Covers columns := by
  intro c _
  cases c <;> decide

/-- Rows with the same project and the same name have the same key. -/
theorem agrees_of_texts {project name : String} {r r' : Row Column}
    (h : r .project = .text project ∧ r .name = .text name)
    (h' : r' .project = .text project ∧ r' .name = .text name) :
    Row.Agrees [.project, .name] r r' := by
  have hkey : ∀ c s, r c = .text s → r' c = .text s → r c ≠ .null ∧ r c = r' c := by
    intro c s hc hc'
    rw [hc, hc']
    exact ⟨Value.noConfusion, rfl⟩
  intro c hc
  rcases List.mem_cons.mp hc with rfl | hc
  · exact hkey _ _ h.1 h'.1
  · rw [List.mem_singleton.mp hc]
    exact hkey _ _ h.2 h'.2

theorem agrees_iff {project name : String} {value : Value} {r : Row Column} :
    Row.Agrees [.project, .name] r (Row.ofList (cells project name value)) ↔
      r .project = .text project ∧ r .name = .text name :=
  ⟨fun h => ⟨(h .project (by decide)).2, (h .name (by decide)).2⟩,
    fun h => agrees_of_texts h ⟨rfl, rfl⟩⟩

/-- The condition of the upsert is that of the query. -/
theorem withKey_eq (project name : String) (value : Value) :
    (Row.ofList (cells project name value)).withKey [.project, .name] =
      whereSecret project name := by
  funext r
  rw [Bool.eq_iff_iff, Row.withKey_iff, agrees_iff, whereSecret_iff]

namespace SecretsTable

variable {db : SecretsDb}

theorem table (h : SecretsTable db) : ∃ tbl, db .secrets = some tbl ∧ tbl.schema = secretsSchema :=
  Option.map_eq_some_iff.mp h.schemas

theorem noKeys (h : SecretsTable db) (t : TableName) : db.foreignKeys t = [] := by
  obtain ⟨tbl, ht, hschema⟩ := h.table
  cases t
  rw [Database.foreignKeys_of_some ht, hschema]
  rfl

/-- A query of columns of the table. -/
theorem select_eq (h : SecretsTable db) (columns : List Column) (p : Row Column → Bool)
    (orderBy : Option (Column × Scan Column)) :
    db.select columns .secrets p orderBy = .ok
      ((orderBy.elim ((db.rows .secrets).filter p) fun order =>
        order.2.sorted order.1 ((db.rows .secrets).filter p)).map
          fun r c => if c ∈ columns then some (r c) else none) := by
  obtain ⟨tbl, ht, hschema⟩ := h.table
  unfold Database.select
  simp only [ht]
  rw [hschema, if_neg (not_not.mpr (covers columns)), Database.rows_of_some ht]

/-- Two rows with the same project and name are no rows of the table. -/
theorem distinct (h : SecretsTable db) : (db.rows .secrets).Pairwise fun r r' =>
    ∀ project name, r .project = .text project → r .name = .text name →
      ¬ (r' .project = .text project ∧ r' .name = .text name) := by
  obtain ⟨tbl, ht, hschema⟩ := h.table
  rw [Database.rows_of_some ht]
  refine (h.integrity.sound _ tbl ht).distinct.imp fun {r r'} hapart project name hproject hname hsame =>
    hapart ⟨[.project, .name], ?_, agrees_of_texts ⟨hproject, hname⟩ hsame⟩
  rw [hschema]
  exact List.mem_singleton_self _

end SecretsTable

/-! ## Writing and removing one row -/

/-- Every row has a name that is a text. -/
def Named (db : SecretsDb) : Prop := ∀ r ∈ db.rows .secrets, ∃ name, r .name = .text name

/-- The two databases have the same row for every other secret. -/
def SameElsewhere (db db' : SecretsDb) (project name : String) : Prop :=
  ∀ project' name', ¬ (project' = project ∧ name' = name) →
    db'.first .secrets (whereSecret project' name') = db.first .secrets (whereSecret project' name')

/-- One row was written. -/
structure Wrote (db : SecretsDb) (project name : String) (value : Value) (db' : SecretsDb) : Prop where
  table : SecretsTable db'
  named : Named db → Named db'
  found : ∃ r, db'.first .secrets (whereSecret project name) = some r ∧ r .value = value
  elsewhere : SameElsewhere db db' project name

/-- One row was removed, if it was there. -/
structure Removed (db : SecretsDb) (project name : String) (db' : SecretsDb) : Prop where
  table : SecretsTable db'
  named : Named db → Named db'
  gone : db'.first .secrets (whereSecret project name) = none
  elsewhere : SameElsewhere db db' project name

/-- A row of one secret is not that of another. -/
theorem whereSecret_apart {project name project' name' : String}
    (hother : ¬ (project' = project ∧ name' = name)) {r : Row Column}
    (hr : r .project = .text project ∧ r .name = .text name) : whereSecret project' name' r = false := by
  refine Bool.eq_false_iff.mpr fun hselected => hother ?_
  obtain ⟨hproject, hname⟩ := whereSecret_iff.mp hselected
  exact ⟨Value.text.inj (hproject.symm.trans hr.1), Value.text.inj (hname.symm.trans hr.2)⟩

/-- The upsert of a row goes well. -/
theorem upsert_wrote {db : SecretsDb} (h : SecretsTable db) (project name : String) (value : Value)
    (hvalue : value ≠ .null) :
    ∃ db', db.upsert true .secrets (cells project name value) [.project, .name] [.value] = .ok db' ∧
      Wrote db project name value db' := by
  obtain ⟨tbl, ht, hschema⟩ := h.table
  have hcovers : ∀ columns, tbl.schema.Covers columns := by
    rw [hschema]
    exact covers
  have hfilled : tbl.schema.Filled (Row.ofList (cells project name value)) := by
    rw [hschema]
    intro c _
    cases c with
    | project => exact fun hnull => by cases hnull
    | name => exact fun hnull => by cases hnull
    | value => exact hvalue
  have hapart : ∀ c ∈ [Column.project, .name], c ∉ [Column.value] := by decide
  have hchildren : ∀ t', ∀ fk ∈ db.foreignKeys t', fk.parent ≠ .secrets := by
    intro t' fk hfk
    rw [h.noKeys] at hfk
    cases hfk
  obtain ⟨db', hdb'⟩ : ∃ db', db.upsert true .secrets (cells project name value) [.project, .name]
      [.value] = .ok db' :=
    Database.upsert_eq_ok h.integrity ht (by rw [hschema]; rfl) (by rw [hschema]; rfl) hchildren
      (hcovers _) hfilled (hcovers _) hapart
  refine ⟨db', hdb', ⟨?_, Database.upsert_integrity h.integrity hdb'⟩, fun hnamed => ?_, ?_, ?_⟩
  · obtain ⟨-, -, hschemas, -⟩ := Database.upsert_ok hdb'
    rw [hschemas, h.schemas]
  · refine Database.forall_rows_upsert hdb' hnamed ⟨name, rfl⟩ fun r hr => ?_
    rw [Row.assign_of_unset _ _ (by decide)]
    exact hnamed r hr
  · obtain ⟨r, hr, hset⟩ := Database.first_upsert_self (agrees_iff.mpr ⟨rfl, rfl⟩) hapart hdb'
    rw [withKey_eq] at hr
    exact ⟨r, hr, hset .value (List.mem_singleton_self _)⟩
  · intro project' name' hother
    refine Database.first_upsert_of_apart (fun r => ?_)
      (fun r hr => whereSecret_apart hother (agrees_iff.mp hr))
      (whereSecret_apart hother ⟨rfl, rfl⟩) hdb'
    rw [Bool.eq_iff_iff, whereSecret_iff, whereSecret_iff, Row.assign_of_unset _ _ (by decide),
      Row.assign_of_unset _ _ (by decide)]

/-- The deletion of a row goes well. -/
theorem delete_removed {db : SecretsDb} (h : SecretsTable db) (project name : String) :
    ∃ db', db.delete true .secrets (whereSecret project name) = .ok db' ∧
      Removed db project name db' := by
  obtain ⟨tbl, ht, -⟩ := h.table
  obtain ⟨db', hdb', hschemas, hrows⟩ := Database.delete_eq_ok_of_no_keys (p := whereSecret project name)
    h.noKeys (Option.isSome_of_eq_some ht)
  refine ⟨db', hdb', ⟨by rw [hschemas, h.schemas], Database.delete_integrity h.integrity hdb'⟩,
    fun hnamed r hr => ?_, Database.first_of_filter_self hrows, fun project' name' hother => ?_⟩
  · rw [hrows] at hr
    exact hnamed r (List.mem_filter.mp hr).1
  · exact Database.first_of_filter hrows fun r hr => whereSecret_apart hother (whereSecret_iff.mp hr)

/-! ## The operations on such a table -/

/-- What `get` makes of the row that it finds. -/
def opened (K : Crates) (store : EncryptedSqliteSecretStore) :
    Option (Row Column) → Except Failure (Option (List UInt8))
  | none => .ok none
  | some r =>
    match r .value with
    | .blob blob => (store.decrypt K blob).map some
    | other =>
      let text := K.invalidColumnType .value (some other)
      .error (secretError s!"query failed: {text}")

/-- `get` opens the first row of its secret. -/
theorem get_eq {db : SecretsDb} (h : SecretsTable db) (project name : String) :
    store.get K db project name = opened K store (db.first .secrets (whereSecret project name)) := by
  rw [EncryptedSqliteSecretStore.get, h.select_eq]
  dsimp only
  rw [Option.elim_none, List.head?_map, List.head?_filter, ← Database.first]
  cases db.first .secrets (whereSecret project name) with
  | none => rfl
  | some r =>
    rw [Option.map_some]
    dsimp only
    rw [if_pos (List.mem_singleton_self _), opened]
    cases r .value <;> rfl

/-- What opens well is no row, or the blob of one that is decrypted. -/
theorem opened_eq_ok_iff {row : Option (Row Column)} {found : Option (List UInt8)} :
    opened K store row = .ok found ↔ (row = none ∧ found = none) ∨
      ∃ r blob plaintext, row = some r ∧ r .value = .blob blob ∧
        store.decrypt K blob = .ok plaintext ∧ found = some plaintext := by
  constructor
  · intro h
    cases row with
    | none =>
      cases h
      exact .inl ⟨rfl, rfl⟩
    | some r =>
      rw [opened] at h
      cases hvalue : r .value with
      | blob blob =>
        rw [hvalue] at h
        dsimp only at h
        cases hdecrypt : store.decrypt K blob with
        | error e =>
          rw [hdecrypt] at h
          cases h
        | ok plaintext =>
          rw [hdecrypt] at h
          cases h
          exact .inr ⟨r, blob, plaintext, rfl, hvalue, hdecrypt, rfl⟩
      | null | integer _ | real _ | text _ =>
        rw [hvalue] at h
        cases h
  · rintro (⟨rfl, rfl⟩ | ⟨r, blob, plaintext, rfl, hvalue, hdecrypt, rfl⟩)
    · rfl
    · rw [opened, hvalue]
      dsimp only
      rw [hdecrypt]
      rfl

/-- The name of a row, if it is a text. -/
def nameOf (r : Row Column) : String :=
  match r .name with
  | .text name => name
  | _ => ""

/-- The names of a project's rows. -/
def namesIn (db : SecretsDb) (project : String) : List String :=
  ((db.rows .secrets).filter (whereText .project project)).map nameOf

theorem nameOf_eq {db : SecretsDb} (hnamed : Named db) {r : Row Column} (hr : r ∈ db.rows .secrets) :
    r .name = .text (nameOf r) := by
  obtain ⟨name, hname⟩ := hnamed r hr
  rw [nameOf, hname]

/-- A sorted list of texts is in their order. -/
private theorem ordered_mergeSort (l : List String) : l.mergeSort.Pairwise fun a b => a ≤ b := by
  have hsorted : l.mergeSort.Pairwise fun a b => decide (a ≤ b) = true := by
    refine List.pairwise_mergeSort (fun a b c hab hbc => ?_) (fun a b => ?_) l
    · exact decide_eq_true (Std.le_trans (of_decide_eq_true hab) (of_decide_eq_true hbc))
    · rw [Bool.or_eq_true, decide_eq_true_iff, decide_eq_true_iff]
      exact Std.le_total
  exact hsorted.imp fun hle => of_decide_eq_true hle

/-- Texts that are sorted are so in one way. -/
private theorem mergeSort_congr {l l' : List String} (h : l.Perm l') : l.mergeSort = l'.mergeSort := by
  have hperm : l.mergeSort.Perm l'.mergeSort :=
    (List.mergeSort_perm _ _).trans (h.trans (List.mergeSort_perm _ _).symm)
  exact hperm.eq_of_pairwise (fun _ _ _ _ hab hba => String.le_antisymm hab hba) (ordered_mergeSort l)
    (ordered_mergeSort l')

/-- `list` sorts the names of a project's rows. -/
theorem list_eq {db : SecretsDb} (h : SecretsTable db) (hnamed : Named db) (scan : Scan Column)
    (project : String) :
    EncryptedSqliteSecretStore.list K scan db project = .ok (namesIn db project).mergeSort := by
  have hname : ∀ r ∈ scan.order ((db.rows .secrets).filter (whereText .project project)),
      r .name = .text (nameOf r) := fun r hr =>
    nameOf_eq hnamed (List.mem_filter.mp ((scan.perm _).mem_iff.mp hr)).1
  rw [EncryptedSqliteSecretStore.list, h.select_eq]
  dsimp only
  rw [Option.elim_some, List.mapM_map, mapM_eq_ok (g := nameOf), namesIn, Scan.sorted, List.map_mergeSort]
  · exact congrArg Except.ok (mergeSort_congr ((scan.perm _).map nameOf))
  · intro r hr r' hr'
    rw [hname r hr, hname r' hr']
    rfl
  · intro r hr
    rw [Function.comp_apply]
    dsimp only
    rw [if_pos (List.mem_singleton_self _), hname r (List.mem_mergeSort.mp hr)]

/-- The names of a project's rows are those of its secrets. -/
theorem mem_namesIn_iff {db : SecretsDb} (hnamed : Named db) {project name : String} :
    name ∈ namesIn db project ↔ (db.first .secrets (whereSecret project name)).isSome := by
  rw [Database.first, List.find?_isSome, namesIn, List.mem_map]
  constructor
  · rintro ⟨r, hr, rfl⟩
    obtain ⟨hmem, hproject⟩ := List.mem_filter.mp hr
    exact ⟨r, hmem, whereSecret_iff.mpr ⟨of_decide_eq_true hproject, nameOf_eq hnamed hmem⟩⟩
  · rintro ⟨r, hmem, hr⟩
    obtain ⟨hproject, hname⟩ := whereSecret_iff.mp hr
    refine ⟨r, List.mem_filter.mpr ⟨hmem, decide_eq_true hproject⟩, ?_⟩
    rw [nameOf, hname]

/-- No two rows of a project have the same name. -/
theorem nodup_namesIn {db : SecretsDb} (h : SecretsTable db) (hnamed : Named db) (project : String) :
    (namesIn db project).Nodup := by
  refine List.pairwise_map.mpr ((h.distinct.filter _).imp_of_mem ?_)
  intro r r' hr hr' hdistinct hsame
  obtain ⟨hmem, hproject⟩ := List.mem_filter.mp hr
  obtain ⟨hmem', hproject'⟩ := List.mem_filter.mp hr'
  exact hdistinct project (nameOf r) (of_decide_eq_true hproject) (nameOf_eq hnamed hmem)
    ⟨of_decide_eq_true hproject', by rw [nameOf_eq hnamed hmem', hsame]⟩

/-- A sorted list without repetitions ascends. -/
private theorem ascending_mergeSort {l : List String} (h : l.Nodup) : l.mergeSort.Pairwise (· < ·) := by
  have hnodup : l.mergeSort.Nodup := (List.mergeSort_perm _ _).nodup_iff.mpr h
  exact (ordered_mergeSort l).imp₂ (fun a b hle hne => lt_of_le_of_ne hle hne) hnodup

/-- `set` writes the row of its secret, unless the value is not encrypted. -/
theorem set_spec (K : Crates) (store : EncryptedSqliteSecretStore) {db : SecretsDb}
    (h : SecretsTable db) (nonce : ArrayOf UInt8 12)
    (project name : String) (value : List UInt8) :
    (∃ e, store.encrypt K nonce value = .error e ∧
      store.set K db nonce project name value = (db, .error e)) ∨
    ∃ blob db', store.encrypt K nonce value = .ok blob ∧
      store.set K db nonce project name value = (db', .ok ()) ∧
      Wrote db project name (.blob blob) db' := by
  unfold EncryptedSqliteSecretStore.set
  cases store.encrypt K nonce value with
  | error e => exact .inl ⟨e, rfl, rfl⟩
  | ok blob =>
    obtain ⟨db', hdb', hwrote⟩ := upsert_wrote h project name (.blob blob) fun hnull => by cases hnull
    rw [cells] at hdb'
    refine .inr ⟨blob, db', rfl, ?_, hwrote⟩
    dsimp only
    rw [hdb']

/-- `delete` removes the row of its secret. -/
theorem delete_spec (K : Crates) {db : SecretsDb} (h : SecretsTable db) (project name : String) :
    ∃ db', EncryptedSqliteSecretStore.delete K db project name = (db', .ok ()) ∧
      Removed db project name db' := by
  obtain ⟨db', hdb', hremoved⟩ := delete_removed h project name
  refine ⟨db', ?_, hremoved⟩
  rw [EncryptedSqliteSecretStore.delete, hdb']

/-! ## Runs -/

/-- The secret that a call writes. -/
def SecretOp.target : SecretOp → Option (String × String)
  | .set project name _ _ => some (project, name)
  | .delete project name => some (project, name)
  | .get .. => none
  | .list .. => none

/-- What a call leaves the secret at that it writes. -/
def SecretOp.written : SecretOp → Option (List UInt8)
  | .set _ _ value _ => some value
  | _ => none

/-- The value of the last `set` of a secret that went well, unless a `delete`
that went well followed. The calls are in order, newest first. -/
def current : List (SecretOp × Outcome) → String → String → Option (List UInt8)
  | [], _, _ => none
  | (op, .ok _) :: made, project, name =>
    if op.target = some (project, name) then op.written else current made project name
  | (_, .error _) :: made, project, name => current made project name

theorem current_target {op : SecretOp} {reply : Reply} {made : List (SecretOp × Outcome)}
    {project name : String} (h : op.target = some (project, name)) :
    current ((op, .ok reply) :: made) project name = op.written := if_pos h

theorem current_of_ne {op : SecretOp} {outcome : Outcome} {made : List (SecretOp × Outcome)}
    {project name : String} (h : op.target ≠ some (project, name)) :
    current ((op, outcome) :: made) project name = current made project name := by
  cases outcome with
  | ok reply => exact if_neg h
  | error e => rfl

/-- What a call does to the table. -/
inductive Effect (K : Crates) (store : EncryptedSqliteSecretStore) (db : SecretsDb) :
    SecretOp → Outcome → SecretsDb → Prop
  | reads {op : SecretOp} {outcome : Outcome} (none : op.target = none) : Effect K store db op outcome db
  | fails (op : SecretOp) (e : Failure) : Effect K store db op (.error e) db
  | wrote {project name : String} {value blob : List UInt8} {nonce : ArrayOf UInt8 12}
      {db' : SecretsDb} (encrypted : store.encrypt K nonce value = .ok blob)
      (row : Wrote db project name (.blob blob) db') :
      Effect K store db (.set project name value nonce) (.ok .unit) db'
  | removed {project name : String} {db' : SecretsDb} (row : Removed db project name db') :
      Effect K store db (.delete project name) (.ok .unit) db'

theorem Step.effect {db db' : SecretsDb} {op : SecretOp} {outcome : Outcome} (h : SecretsTable db)
    (hstep : Step K store db op outcome db') : Effect K store db op outcome db' := by
  cases hstep with
  | fault text => exact .fails op _
  | run scan =>
    cases op with
    | get project name => exact .reads rfl
    | list project => exact .reads rfl
    | set project name value nonce =>
      rcases set_spec K store h nonce project name value with
        ⟨e, -, hset⟩ | ⟨blob, db', hencrypt, hset, hwrote⟩
      · rw [SecretOp.run, hset]
        exact .fails _ e
      · rw [SecretOp.run, hset]
        exact .wrote hencrypt hwrote
    | delete project name =>
      obtain ⟨db', hdelete, hremoved⟩ := delete_spec K h project name
      rw [SecretOp.run, hdelete]
      exact .removed hremoved

/-- A call leaves the row of every secret that it does not write. -/
theorem Effect.same {db db' : SecretsDb} {op : SecretOp} {outcome : Outcome}
    (h : Effect K store db op outcome db') {project name : String}
    (hother : op.target ≠ some (project, name)) :
    db'.first .secrets (whereSecret project name) = db.first .secrets (whereSecret project name) := by
  cases h with
  | reads => rfl
  | fails => rfl
  | wrote encrypted row => exact row.elsewhere _ _ fun hsame => hother (by rw [hsame.1, hsame.2]; rfl)
  | removed row => exact row.elsewhere _ _ fun hsame => hother (by rw [hsame.1, hsame.2]; rfl)

/-- The table holds these secrets. -/
structure Represents (K : Crates) (store : EncryptedSqliteSecretStore) (db : SecretsDb)
    (secrets : String → String → Option (List UInt8)) : Prop where
  table : SecretsTable db
  named : Named db
  holds : ∀ project name,
    opened K store (db.first .secrets (whereSecret project name)) = .ok (secrets project name)

theorem Represents.step (inverts : K.aes256Gcm.Inverts) {made : List (SecretOp × Outcome)}
    {db db' : SecretsDb} {op : SecretOp} {outcome : Outcome} (h : Represents K store db (current made))
    (hstep : Step K store db op outcome db') :
    Represents K store db' (current ((op, outcome) :: made)) := by
  have heffect := hstep.effect h.table
  refine ⟨?_, ?_, fun project name => ?_⟩
  · cases heffect with
    | reads => exact h.table
    | fails => exact h.table
    | wrote encrypted row => exact row.table
    | removed row => exact row.table
  · cases heffect with
    | reads => exact h.named
    | fails => exact h.named
    | wrote encrypted row => exact row.named h.named
    | removed row => exact row.named h.named
  · by_cases htarget : op.target = some (project, name)
    · cases heffect with
      | reads none => cases none.symm.trans htarget
      | fails => exact h.holds project name
      | wrote encrypted row =>
        cases htarget
        obtain ⟨r, hfound, hvalue⟩ := row.found
        rw [hfound, current_target rfl, opened_eq_ok_iff]
        exact .inr ⟨r, _, _, rfl, hvalue, decrypt_encrypt inverts encrypted, rfl⟩
      | removed row =>
        cases htarget
        rw [row.gone, current_target rfl]
        rfl
    · rw [heffect.same htarget, current_of_ne htarget, h.holds]

/-- The table of a new store is empty. -/
theorem new_empty {db : SecretsDb}
    (h : EncryptedSqliteSecretStore.new K (fun _ => none) store.cipher = .ok (store, db)) :
    SecretsTable db ∧ db.rows .secrets = [] := by
  rw [EncryptedSqliteSecretStore.new, Database.createTable] at h
  cases h
  have htable : Function.update (fun _ => none : SecretsDb) .secrets (some ⟨secretsSchema, []⟩)
      .secrets = some ⟨secretsSchema, []⟩ := Function.update_self ..
  have hrows : ∀ t, Database.rows (Function.update (fun _ => none : SecretsDb) .secrets
      (some ⟨secretsSchema, []⟩)) t = [] := by
    intro t
    cases t
    rw [Database.rows_of_some htable]
  refine ⟨⟨by rw [htable]; rfl, fun t tbl ht => ?_, fun t fk _ r hr => ?_⟩, hrows _⟩
  · cases t
    cases htable.symm.trans ht
    exact ⟨fun r hr => absurd hr List.not_mem_nil, fun r hr => absurd hr List.not_mem_nil, .nil⟩
  · rw [hrows] at hr
    cases hr

/-- A store that finds its table leaves the database alone. -/
theorem new_same {db db' : SecretsDb} (htable : SecretsTable db)
    (h : EncryptedSqliteSecretStore.new K db store.cipher = .ok (store, db')) : db' = db := by
  obtain ⟨tbl, ht, -⟩ := htable.table
  rw [EncryptedSqliteSecretStore.new, Database.createTable, ht] at h
  cases h
  rfl

/-- In every run the table holds the secrets that are set. -/
theorem Calls.represents (inverts : K.aes256Gcm.Inverts) {made : List (SecretOp × Outcome)}
    {db : SecretsDb} (h : Calls K store made db) : Represents K store db (current made) := by
  induction h with
  | new hnew =>
    obtain ⟨htable, hrows⟩ := new_empty hnew
    refine ⟨htable, fun r hr => ?_, fun project name => ?_⟩
    · rw [hrows] at hr
      cases hr
    · rw [Database.first, hrows]
      rfl
  | call _ hstep ih => exact ih.step inverts hstep
  | restart _ hnew ih => exact (new_same ih.table hnew).symm ▸ ih

namespace Represents

variable {db db' : SecretsDb} {secrets secrets' : String → String → Option (List UInt8)}

theorem get (h : Represents K store db secrets) (project name : String) :
    store.get K db project name = .ok (secrets project name) := by
  rw [get_eq h.table, h.holds]

/-- A secret is set when its row is there. -/
theorem isSome_iff (h : Represents K store db secrets) {project name : String} :
    (db.first .secrets (whereSecret project name)).isSome ↔ (secrets project name).isSome := by
  rcases opened_eq_ok_iff.mp (h.holds project name) with
    ⟨hrow, hsecret⟩ | ⟨r, blob, plaintext, hrow, -, -, hsecret⟩
  · rw [hrow, hsecret]
    exact Iff.rfl
  · rw [hrow, hsecret]
    exact iff_of_true rfl rfl

/-- `list` answers the names that are set, once each and ascending. -/
theorem list (h : Represents K store db secrets) (scan : Scan Column) (project : String) :
    ∃ names, EncryptedSqliteSecretStore.list K scan db project = .ok names ∧ names.Pairwise (· < ·) ∧
      ∀ name, name ∈ names ↔ (secrets project name).isSome := by
  refine ⟨_, list_eq h.table h.named scan project,
    ascending_mergeSort (nodup_namesIn h.table h.named project), fun name => ?_⟩
  rw [List.mem_mergeSort, mem_namesIn_iff h.named, h.isSome_iff]

end Represents

/-- A `set` whose value is encrypted may come next. -/
theorem Calls.set {made : List (SecretOp × Outcome)} {db : SecretsDb}
    (inverts : K.aes256Gcm.Inverts) (h : Calls K store made db) (project name : String)
    (value : List UInt8) (nonce : ArrayOf UInt8 12) {blob : List UInt8}
    (hencrypt : store.encrypt K nonce value = .ok blob) :
    ∃ db', Calls K store ((.set project name value nonce, .ok .unit) :: made) db' := by
  rcases set_spec K store (h.represents inverts).table nonce project name value with
    ⟨e, hfails, -⟩ | ⟨blob', db', -, hset, -⟩
  · cases hencrypt.symm.trans hfails
  · have hstep : Step K store db (.set project name value nonce) _ _ := .run .inserted
    rw [SecretOp.run, hset] at hstep
    exact ⟨db', .call h hstep⟩

/-- Crates with a cipher that hides nothing. -/
def plainCrates : Crates where
  aes256Gcm := .plain 32 12
  sqlError _ := "database error"
  invalidColumnType _ _ := "Invalid column type"

/-- A store with the key of zeros. -/
def zeroStore : EncryptedSqliteSecretStore := ⟨⟨List.replicate 32 0, rfl⟩⟩

/-- A nonce of one byte, again and again. -/
def nonceOf (byte : UInt8) : ArrayOf UInt8 12 := ⟨List.replicate 12 byte, rfl⟩

theorem zeroStore_new : ∃ db, Calls plainCrates zeroStore [] db := ⟨_, .new rfl⟩

end Nexad.Secrets
