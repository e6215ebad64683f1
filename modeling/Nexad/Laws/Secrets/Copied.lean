import Nexad.Laws.Secrets.Encrypted

/-!
# A blob in another row

What is encrypted says nothing of the secret it belongs to: the store gives
the cipher no associated data. So a blob opens in every row as it does in its
own (`get_of_copied`). Only the key is bound: a row opens if and only if its
blob is a nonce and what the cipher made under this nonce and the store's key
(`get_eq_some_iff`).
-/

namespace Nexad.Secrets

open Relational Slice
open Nexad.State (Failure)

variable {K : Crates} {store : EncryptedSqliteSecretStore} {db db' : SecretsDb}
  {project name project' name' : String}

/-- Someone who can only write the database puts the blob of one secret into
the row of another. -/
def Copied (db : SecretsDb) (project name project' name' : String) (db' : SecretsDb) : Prop :=
  ∃ r, db.first .secrets (whereSecret project name) = some r ∧
    db.upsert true .secrets (cells project' name' (r .value)) [.project, .name] [.value] = .ok db'

/-- The row of a secret holds a nonce and what the cipher makes of this
plaintext under the store's key. -/
def Sealed (K : Crates) (store : EncryptedSqliteSecretStore) (db : SecretsDb)
    (project name : String) (plaintext : List UInt8) : Prop :=
  ∃ (r : Row Column) (nonce : ArrayOf UInt8 12) (ciphertext : List UInt8),
    db.first .secrets (whereSecret project name) = some r ∧ r .value = .blob (nonce.1 ++ ciphertext) ∧
      K.aes256Gcm.encrypt store.cipher nonce [] plaintext = .ok ciphertext

/-- A row of the table has a value. -/
theorem SecretsTable.value_ne_null (h : SecretsTable db) {r : Row Column}
    (hr : db.first .secrets (whereSecret project name) = some r) : r .value ≠ .null := by
  obtain ⟨tbl, ht, hschema⟩ := h.table
  have hmem := List.mem_of_find?_eq_some hr
  rw [Database.rows_of_some ht] at hmem
  refine (h.integrity.sound _ tbl ht).filled r hmem .value ?_
  rw [hschema]
  decide

/-- The copy is one written row. -/
theorem Copied.wrote (h : SecretsTable db) (hcopied : Copied db project name project' name' db') :
    ∃ r, db.first .secrets (whereSecret project name) = some r ∧
      Wrote db project' name' (r .value) db' := by
  obtain ⟨r, hr, hupsert⟩ := hcopied
  obtain ⟨db'', hdone, hwrote⟩ := upsert_wrote h project' name' _ (h.value_ne_null hr)
  cases hupsert.symm.trans hdone
  exact ⟨r, hr, hwrote⟩

/-- A row that is there can be copied. -/
theorem exists_copied (h : SecretsTable db) (project' name' : String)
    (hrow : (db.first .secrets (whereSecret project name)).isSome) :
    ∃ db', Copied db project name project' name' db' := by
  obtain ⟨r, hr⟩ := Option.isSome_iff_exists.mp hrow
  obtain ⟨db', hdb', -⟩ := upsert_wrote h project' name' _ (h.value_ne_null hr)
  exact ⟨db', r, hr, hdb'⟩

/-- What a row opens to depends on its value alone. -/
theorem opened_congr {r r' : Row Column} (h : r' .value = r .value) :
    opened K store (some r') = opened K store (some r) := by
  rw [opened, opened, h]

/-- The copy opens as the row it was copied from. -/
theorem get_of_copied (h : SecretsTable db) (hcopied : Copied db project name project' name' db') :
    store.get K db' project' name' = store.get K db project name := by
  obtain ⟨r, hr, hwrote⟩ := hcopied.wrote h
  obtain ⟨r', hr', hvalue⟩ := hwrote.found
  rw [get_eq hwrote.table, get_eq h, hr, hr', opened_congr hvalue]

/-- A secret opens if and only if its row was made under the store's key. -/
theorem get_eq_some_iff (inverts : K.aes256Gcm.Inverts) (authentic : K.aes256Gcm.Authentic)
    (h : SecretsTable db) {plaintext : List UInt8} :
    store.get K db project name = .ok (some plaintext) ↔ Sealed K store db project name plaintext := by
  rw [get_eq h, opened_eq_ok_iff]
  constructor
  · rintro (⟨-, hfound⟩ | ⟨r, blob, found, hrow, hvalue, hdecrypt, hfound⟩)
    · cases hfound
    · cases hfound
      obtain ⟨nonce, ciphertext, rfl, hopens⟩ := decrypt_eq_ok_iff.mp hdecrypt
      exact ⟨r, nonce, ciphertext, hrow, hvalue, (Aead.decrypt_eq_ok_iff inverts authentic).mp hopens⟩
  · rintro ⟨r, nonce, ciphertext, hrow, hvalue, hencrypt⟩
    exact .inr ⟨r, _, plaintext, hrow, hvalue,
      decrypt_eq_ok_iff.mpr ⟨nonce, ciphertext, rfl, inverts _ _ _ _ _ hencrypt⟩, rfl⟩

/-- A row that does not open is an error. -/
theorem get_of_not_sealed (inverts : K.aes256Gcm.Inverts) (authentic : K.aes256Gcm.Authentic)
    (h : SecretsTable db) (hrow : (db.first .secrets (whereSecret project name)).isSome)
    (hnot : ∀ plaintext, ¬ Sealed K store db project name plaintext) :
    ∃ e, store.get K db project name = .error e := by
  cases hget : store.get K db project name with
  | error e => exact ⟨e, rfl⟩
  | ok found =>
    cases found with
    | none =>
      rw [get_eq h, opened_eq_ok_iff] at hget
      rcases hget with ⟨hnone, -⟩ | ⟨r, blob, plaintext, -, -, -, hsome⟩
      · rw [hnone] at hrow
        cases hrow
      · cases hsome
    | some plaintext => exact absurd ((get_eq_some_iff inverts authentic h).mp hget) (hnot plaintext)

/-- SECRETS ARE BOUND TO THE KEY, NOT TO THEIR NAMES. A blob that is copied
into the row of another secret opens there as it does in its own row: to the
plaintext it was made of under the store's key, or, if it was not, to an error.
The other rows open as before. -/
theorem copied_secret_opens (inverts : K.aes256Gcm.Inverts) (authentic : K.aes256Gcm.Authentic)
    (h : SecretsTable db) (hcopied : Copied db project name project' name' db') :
    store.get K db' project' name' = store.get K db project name ∧
    (∀ plaintext, store.get K db' project' name' = .ok (some plaintext) ↔
      Sealed K store db project name plaintext) ∧
    ((∀ plaintext, ¬ Sealed K store db project name plaintext) →
      ∃ e, store.get K db' project' name' = .error e) ∧
    ∀ project'' name'', ¬ (project'' = project' ∧ name'' = name') →
      store.get K db' project'' name'' = store.get K db project'' name'' := by
  obtain ⟨r, hr, hwrote⟩ := hcopied.wrote h
  refine ⟨get_of_copied h hcopied, fun plaintext => ?_, fun hnot => ?_, fun project'' name'' hother => ?_⟩
  · rw [get_of_copied h hcopied, get_eq_some_iff inverts authentic h]
  · rw [get_of_copied h hcopied]
    exact get_of_not_sealed inverts authentic h (Option.isSome_of_eq_some hr) hnot
  · rw [get_eq hwrote.table, get_eq h, hwrote.elsewhere _ _ hother]

/-- Two secrets of two projects, and the first copied over the second. -/
private theorem exists_copied_over : ∃ db db', Calls plainCrates zeroStore
      [(.set "app2" "PUBLIC" [2] (nonceOf 1), .ok .unit),
        (.set "app1" "DB_PASS" [1] (nonceOf 0), .ok .unit)] db ∧
    SecretsTable db ∧ zeroStore.get plainCrates db "app1" "DB_PASS" = .ok (some [1]) ∧
    Copied db "app1" "DB_PASS" "app2" "PUBLIC" db' := by
  obtain ⟨db₀, h₀⟩ := zeroStore_new
  obtain ⟨db₁, h₁⟩ := h₀.set Aead.plain_inverts "app1" "DB_PASS" [1] (nonceOf 0) rfl
  obtain ⟨db, h⟩ := h₁.set Aead.plain_inverts "app2" "PUBLIC" [2] (nonceOf 1) rfl
  have hnow := h.represents Aead.plain_inverts
  have hget := hnow.get "app1" "DB_PASS"
  rw [current_of_ne (by decide), current_target rfl] at hget
  have hrow : (db.first .secrets (whereSecret "app1" "DB_PASS")).isSome := by
    rw [hnow.isSome_iff, current_of_ne (by decide), current_target rfl]
    rfl
  obtain ⟨db', hcopied⟩ := exists_copied hnow.table "app2" "PUBLIC" hrow
  exact ⟨db, db', h, hnow.table, hget, hcopied⟩

theorem copied_secret_opens_app2 : ∃ db db',
    Copied db "app1" "DB_PASS" "app2" "PUBLIC" db' ∧
    Sealed plainCrates zeroStore db "app1" "DB_PASS" [1] ∧
    zeroStore.get plainCrates db' "app2" "PUBLIC" = zeroStore.get plainCrates db "app1" "DB_PASS" := by
  obtain ⟨db, db', -, htable, hget, hcopied⟩ := exists_copied_over
  obtain ⟨hsame, hopens, -⟩ : zeroStore.get plainCrates db' "app2" "PUBLIC" = _ ∧ _ :=
    copied_secret_opens Aead.plain_inverts Aead.plain_authentic htable hcopied
  exact ⟨db, db', hcopied, (hopens [1]).mp (hsame.trans hget), hsame⟩

/-- The password of one project is read as the public text of another. -/
theorem copied_secret_is_read : plainCrates.aes256Gcm.Inverts ∧ plainCrates.aes256Gcm.Authentic ∧
    ∃ db db', Calls plainCrates zeroStore
        [(.set "app2" "PUBLIC" [2] (nonceOf 1), .ok .unit),
          (.set "app1" "DB_PASS" [1] (nonceOf 0), .ok .unit)] db ∧
      Copied db "app1" "DB_PASS" "app2" "PUBLIC" db' ∧
      zeroStore.get plainCrates db' "app2" "PUBLIC" = .ok (some [1]) := by
  obtain ⟨db, db', h, htable, hget, hcopied⟩ := exists_copied_over
  exact ⟨Aead.plain_inverts, Aead.plain_authentic, db, db', h, hcopied,
    (get_of_copied htable hcopied).trans hget⟩

end Nexad.Secrets
