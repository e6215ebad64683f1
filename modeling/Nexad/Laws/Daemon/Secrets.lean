import Nexad.Daemon.Secrets
import Nexad.Laws.Crypto.MasterKey

/-!
# Secrets survive the daemon

Every life of a daemon that comes to serve has the same key, because the key
file is never replaced once a key was returned from it. So the stores of all
its lives are one store that was opened again (`Lives.calls`), and what `Calls`
says of that one holds across lives.
-/

namespace Nexad.Daemon

open Interleave Crypto
open Nexad.State (Failure)
open Nexad.Secrets

variable {K : Secrets.Crates} {dataDir : String} {made : List (SecretOp × Outcome)}
  {serving : Option EncryptedSqliteSecretStore} {s s' : DataDir}

/-- What `load_or_generate` leaves, cut off or not. -/
def Touched (dataDir : String) (s s' : DataDir) : Prop :=
  Left dataDir s s' ∨ ∃ r, Load dataDir s r s'

theorem left_secrets (h : Left dataDir s s') : s'.secrets = s.secrets := by
  cases h <;> rfl

theorem Touched.secrets (h : Touched dataDir s s') : s'.secrets = s.secrets := by
  rcases h with hleft | ⟨r, hload⟩
  · exact left_secrets hleft
  · cases hload with
    | loaded => rfl
    | unread => rfl
    | generated => rfl
    | failed _ _ hleft => exact left_secrets hleft

theorem Touched.of_file {file : File} (there : s.files.lookup (keyPath dataDir) = some file)
    (h : Touched dataDir s s') : s' = s := by
  rcases h with hleft | ⟨r, hload⟩
  · exact hleft.same_of_file there
  · exact (hload.of_file there).1

/-- The spec of `init_secrets`: either no store serves, and the database is as
it was, or there is a key, and the store of that key serves. -/
theorem initSecrets_moves {calls : List ((op : StartOp) × startSig.Ans op)}
    {q : Prog startSig (Except StartError EncryptedSqliteSecretStore)}
    (h : (initSecrets dataDir).Moves (DataDir.SeenAnswer K) s calls q s') :
    (Touched dataDir s s' ∧ q.result.bind Except.toOption = none) ∨
    ∃ key mid store db, Load dataDir s (.ok key) mid ∧
      EncryptedSqliteSecretStore.new K mid.secrets key = .ok (store, db) ∧
      s' = { mid with secrets := db } ∧ q.result.bind Except.toOption = some store := by
  rcases loadOrGenerate_moves h with ⟨hnone, hleft⟩ | ⟨r, mid, rest, hload, hrest⟩
  · exact .inl ⟨.inl hleft, by rw [hnone, Option.bind_none]⟩
  · have htouched : Touched dataDir s mid := .inr ⟨r, hload⟩
    cases r with
    | error e =>
      cases hrest
      exact .inl ⟨htouched, rfl⟩
    | ok key =>
      cases hrest with
      | refl => exact .inl ⟨htouched, rfl⟩
      | call opened hrest =>
        obtain ⟨opened, -⟩ := opened
        cases opened with
        | openConnectionFailed =>
          cases hrest
          exact .inl ⟨htouched, rfl⟩
        | openConnection =>
          cases hrest with
          | refl => exact .inl ⟨htouched, rfl⟩
          | call created hrest =>
            obtain ⟨created, -⟩ := created
            cases created with
            | newStoreFailed =>
              cases hrest
              exact .inl ⟨htouched, rfl⟩
            | newStore hnew =>
              cases hrest
              exact .inr ⟨key, mid, _, _, hload, hnew, rfl, rfl⟩

/-- A store that was made has the key it was made with. -/
theorem new_store {db db' : SecretsDb} {key : Key} {store : EncryptedSqliteSecretStore}
    (h : EncryptedSqliteSecretStore.new K db key = .ok (store, db')) : store = ⟨key⟩ := by
  unfold EncryptedSqliteSecretStore.new at h
  split at h
  · cases h
  · cases h
    rfl

/-- What holds between any two steps: the table of the secrets is still to be
made, or the key file holds the key of every store there has been. -/
inductive Serves (K : Secrets.Crates) (dataDir : String) :
    List (SecretOp × Outcome) → Option EncryptedSqliteSecretStore → DataDir → Prop
  | before {s : DataDir} (empty : s.secrets = fun _ => none) : Serves K dataDir [] none s
  | after {made : List (SecretOp × Outcome)} {serving : Option EncryptedSqliteSecretStore}
      {s : DataDir} {key : Key} {mode : Nat}
      (held : s.files.lookup (keyPath dataDir) = some ⟨key.1, mode⟩)
      (calls : Calls K ⟨key⟩ made s.secrets) (one : ∀ store, serving = some store → store = ⟨key⟩) :
      Serves K dataDir made serving s

theorem Serves.start {calls : List ((op : StartOp) × startSig.Ans op)}
    {q : Prog startSig (Except StartError EncryptedSqliteSecretStore)}
    (h : Serves K dataDir made serving s)
    (hmoves : (initSecrets dataDir).Moves (DataDir.SeenAnswer K) s calls q s') :
    Serves K dataDir made (q.result.bind Except.toOption) s' := by
  rcases initSecrets_moves hmoves with ⟨htouched, hnone⟩ | ⟨key, mid, store, db, hload, hnew, rfl, hstore⟩
  · rw [hnone]
    cases h with
    | before empty => exact .before (htouched.secrets.trans empty)
    | after held calls =>
      obtain rfl := htouched.of_file held
      exact .after held calls fun _ h => by cases h
  · obtain rfl := new_store hnew
    have hsecrets : mid.secrets = s.secrets := Touched.secrets (.inr ⟨_, hload⟩)
    have hsame : ∀ store, some (⟨key⟩ : EncryptedSqliteSecretStore) = some store → store = ⟨key⟩ :=
      fun _ h => (Option.some.inj h).symm
    obtain ⟨mode, hheld⟩ := hload.of_key
    rw [hstore]
    cases h with
    | before empty =>
      rw [hsecrets, empty] at hnew
      exact .after hheld (.new hnew) hsame
    | @after _ _ _ key₁ _ held calls =>
      -- the key file is what it was, and so is the key
      obtain ⟨rfl, hnow⟩ := hload.of_file held
      obtain rfl : key = key₁ := by
        rw [held] at hheld
        exact Subtype.ext (congrArg File.content (Option.some.inj hheld)).symm
      exact .after held (calls.restart hnew) hsame

theorem Lives.serves (h : Lives K dataDir made serving s) : Serves K dataDir made serving s := by
  induction h with
  | fresh empty => exact .before empty
  | start _ hmoves ih => exact ih.start hmoves
  | call _ hstep ih =>
    cases ih with
    | after held calls one =>
      obtain rfl := one _ rfl
      exact .after held (calls.call hstep) one

/-- The store that serves is the one store of all calls. -/
theorem Lives.calls {store : EncryptedSqliteSecretStore} (h : Lives K dataDir made (some store) s) :
    Calls K store made s.secrets := by
  cases h.serves with
  | after held calls one =>
    obtain rfl := one _ rfl
    exact calls

/-- A store that serves may serve a `set` whose value is encrypted. -/
theorem Lives.set (inverts : K.aes256Gcm.Inverts) {store : EncryptedSqliteSecretStore}
    (h : Lives K dataDir made (some store) s) (project name : String) (value : List UInt8)
    (nonce : Slice.ArrayOf UInt8 12) {blob : List UInt8}
    (hencrypt : store.encrypt K nonce value = .ok blob) : ∃ db,
    Lives K dataDir ((.set project name value nonce, .ok .unit) :: made) (some store)
      { s with secrets := db } := by
  rcases set_spec K store (h.calls.represents inverts).table nonce project name value with
    ⟨e, hfails, -⟩ | ⟨blob', db, -, hset, -⟩
  · cases hencrypt.symm.trans hfails
  · have hstep : Step K store s.secrets (.set project name value nonce) _ _ := .run .inserted
    rw [SecretOp.run, hset] at hstep
    exact ⟨db, h.call hstep⟩

end Nexad.Daemon
