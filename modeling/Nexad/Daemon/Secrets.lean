import Nexad.Crypto.MasterKey

/-!
# The secrets of a daemon

`init_secrets` of `main.rs`: a start loads the master key or makes one, opens
`secrets.db` and creates the store. `Lives` are the lives of a daemon on one
data directory, with the calls its stores have served.
-/

namespace Nexad.Daemon

open Interleave Crypto
open Nexad.State (Failure)
open Nexad.Secrets (SecretsDb SecretOp Outcome EncryptedSqliteSecretStore)

/-- Why there is no store. -/
inductive StartError where
  | failure (e : Failure)
  | other (text : String)
  deriving DecidableEq, Repr

/-- Open the database, and create the store of the key. -/
def openStore (dataDir : String) (masterKey : Key) :
    Prog startSig (Except StartError EncryptedSqliteSecretStore) :=
  .call (.openConnection s!"{dataDir}/secrets.db") fun
    | .error e => .ret (.error (.other s!"failed to open secrets db: {e}"))
    | .ok () => .call (.newStore masterKey) fun
      | .error e => .ret (.error (.failure e))
      | .ok store => .ret (.ok store)

/-- `init_secrets`. -/
def initSecrets (dataDir : String) : Prog startSig (Except StartError EncryptedSqliteSecretStore) :=
  loadOrGenerate dataDir fun
    | .error e => .ret (.error (.failure e))
    | .ok masterKey => openStore dataDir masterKey

/-- The lives of a daemon: the calls of all its stores, newest first, each with
its end, and the store that serves now. A life ends with the next start, at any
moment. -/
inductive Lives (K : Secrets.Crates) (dataDir : String) :
    List (SecretOp × Outcome) → Option EncryptedSqliteSecretStore → DataDir → Prop
  | fresh {s : DataDir} (empty : s.secrets = fun _ => none) : Lives K dataDir [] none s
  | start {made : List (SecretOp × Outcome)} {serving : Option EncryptedSqliteSecretStore}
      {s s' : DataDir} {calls : List ((op : StartOp) × startSig.Ans op)}
      {q : Prog startSig (Except StartError EncryptedSqliteSecretStore)} :
      Lives K dataDir made serving s →
      (initSecrets dataDir).Moves (DataDir.SeenAnswer K) s calls q s' →
      Lives K dataDir made (q.result.bind Except.toOption) s'
  | call {made : List (SecretOp × Outcome)} {store : EncryptedSqliteSecretStore} {s : DataDir}
      {op : SecretOp} {outcome : Outcome} {db : SecretsDb} :
      Lives K dataDir made (some store) s → Secrets.Step K store s.secrets op outcome db →
      Lives K dataDir ((op, outcome) :: made) (some store) { s with secrets := db }

end Nexad.Daemon
