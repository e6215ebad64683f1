import Mathlib.Data.Finmap
import Nexad.Base.Interleave
import Nexad.Base.Text
import Nexad.Secrets.Encrypted

/-!
# The master key

`crypto/master_key.rs`: the key is loaded from the data directory, or drawn and
written there. A start of the daemon is a program of calls on the directory.
Any of them may fail; a write may fail half way, and a check for a file that
cannot be carried out answers like one for a file that is not there.
-/

namespace Nexad.Crypto

open Interleave Slice
open Nexad.State (Failure)
open Nexad.Secrets (SecretsDb EncryptedSqliteSecretStore secretError)

/-- `[u8; KEY_LEN]`. -/
abbrev Key := ArrayOf UInt8 32

/-- What a start does to the data directory. -/
inductive StartOp where
  | pathExists (path : String)
  | read (path : String)
  | createDirAll (path : String)
  /-- `thread_rng().fill_bytes`. -/
  | fillBytes
  | write (path : String) (content : List UInt8)
  | setPermissions (path : String) (mode : Nat)
  | openConnection (path : String)
  | newStore (masterKey : Key)
  deriving DecidableEq, Repr

abbrev startSig : Sig where
  Op := StartOp
  Ans
    | .pathExists _ => Bool
    | .read _ => Except String (List UInt8)
    | .fillBytes => Key
    | .newStore _ => Except Failure EncryptedSqliteSecretStore
    | _ => Except String Unit

/-- The key that a file holds: all of it. -/
def keyOf (bytes : List UInt8) : Except Failure Key :=
  if h : bytes.length = 32 then .ok ⟨bytes, h⟩
  else .error (secretError s!"master key invalid length: expected 32, got {bytes.length}")

/-- `load_key`. -/
def loadKey {α : Type} (path : String) (k : Except Failure Key → Prog startSig α) :
    Prog startSig α :=
  .call (.read path) fun
    | .error e => k (.error (secretError s!"failed to read master key: {e}"))
    | .ok (bytes : List UInt8) => k (keyOf bytes)

/-- `generate_key`, for a path below `parent`. -/
def generateKey {α : Type} (parent path : String) (k : Except Failure Key → Prog startSig α) :
    Prog startSig α :=
  .call (.createDirAll parent) fun
    | .error e => k (.error (secretError s!"mkdir failed: {e}"))
    | .ok () => .call .fillBytes fun (key : Key) =>
      .call (.write path key.1) fun
        | .error e => k (.error (secretError s!"write key failed: {e}"))
        | .ok () => .call (.setPermissions path 0o600) fun
          | .error e => k (.error (secretError s!"set perms failed: {e}"))
          | .ok () => k (.ok key)

/-- `data_dir.join("master.key")`. -/
def keyPath (dataDir : String) : String := Text.joinPath dataDir "master.key"

/-- `load_or_generate`. -/
def loadOrGenerate {α : Type} (dataDir : String) (k : Except Failure Key → Prog startSig α) :
    Prog startSig α :=
  .call (.pathExists (keyPath dataDir)) fun (found : Bool) =>
    if found then loadKey (keyPath dataDir) k else generateKey dataDir (keyPath dataDir) k

/-! ## The data directory -/

/-- A file: its bytes and its permissions. -/
structure File where
  content : List UInt8
  mode : Nat
  deriving DecidableEq, Repr

/-- The files by path, and the database of the secrets. -/
structure DataDir where
  files : Finmap fun _ : String => File
  secrets : SecretsDb

namespace DataDir

/-- A file is there with this content. -/
def put (s : DataDir) (path : String) (file : File) : DataDir :=
  { s with files := s.files.insert path file }

variable (K : Secrets.Crates) (s : DataDir)

/-- A file that is written keeps its permissions, one that is made has those
the process gives. -/
def ModeOf (path : String) (mode : Nat) : Prop :=
  ∀ file, s.files.lookup path = some file → mode = file.mode

/-- How the calls are answered. -/
inductive Answer : (op : StartOp) → startSig.Ans op → DataDir → Prop
  | found {path : String} (there : path ∈ s.files) : Answer (.pathExists path) true s
  | missing {path : String} (absent : path ∉ s.files) : Answer (.pathExists path) false s
  /-- the check itself failed -/
  | unseen {path : String} (there : path ∈ s.files) : Answer (.pathExists path) false s
  | read {path : String} {file : File} (there : s.files.lookup path = some file) :
      Answer (.read path) (.ok file.content) s
  | readFailed (path text : String) : Answer (.read path) (.error text) s
  | createDirAll (path : String) : Answer (.createDirAll path) (.ok ()) s
  | createDirAllFailed (path text : String) : Answer (.createDirAll path) (.error text) s
  | fillBytes (key : Key) : Answer .fillBytes key s
  | write {path : String} (content : List UInt8) {mode : Nat} (kept : s.ModeOf path mode) :
      Answer (.write path content) (.ok ()) (s.put path ⟨content, mode⟩)
  | writeFailed (path : String) (content : List UInt8) (text : String) :
      Answer (.write path content) (.error text) s
  /-- the file was emptied, and not all of the content has come to it -/
  | writeTorn {path : String} {content torn : List UInt8} {mode : Nat} (kept : s.ModeOf path mode)
      (part : torn <+: content) (short : torn ≠ content) (text : String) :
      Answer (.write path content) (.error text) (s.put path ⟨torn, mode⟩)
  | setPermissions {path : String} {file : File} (there : s.files.lookup path = some file) (mode : Nat) :
      Answer (.setPermissions path mode) (.ok ()) (s.put path { file with mode := mode })
  | setPermissionsFailed (path : String) (mode : Nat) (text : String) :
      Answer (.setPermissions path mode) (.error text) s
  | openConnection (path : String) : Answer (.openConnection path) (.ok ()) s
  | openConnectionFailed (path text : String) : Answer (.openConnection path) (.error text) s
  | newStore {masterKey : Key} {store : EncryptedSqliteSecretStore} {db : SecretsDb}
      (made : EncryptedSqliteSecretStore.new K s.secrets masterKey = .ok (store, db)) :
      Answer (.newStore masterKey) (.ok store) { s with secrets := db }
  | newStoreFailed (masterKey : Key) (text : String) :
      Answer (.newStore masterKey)
        (.error (secretError s!"failed to init secrets table: {text}")) s

/-- The check for a file that is there has found it. -/
def Seen : (op : StartOp) → startSig.Ans op → Prop
  | .pathExists path, found => path ∈ s.files → found = true
  | _, _ => True

/-- How the calls are answered where no check fails. -/
def SeenAnswer (op : StartOp) (ans : startSig.Ans op) (s' : DataDir) : Prop :=
  s.Answer K op ans s' ∧ s.Seen op ans

end DataDir

/-- The starts of a daemon on a data directory, newest first, with what
`load_or_generate` returned. A start may be cut off between any two calls, and
then it has returned nothing. No check for a file fails. -/
inductive Starts (K : Secrets.Crates) (dataDir : String) (s₀ : DataDir) :
    List (Except Failure Key) → DataDir → Prop
  | none : Starts K dataDir s₀ [] s₀
  | start {returned : List (Except Failure Key)} {s s' : DataDir}
      {calls : List ((op : StartOp) × startSig.Ans op)} {q : Prog startSig (Except Failure Key)} :
      Starts K dataDir s₀ returned s →
      (loadOrGenerate dataDir .ret).Moves (DataDir.SeenAnswer K) s calls q s' →
      Starts K dataDir s₀ (q.result.toList ++ returned) s'

end Nexad.Crypto
