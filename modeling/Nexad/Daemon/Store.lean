import Nexad.State.Inventory

/-!
# The state store of a daemon

`init_infrastructure` of `main.rs`, as far as the store: every start connects to
one database file, and serves once all migrations have run. A migration and the
note that it has run are one transaction, so a start that dies in the middle
leaves the file as it was between two migrations.
-/

namespace Nexad.Daemon

open Nexad.State

-- the digest of a migration file's text
variable (sha384 : MigrationFile → List UInt8)

/-- What a start leaves that dies when the first `n` files have been seen to, or
that fails over one of them or before. -/
def connectUpTo (n : Nat) (file : StoreFile) : StoreFile :=
  match checkApplied migrations file.applied with
  | .error _ => file
  | .ok () => (runMigrations sha384 ⟨true, false, file.db⟩ file.applied (migrations.take n)).1

variable (D : Domain) (N : NodeText)

/-- The lives of a daemon on one database file: the calls of all its stores,
newest first, each with its end, and whether a store serves now. -/
inductive StoreLives : List (StoreOp D × Outcome D) → Bool → StoreFile → Prop
  | fresh : StoreLives [] false ⟨fun _ => none, []⟩
  | died {made : List (StoreOp D × Outcome D)} {serving : Bool} {file : StoreFile} :
      StoreLives made serving file → ∀ n, StoreLives made false (connectUpTo sha384 n file)
  | start {made : List (StoreOp D × Outcome D)} {serving : Bool} {file file' : StoreFile} :
      StoreLives made serving file → connect sha384 file = (file', .ok ()) → StoreLives made true file'
  | call {made : List (StoreOp D × Outcome D)} {file : StoreFile} {db : Db} {op : StoreOp D}
      {outcome : Outcome D} :
      StoreLives made true file → Step file.db op outcome db →
      StoreLives ((op, outcome) :: made) true { file with db }
  | clusterCall {made : List (StoreOp D × Outcome D)} {file : StoreFile} {db : Db} {op : ClusterOp}
      {outcome : ClusterOutcome} :
      StoreLives made true file → ClusterStep D N file.db op outcome db →
      StoreLives made true { file with db }

end Nexad.Daemon
