import Nexad.Daemon.Store
import Nexad.Laws.State.Inventory

/-!
# The state store over starts

A start skips the migrations that have been noted, and stops where a note tells
of one that failed, is not known or has changed. So one that follows any number
of starts that died or failed ends as if there had been none (`connect_resumes`),
on any database file.

On a file that was new once, a store serves only when all migrations have run,
and from then on a start changes nothing: what was acknowledged in any life of
the daemon is answered in this one (`store_survives_restarts`).
-/

namespace Nexad.Daemon

open Nexad.State Relational

/-! ## Files in turn -/

/-- Run migration files over a database file. -/
abbrev migrate (sha384 : MigrationFile → List UInt8) (file : StoreFile) (ms : List MigrationFile) :
    StoreFile × Except MigrateError Unit :=
  runMigrations sha384 ⟨true, false, file.db⟩ file.applied ms

/-- The file has run, and its text is as it was. -/
def Noted (sha384 : MigrationFile → List UInt8) (applied : List AppliedMigration) (m : MigrationFile) :
    Prop :=
  ∃ a, applied.find? (fun a => a.version = m.version) = some a ∧ a.checksum = sha384 m

section Migrate

variable {sha384 : MigrationFile → List UInt8} {file f : StoreFile} {m : MigrationFile}
  {ms : List MigrationFile} {a : AppliedMigration} {e : SqlError}

/-- What has been noted stays noted. -/
theorem Noted.append {applied : List AppliedMigration} (h : Noted sha384 applied m)
    (later : List AppliedMigration) : Noted sha384 (applied ++ later) m := by
  obtain ⟨a, hfound, hsame⟩ := h
  exact ⟨a, by rw [List.find?_append, hfound, Option.some_or], hsame⟩

theorem noted_append {applied : List AppliedMigration}
    (hnew : (applied.find? fun a => a.version = m.version) = none) :
    Noted sha384 (applied ++ [m.noted sha384]) m := by
  refine ⟨m.noted sha384, ?_, rfl⟩
  rw [List.find?_append, hnew, Option.none_or]
  exact List.find?_cons_of_pos (decide_eq_true rfl)

theorem migrate_skip (h : Noted sha384 file.applied m) :
    migrate sha384 file (m :: ms) = migrate sha384 file ms := by
  obtain ⟨a, hfound, hsame⟩ := h
  rw [migrate, runMigrations, hfound]
  exact if_neg (not_not.mpr hsame)

theorem migrate_changed (hfound : (file.applied.find? fun a => a.version = m.version) = some a)
    (hchanged : a.checksum ≠ sha384 m) :
    migrate sha384 file (m :: ms) = (file, .error (.versionMismatch m.version)) := by
  rw [migrate, runMigrations, hfound]
  exact if_pos hchanged

theorem migrate_fails (hnew : (file.applied.find? fun a => a.version = m.version) = none)
    (hrun : m.run ⟨true, false, file.db⟩ = .error e) :
    migrate sha384 file (m :: ms) = (file, .error (.executeMigration e m.version)) := by
  rw [migrate, runMigrations, hnew]
  dsimp only
  rw [hrun]

/-- A file that runs in a transaction leaves the connection as it was, but for the database. -/
theorem migrate_runs {c : Connection TableName Column} (htx : m.noTx = false)
    (hnew : (file.applied.find? fun a => a.version = m.version) = none)
    (hrun : m.run ⟨true, false, file.db⟩ = .ok c) :
    migrate sha384 file (m :: ms) = migrate sha384 ⟨c.db, file.applied ++ [m.noted sha384]⟩ ms := by
  have hc : c = ⟨true, false, c.db⟩ := by
    rw [MigrationFile.run, htx] at hrun
    exact Connection.transaction_flags hrun
  rw [migrate, runMigrations, hnew]
  dsimp only
  rw [hrun]
  exact congrArg (fun c => runMigrations sha384 c (file.applied ++ [m.noted sha384]) ms) hc

/-- The ways in which a file is seen to. -/
theorem migrate_cons (sha384 : MigrationFile → List UInt8) (file : StoreFile) (htx : m.noTx = false)
    (ms : List MigrationFile) :
    (Noted sha384 file.applied m ∧ migrate sha384 file (m :: ms) = migrate sha384 file ms) ∨
    (∃ e, ∀ ms', migrate sha384 file (m :: ms') = (file, .error e)) ∨
    ∃ db, Noted sha384 (file.applied ++ [m.noted sha384]) m ∧ ∀ ms',
      migrate sha384 file (m :: ms') = migrate sha384 ⟨db, file.applied ++ [m.noted sha384]⟩ ms' := by
  cases hfound : file.applied.find? fun a => a.version = m.version with
  | some a =>
    by_cases hsame : a.checksum = sha384 m
    · have hnoted : Noted sha384 file.applied m := ⟨a, hfound, hsame⟩
      exact .inl ⟨hnoted, migrate_skip hnoted⟩
    · exact .inr (.inl ⟨_, fun _ => migrate_changed hfound hsame⟩)
  | none =>
    cases hrun : m.run ⟨true, false, file.db⟩ with
    | error e => exact .inr (.inl ⟨_, fun _ => migrate_fails hfound hrun⟩)
    | ok c => exact .inr (.inr ⟨c.db, noted_append hfound, fun _ => migrate_runs htx hfound hrun⟩)

/-- No note is lost, and files that all ran are noted. -/
theorem migrate_noted (sha384 : MigrationFile → List UInt8) (file : StoreFile)
    (htx : ∀ m ∈ ms, m.noTx = false) :
    (∀ m, Noted sha384 file.applied m → Noted sha384 (migrate sha384 file ms).1.applied m) ∧
      ((migrate sha384 file ms).2 = .ok () →
        ∀ m ∈ ms, Noted sha384 (migrate sha384 file ms).1.applied m) := by
  induction ms generalizing file with
  | nil => exact ⟨fun _ h => h, fun _ m h => absurd h List.not_mem_nil⟩
  | cons m ms ih =>
    have hrest : ∀ m' ∈ ms, m'.noTx = false := fun m' h => htx m' (List.mem_cons_of_mem _ h)
    rcases migrate_cons sha384 file (htx m List.mem_cons_self) ms with ⟨hm, heq⟩ | ⟨e, heq⟩ | ⟨db, hm, heq⟩
    · obtain ⟨hkept, hall⟩ := ih file hrest
      rw [heq]
      refine ⟨hkept, fun hok m' hm' => ?_⟩
      rcases List.mem_cons.mp hm' with rfl | hm'
      · exact hkept _ hm
      · exact hall hok m' hm'
    · rw [heq ms]
      exact ⟨fun _ h => h, fun hok => by cases hok⟩
    · obtain ⟨hkept, hall⟩ := ih ⟨db, file.applied ++ [m.noted sha384]⟩ hrest
      rw [heq ms]
      refine ⟨fun m' hm' => hkept m' (hm'.append _), fun hok m' hm' => ?_⟩
      rcases List.mem_cons.mp hm' with rfl | hm'
      · exact hkept _ hm
      · exact hall hok m' hm'

/-- What is noted afterwards was noted before, or is one of the files. -/
theorem migrate_rows (htx : ∀ m ∈ ms, m.noTx = false) :
    ∀ a ∈ (migrate sha384 file ms).1.applied, a ∈ file.applied ∨ ∃ m ∈ ms, a = m.noted sha384 := by
  induction ms generalizing file with
  | nil => exact fun _ h => .inl h
  | cons m ms ih =>
    have hrest : ∀ m' ∈ ms, m'.noTx = false := fun m' h => htx m' (List.mem_cons_of_mem _ h)
    intro a ha
    rcases migrate_cons sha384 file (htx m List.mem_cons_self) ms with ⟨-, heq⟩ | ⟨e, heq⟩ | ⟨db, -, heq⟩
    · rw [heq] at ha
      exact (@ih file hrest a ha).imp_right fun ⟨m', hm', hrow⟩ => ⟨m', List.mem_cons_of_mem _ hm', hrow⟩
    · rw [heq ms] at ha
      exact .inl ha
    · rw [heq ms] at ha
      rcases @ih ⟨db, file.applied ++ [m.noted sha384]⟩ hrest a ha with hold | ⟨m', hm', hrow⟩
      · rcases List.mem_append.mp hold with hold | hrow
        · exact .inl hold
        · exact .inr ⟨m, List.mem_cons_self, List.mem_singleton.mp hrow⟩
      · exact .inr ⟨m', List.mem_cons_of_mem _ hm', hrow⟩

/-- Files that are noted are skipped. -/
theorem migrate_all_noted (file : StoreFile) (h : ∀ m ∈ ms, Noted sha384 file.applied m)
    (ms' : List MigrationFile) : migrate sha384 file (ms ++ ms') = migrate sha384 file ms' := by
  induction ms with
  | nil => rfl
  | cons m ms ih =>
    exact (migrate_skip (h m List.mem_cons_self)).trans (ih fun m' hm' => h m' (List.mem_cons_of_mem _ hm'))

/-- Starting over from where the first files were left is going on. -/
theorem migrate_resumes (sha384 : MigrationFile → List UInt8) (file : StoreFile)
    (htx : ∀ m ∈ ms, m.noTx = false) (ms' : List MigrationFile) :
    migrate sha384 (migrate sha384 file ms).1 (ms ++ ms') = migrate sha384 file (ms ++ ms') := by
  induction ms generalizing file with
  | nil => rfl
  | cons m ms ih =>
    have hrest : ∀ m' ∈ ms, m'.noTx = false := fun m' h => htx m' (List.mem_cons_of_mem _ h)
    rcases migrate_cons sha384 file (htx m List.mem_cons_self) ms with ⟨hm, heq⟩ | ⟨e, heq⟩ | ⟨db, hm, heq⟩
    · rw [heq, List.cons_append, migrate_skip hm,
        migrate_skip ((migrate_noted sha384 file hrest).1 _ hm), ih _ hrest]
    · rw [heq ms]
    · have hnoted := (migrate_noted sha384 ⟨db, file.applied ++ [m.noted sha384]⟩ hrest).1 _ hm
      rw [heq ms, List.cons_append, heq (ms ++ ms'), migrate_skip hnoted, ih _ hrest]

end Migrate

/-! ## Starts -/

section Starts

variable {sha384 : MigrationFile → List UInt8} {file file' : StoreFile}

/-- No file says that it is to run outside a transaction. -/
theorem migrations_tx : ∀ m ∈ migrations, m.noTx = false := by decide

theorem take_tx (n : Nat) : ∀ m ∈ migrations.take n, m.noTx = false :=
  fun m hm => migrations_tx m (List.mem_of_mem_take hm)

theorem connectUpTo_of_checked (n : Nat) (h : checkApplied migrations file.applied = .ok ()) :
    connectUpTo sha384 n file = (migrate sha384 file (migrations.take n)).1 := by
  unfold connectUpTo
  rw [h]

/-- What a start leaves passes the check that it passed. -/
theorem checked_migrate (n : Nat) (h : checkApplied migrations file.applied = .ok ()) :
    checkApplied migrations (migrate sha384 file (migrations.take n)).1.applied = .ok () := by
  rw [checkApplied_iff] at h ⊢
  intro a ha
  rcases migrate_rows (take_tx n) a ha with hold | ⟨m, hm, rfl⟩
  · exact h a hold
  · exact ⟨rfl, List.mem_map_of_mem (List.mem_of_mem_take hm)⟩

/-- A start that follows one that died or failed ends as if it had not been. -/
theorem connect_connectUpTo (n : Nat) (file : StoreFile) :
    connect sha384 (connectUpTo sha384 n file) = connect sha384 file := by
  cases hcheck : checkApplied migrations file.applied with
  | error e =>
    unfold connectUpTo
    rw [hcheck]
  | ok =>
    have hresumes := migrate_resumes sha384 file (take_tx n) (migrations.drop n)
    rw [List.take_append_drop] at hresumes
    rw [connectUpTo_of_checked n hcheck, connect_of_checked (checked_migrate n hcheck),
      connect_of_checked hcheck]
    exact congrArg (Prod.map id _) hresumes

/-- Where all files have been noted, a start changes nothing. -/
theorem connect_noted (hchecked : checkApplied migrations file.applied = .ok ())
    (hnoted : ∀ m ∈ migrations, Noted sha384 file.applied m) :
    connect sha384 file = (file, .ok ()) := by
  have hskipped := migrate_all_noted file hnoted []
  rw [List.append_nil] at hskipped
  rw [connect_of_checked hchecked]
  exact congrArg (Prod.map id _) hskipped

/-- So does one that is cut off. -/
theorem connectUpTo_noted (n : Nat) (hnoted : ∀ m ∈ migrations, Noted sha384 file.applied m) :
    connectUpTo sha384 n file = file := by
  have hskipped := migrate_all_noted file (fun m hm => hnoted m (List.mem_of_mem_take (i := n) hm)) []
  rw [List.append_nil] at hskipped
  unfold connectUpTo
  split
  · rfl
  · exact congrArg Prod.fst hskipped

end Starts

variable {sha384 : MigrationFile → List UInt8} {D : Domain} {N : NodeText}
  {made : List (StoreOp D × Outcome D)} {serving : Bool} {file : StoreFile}

/-- What holds in any life: nothing has been served yet, or all files have run. -/
inductive Stored (sha384 : MigrationFile → List UInt8) (D : Domain) (N : NodeText) :
    List (StoreOp D × Outcome D) → Bool → StoreFile → Prop
  | before {file : StoreFile} (resumes : connect sha384 file = connect sha384 ⟨fun _ => none, []⟩) :
      Stored sha384 D N [] false file
  | after {made : List (StoreOp D × Outcome D)} {file : StoreFile} (serving : Bool)
      (checked : checkApplied migrations file.applied = .ok ())
      (noted : ∀ m ∈ migrations, Noted sha384 file.applied m) (calls : StoreCalls D N made file.db) :
      Stored sha384 D N made serving file

/-- The files as they are noted in a new database. -/
theorem noted_new (sha384 : MigrationFile → List UInt8) : ∀ m ∈ migrations,
    Noted sha384 (migrations.map (MigrationFile.noted sha384)) m := by
  intro m hm
  simp only [migrations, List.mem_cons, List.not_mem_nil, or_false] at hm
  rcases hm with rfl | rfl | rfl | rfl | rfl <;> exact ⟨_, rfl, rfl⟩

theorem StoreLives.stored (h : StoreLives sha384 D N made serving file) :
    Stored sha384 D N made serving file := by
  induction h with
  | fresh => exact .before rfl
  | @died _ _ file _ n ih =>
    cases ih with
    | before resumes => exact .before ((connect_connectUpTo n file).trans resumes)
    | after _ checked noted calls => exact (connectUpTo_noted n noted).symm ▸ .after false checked noted calls
  | @start _ _ file file' _ connected ih =>
    cases ih with
    | before resumes =>
      have hnew := resumes.trans connect_new
      obtain ⟨rfl, -⟩ := Prod.mk.inj (hnew.symm.trans connected)
      have hchecked : checkApplied migrations (migrations.map (MigrationFile.noted sha384)) = .ok () := by
        rw [checkApplied_iff]
        intro a ha
        obtain ⟨m, hm, rfl⟩ := List.mem_map.mp ha
        exact ⟨rfl, List.mem_map_of_mem hm⟩
      exact .after true hchecked (noted_new sha384) .new
    | after _ checked noted calls =>
      obtain ⟨rfl, -⟩ := Prod.mk.inj ((connect_noted checked noted).symm.trans connected)
      exact .after true checked noted calls
  | call _ hstep ih =>
    cases ih with
    | after _ checked noted calls => exact .after true checked noted (calls.step hstep)
  | clusterCall _ hstep ih =>
    cases ih with
    | after _ checked noted calls => exact .after true checked noted (calls.clusterStep hstep)

/-- A store that serves may serve a call that ends well. -/
theorem StoreLives.ran (h : StoreLives sha384 D N made true file) {scan : Scan Column}
    {op : StoreOp D} {reply : Reply D} (hreply : (op.run scan file.db).2 = .ok reply) :
    StoreLives sha384 D N ((op, .ok reply) :: made) true { file with db := (op.run scan file.db).1 } :=
  hreply ▸ h.call (.run scan)

end Nexad.Daemon
