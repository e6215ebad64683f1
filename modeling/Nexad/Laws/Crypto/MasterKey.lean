import Nexad.Crypto.MasterKey
import Nexad.Laws.Secrets.Encrypted

/-!
# One key for a data directory

`Load` says what a start that came to an end has returned and left, `Left` what
a start that was cut off has left: both write to the key file only where there
was none. So what a key file holds is never replaced, neither by another key
nor, where a write was torn, by a whole one.

That rests on the check for the file. A start whose check fails replaces the
key (`unseen_key_is_replaced`).
-/

namespace Nexad.Crypto

open Interleave Slice
open Nexad.State (Failure)
open Nexad.Secrets (secretError)

variable {K : Secrets.Crates} {dataDir : String} {s s' : DataDir}

/-- `NexaError::Secret` of a key file that cannot be read. -/
def unreadKey (text : String) : Failure := secretError s!"failed to read master key: {text}"

theorem keyOf_key (key : Key) : keyOf key.1 = .ok key := dif_pos key.2

theorem keyOf_eq_ok_iff {bytes : List UInt8} {key : Key} : keyOf bytes = .ok key ↔ bytes = key.1 := by
  constructor
  · intro h
    unfold keyOf at h
    split at h
    · cases h
      rfl
    · cases h
  · rintro rfl
    exact keyOf_key key

namespace DataDir

@[simp] theorem lookup_put (s : DataDir) (path : String) (file : File) :
    (s.put path file).files.lookup path = some file := Finmap.lookup_insert _

@[simp] theorem put_put (s : DataDir) (path : String) (file file' : File) :
    (s.put path file).put path file' = s.put path file' := by
  rw [put, put, put]
  congr 1
  exact Finmap.insert_insert ..

end DataDir

/-- What a start leaves of the key file, wherever it is cut off. -/
inductive Left (dataDir : String) (s : DataDir) : DataDir → Prop
  | same : Left dataDir s s
  | wrote (absent : keyPath dataDir ∉ s.files) (file : File) :
      Left dataDir s (s.put (keyPath dataDir) file)

/-- What a start returns, and what it leaves. -/
inductive Load (dataDir : String) (s : DataDir) : Except Failure Key → DataDir → Prop
  | loaded {file : File} (there : s.files.lookup (keyPath dataDir) = some file) :
      Load dataDir s (keyOf file.content) s
  | unread (there : keyPath dataDir ∈ s.files) (text : String) :
      Load dataDir s (.error (unreadKey text)) s
  | generated (absent : keyPath dataDir ∉ s.files) (key : Key) :
      Load dataDir s (.ok key) (s.put (keyPath dataDir) ⟨key.1, 0o600⟩)
  | failed {s' : DataDir} (absent : keyPath dataDir ∉ s.files) (e : Failure)
      (left : Left dataDir s s') : Load dataDir s (.error e) s'

section Moves

variable {α : Type} {k : Except Failure Key → Prog startSig α} {q : Prog startSig α}
  {calls : List ((op : StartOp) × startSig.Ans op)}

/-- The start has been cut off, or what follows it has gone on. -/
def CutOrOn (K : Secrets.Crates) (dataDir : String) (s : DataDir)
    (k : Except Failure Key → Prog startSig α) (q : Prog startSig α) (s' : DataDir) : Prop :=
  (q.result = none ∧ Left dataDir s s') ∨
    ∃ r mid rest, Load dataDir s r mid ∧ (k r).Moves (DataDir.SeenAnswer K) mid rest q s'

/-- The key file is there, and is read. -/
theorem loadKey_moves (there : keyPath dataDir ∈ s.files)
    (h : (loadKey (keyPath dataDir) k).Moves (DataDir.SeenAnswer K) s calls q s') :
    CutOrOn K dataDir s k q s' := by
  cases h with
  | refl => exact .inl ⟨rfl, .same⟩
  | call answered rest =>
    obtain ⟨answered, -⟩ := answered
    cases answered with
    | read there' => exact .inr ⟨_, _, _, .loaded there', rest⟩
    | readFailed path text => exact .inr ⟨_, _, _, .unread there text, rest⟩

/-- The key file is not there. -/
theorem generateKey_moves (absent : keyPath dataDir ∉ s.files)
    (h : (generateKey dataDir (keyPath dataDir) k).Moves (DataDir.SeenAnswer K) s calls q s') :
    CutOrOn K dataDir s k q s' := by
  cases h with
  | refl => exact .inl ⟨rfl, .same⟩
  | call made rest =>
    obtain ⟨made, -⟩ := made
    cases made with
    | createDirAllFailed => exact .inr ⟨_, _, _, .failed absent _ .same, rest⟩
    | createDirAll =>
      cases rest with
      | refl => exact .inl ⟨rfl, .same⟩
      | call drawn rest =>
        obtain ⟨drawn, -⟩ := drawn
        cases drawn with
        | fillBytes =>
          cases rest with
          | refl => exact .inl ⟨rfl, .same⟩
          | call written rest =>
            obtain ⟨written, -⟩ := written
            cases written with
            | writeFailed => exact .inr ⟨_, _, _, .failed absent _ .same, rest⟩
            | writeTorn => exact .inr ⟨_, _, _, .failed absent _ (.wrote absent _), rest⟩
            | write =>
              cases rest with
              | refl => exact .inl ⟨rfl, .wrote absent _⟩
              | call restricted rest =>
                obtain ⟨restricted, -⟩ := restricted
                cases restricted with
                | setPermissionsFailed =>
                  exact .inr ⟨_, _, _, .failed absent _ (.wrote absent _), rest⟩
                | setPermissions there =>
                  rw [DataDir.lookup_put] at there
                  cases there
                  rw [DataDir.put_put] at rest
                  exact .inr ⟨_, _, _, .generated absent _, rest⟩

/-- The spec of `load_or_generate`, with all that may follow it. -/
theorem loadOrGenerate_moves
    (h : (loadOrGenerate dataDir k).Moves (DataDir.SeenAnswer K) s calls q s') :
    CutOrOn K dataDir s k q s' := by
  cases h with
  | refl => exact .inl ⟨rfl, .same⟩
  | call answered rest =>
    obtain ⟨answered, seen⟩ := answered
    cases answered with
    | found there => exact loadKey_moves there rest
    | missing absent => exact generateKey_moves absent rest
    | unseen there => cases seen there

/-- Where nothing fails, what follows goes on with the key in the file. -/
theorem loadOrGenerate_held {key : Key} {mode : Nat}
    (held : s.files.lookup (keyPath dataDir) = some ⟨key.1, mode⟩)
    (h : (k (.ok key)).Moves (DataDir.SeenAnswer K) s calls q s') :
    (loadOrGenerate dataDir k).Moves (DataDir.SeenAnswer K) s (⟨.pathExists (keyPath dataDir), true⟩ ::
      ⟨.read (keyPath dataDir), .ok key.1⟩ :: calls) q s' := by
  rw [← keyOf_key key] at h
  exact .call ⟨.found (Finmap.mem_of_lookup_eq_some held), fun _ => rfl⟩
    (.call ⟨.read held, trivial⟩ h)

end Moves

/-- A key file that is there is left as it is. -/
theorem Left.same_of_file {file : File} (there : s.files.lookup (keyPath dataDir) = some file)
    (h : Left dataDir s s') : s' = s := by
  cases h with
  | same => rfl
  | wrote absent => exact absurd (Finmap.mem_of_lookup_eq_some there) absent

/-- A key file that is there is read, or it is not; it is never written. -/
theorem Load.of_file {r : Except Failure Key} {file : File}
    (there : s.files.lookup (keyPath dataDir) = some file) (h : Load dataDir s r s') :
    s' = s ∧ (r = keyOf file.content ∨ ∃ text, r = .error (unreadKey text)) := by
  have hmem : keyPath dataDir ∈ s.files := Finmap.mem_of_lookup_eq_some there
  cases h with
  | loaded there' =>
    rw [there] at there'
    cases there'
    exact ⟨rfl, .inl rfl⟩
  | unread _ text => exact ⟨rfl, .inr ⟨text, rfl⟩⟩
  | generated absent => exact absurd hmem absent
  | failed absent => exact absurd hmem absent

/-- A key that is returned is what the key file holds. -/
theorem Load.of_key {key : Key} (h : Load dataDir s (.ok key) s') :
    ∃ mode, s'.files.lookup (keyPath dataDir) = some ⟨key.1, mode⟩ := by
  generalize hr : Except.ok key = r at h
  cases h with
  | @loaded file there =>
    exact ⟨file.mode, there.trans (by rw [← keyOf_eq_ok_iff.mp hr.symm])⟩
  | unread => cases hr
  | generated _ key' =>
    cases hr
    exact ⟨_, DataDir.lookup_put ..⟩
  | failed => cases hr

/-- What one start makes of the key file. -/
theorem start_cases {calls : List ((op : StartOp) × startSig.Ans op)}
    {q : Prog startSig (Except Failure Key)}
    (h : (loadOrGenerate dataDir .ret).Moves (DataDir.SeenAnswer K) s calls q s') :
    (q.result = none ∧ Left dataDir s s') ∨ ∃ r, q.result = some r ∧ Load dataDir s r s' := by
  rcases loadOrGenerate_moves h with hcut | ⟨r, mid, rest, hload, hret⟩
  · exact .inl hcut
  · cases hret
    exact .inr ⟨r, rfl, hload⟩

section Starts

variable {returned : List (Except Failure Key)}

/-- A key file that is there stays what it is. -/
theorem Starts.of_file {file : File} (there : s.files.lookup (keyPath dataDir) = some file)
    (h : Starts K dataDir s returned s') :
    s' = s ∧ ∀ r ∈ returned, r = keyOf file.content ∨ ∃ text, r = .error (unreadKey text) := by
  induction h with
  | none => exact ⟨rfl, fun _ hr => absurd hr List.not_mem_nil⟩
  | start _ hmoves ih =>
    obtain ⟨rfl, hreturned⟩ := ih
    rcases start_cases hmoves with ⟨hnone, hleft⟩ | ⟨r, hr, hload⟩
    · rw [hnone]
      exact ⟨hleft.same_of_file there, hreturned⟩
    · obtain ⟨hsame, hnow⟩ := hload.of_file there
      rw [hr]
      refine ⟨hsame, fun r' hr' => ?_⟩
      rcases List.mem_cons.mp hr' with rfl | hr'
      · exact hnow
      · exact hreturned r' hr'

/-- The key file holds every key that was returned. -/
theorem Starts.of_key {key : Key} (h : Starts K dataDir s returned s') (hkey : .ok key ∈ returned) :
    ∃ mode, s'.files.lookup (keyPath dataDir) = some ⟨key.1, mode⟩ := by
  induction h with
  | none => cases hkey
  | start _ hmoves ih =>
    rcases start_cases hmoves with ⟨hnone, hleft⟩ | ⟨r, hr, hload⟩
    · rw [hnone] at hkey
      obtain ⟨mode, hheld⟩ := ih hkey
      rw [hleft.same_of_file hheld]
      exact ⟨mode, hheld⟩
    · rw [hr] at hkey
      rcases List.mem_cons.mp hkey with rfl | hkey
      · exact hload.of_key
      · obtain ⟨mode, hheld⟩ := ih hkey
        rw [(hload.of_file hheld).1]
        exact ⟨mode, hheld⟩

/-- Over any number of starts, each of which may be cut off between any two
calls, with file operations that fail or write half of a key: a key file that
is there stays what it is, and every start that ends returns its key, refuses
its length or fails to read it; and all keys that are ever returned are one,
which the key file holds. -/
theorem master_key_is_kept (h : Starts K dataDir s returned s') :
    (∀ file, s.files.lookup (keyPath dataDir) = some file → s' = s ∧
      ∀ r ∈ returned, r = keyOf file.content ∨ ∃ text, r = .error (unreadKey text)) ∧
    ∀ key, .ok key ∈ returned →
      (∃ mode, s'.files.lookup (keyPath dataDir) = some ⟨key.1, mode⟩) ∧
      ∀ key', .ok key' ∈ returned → key' = key := by
  refine ⟨fun file there => h.of_file there, fun key hkey => ⟨h.of_key hkey, fun key' hkey' => ?_⟩⟩
  obtain ⟨mode, hheld⟩ := h.of_key hkey
  obtain ⟨mode', hheld'⟩ := h.of_key hkey'
  rw [hheld] at hheld'
  exact Subtype.ext (congrArg File.content (Option.some.inj hheld')).symm

end Starts

/-- The directory before the first start. -/
def emptyDir : DataDir := ⟨∅, fun _ => none⟩

theorem length_zeros : (List.replicate 32 (0 : UInt8)).length = 32 := List.length_replicate

/-- The key of zeros. -/
def zeroKey : Key := ⟨List.replicate 32 0, length_zeros⟩

/-- A directory with the key of zeros, as its maker left it. -/
def keptDir (mode : Nat) : DataDir := emptyDir.put (keyPath "/data") ⟨zeroKey.1, mode⟩

private theorem generating : (loadOrGenerate "/data" .ret).Moves (DataDir.SeenAnswer Secrets.plainCrates)
    emptyDir [⟨.pathExists (keyPath "/data"), false⟩, ⟨.createDirAll "/data", .ok ()⟩,
      ⟨.fillBytes, zeroKey⟩, ⟨.write (keyPath "/data") zeroKey.1, .ok ()⟩,
      ⟨.setPermissions (keyPath "/data") 0o600, .error "EPERM"⟩]
    (.ret (.error (secretError "set perms failed: EPERM"))) (keptDir 0o644) := by
  have habsent : keyPath "/data" ∉ emptyDir.files := Finmap.notMem_empty
  have hmode : emptyDir.ModeOf (keyPath "/data") 0o644 := fun file hfile => by
    cases (Finmap.lookup_empty _).symm.trans hfile
  exact .call ⟨.missing habsent, fun h => absurd h habsent⟩ (.call ⟨.createDirAll _, trivial⟩
    (.call ⟨.fillBytes zeroKey, trivial⟩ (.call ⟨.write _ hmode, trivial⟩
      (.call ⟨.setPermissionsFailed _ _ "EPERM", trivial⟩ (.refl _ _)))))

/-- A start that could not restrict the key file it had written, and one that
loads the key all the same. -/
theorem master_key_is_kept_unrestricted : ∃ s', Starts Secrets.plainCrates "/data" emptyDir
    [.ok zeroKey, .error (secretError "set perms failed: EPERM")] s' ∧
    ∃ mode, s'.files.lookup (keyPath "/data") = some ⟨zeroKey.1, mode⟩ := by
  have hstarts := Starts.start (.start .none generating)
    (loadOrGenerate_held (k := .ret) (DataDir.lookup_put ..) (.refl _ _))
  exact ⟨_, hstarts, ((master_key_is_kept hstarts).2 zeroKey List.mem_cons_self).1⟩

/-- Where the check for the key file fails, a start may put another key in its
place. -/
theorem unseen_key_is_replaced {file : File} (there : s.files.lookup (keyPath dataDir) = some file)
    (key : Key) : ∃ calls s', (loadOrGenerate dataDir .ret).Moves (DataDir.Answer K) s calls
      (.ret (.ok key)) s' ∧ s'.files.lookup (keyPath dataDir) = some ⟨key.1, 0o600⟩ := by
  refine ⟨_, (s.put (keyPath dataDir) ⟨key.1, file.mode⟩).put (keyPath dataDir) ⟨key.1, 0o600⟩,
    .call (.unseen (Finmap.mem_of_lookup_eq_some there)) (.call (.createDirAll dataDir)
      (.call (.fillBytes key) (.call (.write key.1 fun file' there' => ?_)
        (.call (.setPermissions (DataDir.lookup_put ..) 0o600) (.refl _ _))))), DataDir.lookup_put ..⟩
  rw [there] at there'
  cases there'
  rfl

end Nexad.Crypto
