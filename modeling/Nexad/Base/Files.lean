import Mathlib.Data.Finmap
import Nexad.Base.Interleave

/-!
# Whole-file operations

Programs that write, read and remove whole files, as calls over `fileSig`, on
a map from paths to contents. Removing or reading a file that is not there
fails with `notFound`. Any operation may also fail for another reason: then a
removal or a read has changed nothing, and a write has left its target alone
or torn.

`Exec.write_ok` and its siblings invert one call of a program that ran alone.
-/

namespace Interleave

/-- Why a file operation failed. -/
structure IoError where
  notFound : Bool
  text : String
  deriving DecidableEq, Repr

/-- The whole-file operations. -/
inductive FileOp where
  | write (path content : String)
  | read (path : String)
  | removeFile (path : String)
  deriving DecidableEq, Repr

/-- A read answers with the content, the others with nothing. -/
abbrev fileSig : Sig where
  Op := FileOp
  Ans
    | .write .. => Except IoError Unit
    | .read .. => Except IoError String
    | .removeFile .. => Except IoError Unit

/-- The files by path. -/
abbrev Files := Finmap fun _ : String => String

/-- How the files answer. -/
inductive FileAnswer (fs : Files) : (op : FileOp) → fileSig.Ans op → Files → Prop
  | write (path content : String) :
      FileAnswer fs (.write path content) (.ok ()) (fs.insert path content)
  | writeFailed (path content : String) (e : IoError) :
      FileAnswer fs (.write path content) (.error e) fs
  | writeTorn (path content torn : String) (e : IoError) :
      FileAnswer fs (.write path content) (.error e) (fs.insert path torn)
  | read {path content : String} (found : fs.lookup path = some content) :
      FileAnswer fs (.read path) (.ok content) fs
  | readMissing {path : String} (text : String) (missing : fs.lookup path = none) :
      FileAnswer fs (.read path) (.error ⟨true, text⟩) fs
  | readFailed (path text : String) : FileAnswer fs (.read path) (.error ⟨false, text⟩) fs
  | removeFile {path : String} (found : path ∈ fs) :
      FileAnswer fs (.removeFile path) (.ok ()) (fs.erase path)
  | removeMissing {path : String} (text : String) (missing : path ∉ fs) :
      FileAnswer fs (.removeFile path) (.error ⟨true, text⟩) fs
  | removeFailed (path text : String) :
      FileAnswer fs (.removeFile path) (.error ⟨false, text⟩) fs

/-- A read that is refused: it fails, and not because nothing is there. -/
def RefusedRead : (op : FileOp) → fileSig.Ans op → Prop
  | .read _, .error e => e.notFound = false
  | .read _, .ok _ => False
  | .write .., _ => False
  | .removeFile _, _ => False

/-- How the files answer where every read is refused, or none is. -/
def AnswersRefusing (refused : Prop) (fs : Files) (op : FileOp) (ans : fileSig.Ans op) (fs' : Files) :
    Prop :=
  FileAnswer fs op ans fs' ∧ ∀ path, op = .read path → (RefusedRead op ans ↔ refused)

/-- An operation that was carried out. -/
def Succeeded : (op : FileOp) → fileSig.Ans op → Prop
  | .write .., answer => answer.isOk = true
  | .read _, answer => answer.isOk = true
  | .removeFile _, answer => answer.isOk = true

/-- How the files answer where nothing fails. -/
def AnswersWell (fs : Files) (op : FileOp) (ans : fileSig.Ans op) (fs' : Files) : Prop :=
  FileAnswer fs op ans fs' ∧ Succeeded op ans

/-- How the files answer writes of which the `n`-th fails, with its target left
as it was. The state counts the writes. -/
inductive FailsAt (n : Nat) (e : IoError) :
    Files × Nat → (op : FileOp) → fileSig.Ans op → Files × Nat → Prop
  | write {fs : Files} {k : Nat} (path content : String) (others : k ≠ n) :
      FailsAt n e (fs, k) (.write path content) (.ok ()) (fs.insert path content, k + 1)
  | failed {fs : Files} (path content : String) :
      FailsAt n e (fs, n) (.write path content) (.error e) (fs, n + 1)

namespace Prog

variable {α : Type} {fs fs' : Files} {path content : String} {a : α}

/-- A file program that ran alone. -/
abbrev ExecFiles (p : Prog fileSig α) (fs : Files) (a : α) (fs' : Files) : Prop :=
  Exec (σ := fileSig) FileAnswer p fs a fs'

/-- It ran alone where reads are refused, or are not. -/
abbrev ExecRefusing (refused : Prop) (p : Prog fileSig α) (fs : Files) (a : α) (fs' : Files) : Prop :=
  Exec (σ := fileSig) (AnswersRefusing refused) p fs a fs'

/-- It ran alone where nothing fails. -/
abbrev ExecWell (p : Prog fileSig α) (fs : Files) (a : α) (fs' : Files) : Prop :=
  Exec (σ := fileSig) AnswersWell p fs a fs'

/-- It ran alone where the `n`-th write fails. -/
abbrev ExecFailing (n : Nat) (e : IoError) (p : Prog fileSig α) (fs : Files) (a : α) (fs' : Files) :
    Prop :=
  ∃ writes, Exec (σ := fileSig) (FailsAt n e) p (fs, 0) a (fs', writes)

theorem ExecRefusing.execFiles {refused : Prop} {p : Prog fileSig α}
    (h : p.ExecRefusing refused fs a fs') : p.ExecFiles fs a fs' := by
  induction h with
  | ret a s => exact .ret a s
  | call answered _ ih => exact .call answered.1 ih

/-- A read that succeeds finds the file, and goes on with its content. -/
theorem ExecWell.read {k : fileSig.Ans (.read path) → Prog fileSig α}
    (h : (Prog.call (σ := fileSig) (.read path) k).ExecWell fs a fs') :
    ∃ content, fs.lookup path = some content ∧ (k (.ok content)).ExecWell fs a fs' := by
  cases h with
  | call answered rest =>
    obtain ⟨answered, hsucceeded⟩ := answered
    cases answered with
    | read found => exact ⟨_, found, rest⟩
    | readMissing => cases hsucceeded
    | readFailed => cases hsucceeded

/-- A write that succeeds goes on from the file it wrote. -/
theorem ExecWell.write {k : fileSig.Ans (.write path content) → Prog fileSig α}
    (h : (Prog.call (σ := fileSig) (.write path content) k).ExecWell fs a fs') :
    (k (.ok ())).ExecWell (fs.insert path content) a fs' := by
  cases h with
  | call answered rest =>
    obtain ⟨answered, hsucceeded⟩ := answered
    cases answered with
    | write => exact rest
    | writeFailed => cases hsucceeded
    | writeTorn => cases hsucceeded

/-- A failing write is one of the ways in which files answer. -/
theorem ExecFailing.execFiles {n : Nat} {e : IoError} {p : Prog fileSig α}
    (h : p.ExecFailing n e fs a fs') : p.ExecFiles fs a fs' := by
  obtain ⟨writes, h⟩ := h
  generalize hs : (fs, 0) = s at h
  generalize hs' : (fs', writes) = s' at h
  have hrun : p.ExecFiles s.1 a s'.1 := by
    clear hs hs'
    induction h with
    | ret a s => exact .ret a s.1
    | call answered _ ih =>
      cases answered with
      | write path content => exact .call (.write path content) ih
      | failed path content => exact .call (.writeFailed path content e) ih
  rwa [← hs, ← hs'] at hrun

/-- No file is read. -/
def NoReads (p : Prog fileSig α) : Prop :=
  Every (σ := fileSig) (fun op : FileOp => ∀ path, op ≠ .read path) p

/-- Then it does not matter whether reads are refused. -/
theorem execRefusing_of_noReads {p : Prog fileSig α} (refused : Prop) (hreads : p.NoReads)
    (h : p.ExecFiles fs a fs') : p.ExecRefusing refused fs a fs' :=
  Exec.mono (σ := fileSig) (fun _ _ _ _ hop answered =>
    ⟨answered, fun path hread => absurd hread (hop path)⟩) hreads h

/-- With a single read in front, it is refused or it is not. -/
theorem exists_execRefusing {k : fileSig.Ans (.read path) → Prog fileSig α}
    (hreads : ∀ ans, (k ans).NoReads)
    (h : (Prog.call (σ := fileSig) (.read path) k).ExecFiles fs a fs') :
    ∃ refused, (Prog.call (σ := fileSig) (.read path) k).ExecRefusing refused fs a fs' := by
  cases h with
  | call answered rest =>
    exact ⟨_, .call ⟨answered, fun _ _ => Iff.rfl⟩ (execRefusing_of_noReads _ (hreads _) rest)⟩

end Prog

end Interleave
