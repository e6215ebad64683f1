import Mathlib.Logic.Function.Basic
import Nexad.Base.Interleave
import Nexad.Base.Text

/-!
# Files under directories

Programs that make directories, and look for, write and remove files in them.
Which file a path names is for the operating system to say: `place` is its
resolution of paths, under which several paths may name one file.
-/

namespace Interleave

/-- `Path::join`: an absolute path stands for itself. -/
def pathJoin (dir path : String) : String :=
  if path.toList.head? = some '/' then path else Text.joinPath dir path

/-- The operations. -/
inductive DirOp where
  | createDirAll (path : String)
  | exists (path : String)
  | write (path content : String)
  | removeFile (path : String)
  deriving DecidableEq, Repr

/-- Looking for a file answers whether it is there. -/
abbrev dirSig : Sig where
  Op := DirOp
  Ans
    | .exists _ => Bool
    | _ => Except String Unit

/-- The files, by the places that paths resolve to. -/
abbrev PlacedFiles (κ : Type) := κ → Option String

/-- How the files answer when no operation fails. A removal succeeds where
there is a file. -/
inductive Succeeds {κ : Type} [DecidableEq κ] (place : String → κ) (files : PlacedFiles κ) :
    (op : DirOp) → dirSig.Ans op → PlacedFiles κ → Prop
  | createDirAll (path : String) : Succeeds place files (.createDirAll path) (.ok ()) files
  | exists (path : String) :
      Succeeds place files (.exists path) (files (place path)).isSome files
  | write (path content : String) : Succeeds place files (.write path content) (.ok ())
      (Function.update files (place path) (some content))
  | removeFile {path : String} (found : (files (place path)).isSome) :
      Succeeds place files (.removeFile path) (.ok ()) (Function.update files (place path) none)

end Interleave
