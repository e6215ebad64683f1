import Nexad.Runtime.Containerd
import Nexad.Runtime.Docker

/-!
# Pulling images

`pull_image` of both runtimes. Docker is asked for a repository and a tag, and
answers with the progress of the pull; `ctr` is given the whole reference.
-/

namespace Nexad.Runtime

open Interleave

/-- The fields of `CreateImageOptions` that the runtime sets. -/
structure CreateImageOptions where
  fromImage : String
  tag : String
  deriving DecidableEq, Repr

inductive ImageOp where
  | createImage (options : CreateImageOptions)
  deriving DecidableEq, Repr

/-- The daemon answers with the steps of the pull. -/
abbrev imageSig : Sig where
  Op := ImageOp
  Ans _ := List (Except String Unit)

inductive PullError where
  /-- `NexaError::ImagePull` -/
  | imagePull (message : String)
  deriving DecidableEq, Repr

namespace DockerRuntime

/-- The repository and the tag of an image. -/
def createImageOptions (image : String) : CreateImageOptions :=
  let (repo, tag) := (Text.rsplitOnce ':' image.toList).getD (image.toList, "latest".toList)
  { fromImage := String.ofList repo, tag := String.ofList tag }

/-- `DockerRuntime::pull_image`: the first step that fails is the error. -/
def pullImage (image : String) : Prog imageSig (Except PullError Unit) :=
  .call (.createImage (createImageOptions image)) fun (stream : List (Except String Unit)) =>
    .ret ((stream.forM id).mapError PullError.imagePull)

end DockerRuntime

/-- `ContainerdRuntime::pull_image`. -/
def ContainerdRuntime.pullImage (self : ContainerdRuntime) (image : String) :
    Prog ctrSig (Except NexaError Unit) :=
  self.ctrOk ["images", "pull", normalizeImageRef image] fun _ => .ret (.ok ())

end Nexad.Runtime
