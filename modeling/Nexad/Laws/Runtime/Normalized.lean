import Nexad.Laws.Runtime.Pulls
import Nexad.Laws.Transport.AssignPod

/-!
# References that normalizing leaves alone

`normalize_image_ref` is applied wherever an image is handed to `ctr`, and to
whatever text the image is. A reference has nothing added to it exactly when it
is in full as the function takes it: there is a colon in it, and a dot before
the first colon of its first segment (`normalizeImageRef_eq_self_iff`). What it
returns is always in full, so a second time adds nothing
(`normalizeImageRef_idempotent`), and an assignment creates its container of the
reference that it pulled (`assignRun_created_of_pulled`).
-/

namespace Nexad.Runtime

open Interleave

/-- The first segment of a reference up to its first colon. -/
def hostPart (reference : List Char) : List Char :=
  (reference.takeWhile (· != '/')).takeWhile (· != ':')

/-- A reference in full, as it is taken for one. -/
structure InFull (reference : String) : Prop where
  colon : ':' ∈ reference.toList
  dot : '.' ∈ hostPart reference.toList

/-- Exactly the references in full are left as they are. -/
theorem normalizeImageRef_eq_self_iff {reference : String} :
    normalizeImageRef reference = reference ↔ InFull reference := by
  have hframed : addedFront reference.toList ++ (reference.toList ++ addedTag reference.toList) =
      [] ++ (reference.toList ++ []) ↔
        addedFront reference.toList = [] ∧ addedTag reference.toList = [] :=
    framed_eq_iff _ (addedFront_mem _) (by decide) (addedTag_mem _) (by decide)
  rw [List.nil_append, List.append_nil, addedFront_eq_nil_iff, addedTag_eq_nil_iff] at hframed
  rw [← String.toList_inj, normalizeImageRef_toList, hframed]
  exact ⟨fun h => ⟨h.2, h.1⟩, fun h => ⟨h.dot, h.colon⟩⟩

/-! ## What is returned -/

/-- The part that is searched for a dot does not get shorter at the end of a text. -/
theorem hostPart_append (cs tag : List Char) : hostPart cs <+: hostPart (cs ++ tag) :=
  Text.takeWhile_mono _ (Text.takeWhile_mono _ (List.prefix_append cs tag))

theorem hostPart_dockerIo (cs : List Char) :
    hostPart ("docker.io".toList ++ '/' :: cs) = "docker.io".toList := by
  rw [hostPart, Text.takeWhile_append_cons (by decide), Text.takeWhile_of_notMem (by decide)]

/-- Whatever the text, what is returned is in full. -/
theorem inFull_normalizeImageRef (image : String) : InFull (normalizeImageRef image) where
  colon := by
    rw [normalizeImageRef_toList]
    refine List.mem_append_right _ (List.mem_append.mpr ?_)
    by_cases hcolon : ':' ∈ image.toList
    · exact .inl hcolon
    · rw [addedTag, if_neg hcolon]
      exact .inr List.mem_cons_self
  dot := by
    rw [normalizeImageRef_toList]
    by_cases hfront : addedFront image.toList = []
    · have hdot := (addedFront_eq_nil_iff image.toList).mp hfront
      rw [hfront, List.nil_append]
      exact (hostPart_append image.toList _).subset hdot
    · obtain ⟨front, hfront⟩ := front_eq (addedFront_mem image.toList) hfront
      rw [hfront, List.append_assoc, List.cons_append, hostPart_dockerIo]
      decide

/-! ## What `ctr` is given -/

/-- In some run for the configuration `ctr` is told to create a container of this reference. -/
def ContainerdRuntime.Creates (self : ContainerdRuntime) (config : ContainerConfig)
    (reference : String) : Prop :=
  ∃ calls a args ans, (self.createContainer config).Trace calls a ∧
    ⟨.output ("--namespace" :: self.nspace :: "containers" :: "create" :: reference :: args),
      ans⟩ ∈ calls

theorem ContainerdRuntime.creates_iff {self : ContainerdRuntime} {config : ContainerConfig}
    {reference : String} :
    self.Creates config reference ↔ reference = normalizeImageRef config.image := by
  constructor
  · rintro ⟨calls, a, args, ans, htrace, hmem⟩
    have hevery : (self.createContainer config).Every fun op : CtrOp =>
        ∀ reference args, op = .output ("--namespace" :: self.nspace :: "containers" ::
          "create" :: reference :: args) → reference = normalizeImageRef config.image := by
      refine createContainer_every (fun reference args heq => ?_) (fun _ _ heq => by cases heq)
      injection heq with hargs
      simp only [createArgs, List.cons_append, List.cons.injEq] at hargs
      exact hargs.2.2.2.2.1.symm
    exact htrace.every hevery _ hmem reference args rfl
  · rintro rfl
    have htrace : (self.createContainer config).Trace
        [⟨.output ("--namespace" :: self.nspace :: createArgs config), .error ""⟩] _ :=
      .call _ (.ret _)
    exact ⟨_, _, _, _, htrace, List.mem_singleton_self _⟩

/-- The reference that a container is created of is the one that its image is
pulled by, and normalizing leaves it alone. -/
theorem ContainerdRuntime.created_of_pulled {self : ContainerdRuntime} {config : ContainerConfig}
    {pulled created : String} (hpulled : self.Passes config.image pulled)
    (hcreated : self.Creates config created) :
    created = pulled ∧ normalizeImageRef pulled = pulled := by
  rw [passes_iff] at hpulled
  rw [creates_iff] at hcreated
  rw [hcreated, hpulled]
  exact ⟨rfl, normalizeImageRef_eq_self_iff.mpr (inFull_normalizeImageRef config.image)⟩

/-- Normalizing twice is normalizing once, for every text: what is returned has a
colon, and a dot before the first colon of its first segment. So the reference
that an image is pulled by, and that a container is later created of, is one
that normalizing leaves alone. -/
theorem normalizeImageRef_idempotent (image : String) :
    normalizeImageRef (normalizeImageRef image) = normalizeImageRef image ∧
      InFull (normalizeImageRef image) ∧
      ∀ (self : ContainerdRuntime) (config : ContainerConfig) (pulled created : String),
        config.image = image → self.Passes image pulled → self.Creates config created →
          created = pulled ∧ normalizeImageRef pulled = pulled := by
  have hfull := inFull_normalizeImageRef image
  refine ⟨normalizeImageRef_eq_self_iff.mpr hfull, hfull, ?_⟩
  rintro self config pulled created rfl hpulled hcreated
  exact ContainerdRuntime.created_of_pulled hpulled hcreated

/-- On a machine with containerd an assignment creates its container of the
reference that it pulled. -/
theorem assignRun_created_of_pulled {D : Domain} {W : Workload D} {pod : Pod D}
    {spec : D.DeploymentSpec} {calls : List RuntimeCall} (h : AssignRun W pod spec calls)
    {image : String} {config : ContainerConfig} {imageAns : Except NexaError Unit}
    {configAns : Except NexaError String} (hpull : ⟨.pullImage image, imageAns⟩ ∈ calls)
    (hcreate : ⟨.createContainer config, configAns⟩ ∈ calls) {self : ContainerdRuntime}
    {pulled created : String} (hpulled : self.Passes image pulled)
    (hcreated : self.Creates config created) :
    created = pulled ∧ normalizeImageRef pulled = pulled := by
  have himage : image = config.image := by
    rw [h.image hpull, h.config hcreate]
    rfl
  rw [himage] at hpulled
  exact ContainerdRuntime.created_of_pulled hpulled hcreated

end Nexad.Runtime
