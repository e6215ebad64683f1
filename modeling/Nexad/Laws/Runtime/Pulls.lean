import Nexad.Laws.Runtime.ImageRefs
import Nexad.Runtime.Images

/-!
# One image on both runtimes

Docker's daemon reads the repository that it is asked for by its rule, with
`docker.io` and `library/` understood; `ctr` reads its reference as it stands. A
split at the last colon finds a tag where there is none but a port, and a dot in
front of the first colon finds a registry or misses it. So the same image is
pulled on both runtimes exactly under the conditions of `PullsAlike`
(`same_pull_iff`).
-/

namespace Nexad.Runtime

open Interleave Docker

/-- In some run for the image the daemon is asked with these options. -/
def DockerRuntime.Asks (image : String) (options : CreateImageOptions) : Prop :=
  ∃ calls a ans, (pullImage image).Trace calls a ∧ ⟨.createImage options, ans⟩ ∈ calls

/-- In some run for the image `ctr` is told to pull this reference. -/
def ContainerdRuntime.Passes (self : ContainerdRuntime) (image reference : String) : Prop :=
  ∃ calls a ans, (self.pullImage image).Trace calls a ∧
    ⟨.output ["--namespace", self.nspace, "images", "pull", reference], ans⟩ ∈ calls

/-- The path of a repository on its registry. -/
def officialPath (p : ImageName) : List (List Char) :=
  if p.path.length = 1 ∧ (p.registry.getD .dockerIo).text = "docker.io".toList then
    "library".toList :: p.path
  else p.path

/-- The image that Docker's daemon is asked for. -/
structure DockerReads (options : CreateImageOptions) (q : ImageName) : Prop where
  repository : ∃ p : ImageName, p.tag = none ∧ options.fromImage = String.ofList p.text ∧
    q.registry = some (p.registry.getD .dockerIo) ∧ q.path = officialPath p
  tag : q.tag = some options.tag.toList

/-- The image that a reference names, of which nothing is understood. -/
def CtrReads (reference : String) (q : ImageName) : Prop :=
  q.registry.isSome ∧ reference = String.ofList q.text

/-- A reference without a digest. -/
def undigested (r : ImageName) : ImageRef where
  toImageName := r
  digest := none
  digest_plain := ImageRef.no_digest_plain

/-- Both runtimes pull one image, with the port of the reference and its tag, or `latest`. -/
def SamePull (r : ImageName) : Prop :=
  ∀ (self : ContainerdRuntime) options reference,
    DockerRuntime.Asks (String.ofList r.text) options →
    self.Passes (String.ofList r.text) reference →
    ∃ q, DockerReads options q ∧ CtrReads reference q ∧
      q.registry.bind (·.port) = r.registry.bind (·.port) ∧
      q.tag = some (r.tag.getD "latest".toList)

/-- A registry has a dot before its first colon, comes with a tag if it has a
colon, and with more than one component if it is `docker.io`; without a
registry, a single component has no dot. -/
def PullsAlike (r : ImageName) : Prop :=
  match r.registry with
  | some g => '.' ∈ g.label ∧ (':' ∈ g.text → r.tag.isSome) ∧
      (g.text = "docker.io".toList → r.path.length ≠ 1)
  | none => ∀ component, r.path = [component] → '.' ∉ component

/-! ## What is asked for -/

theorem DockerRuntime.asks_iff {image : String} {options : CreateImageOptions} :
    DockerRuntime.Asks image options ↔ options = createImageOptions image := by
  constructor
  · rintro ⟨calls, a, ans, htrace, hmem⟩
    have hevery : (pullImage image).Every fun op : ImageOp =>
        ∀ options, op = .createImage options → options = createImageOptions image := by
      refine ⟨fun options heq => ?_, fun _ => trivial⟩
      cases heq
      rfl
    exact htrace.every hevery _ hmem options rfl
  · rintro rfl
    exact ⟨_, _, [], .call [] (.ret _), List.mem_singleton_self _⟩

theorem ContainerdRuntime.passes_iff {self : ContainerdRuntime} {image reference : String} :
    self.Passes image reference ↔ reference = normalizeImageRef image := by
  constructor
  · rintro ⟨calls, a, ans, htrace, hmem⟩
    have hevery : (self.pullImage image).Every fun op : CtrOp =>
        ∀ reference, op = .output ["--namespace", self.nspace, "images", "pull", reference] →
          reference = normalizeImageRef image := by
      refine ctrOk_every (fun reference heq => ?_) fun _ => trivial
      cases heq
      rfl
    exact htrace.every hevery _ hmem reference rfl
  · rintro rfl
    have htrace : (self.pullImage image).Trace
        [⟨.output ["--namespace", self.nspace, "images", "pull", normalizeImageRef image],
          .ok ⟨true, "", ""⟩⟩] (.ok ()) := .call _ (.ret _)
    exact ⟨_, _, _, htrace, List.mem_singleton_self _⟩

section Options

variable {r : ImageName}

/-- With a tag, the last colon is its own. -/
theorem createImageOptions_of_tag {t : List Char} (h : r.tag = some t) :
    DockerRuntime.createImageOptions (String.ofList r.text) =
      ⟨String.ofList r.repository, String.ofList t⟩ := by
  have hsplit : Text.rsplitOnce ':' r.text = some (r.repository, t) := by
    refine Text.rsplitOnce_eq_some_iff.mpr ⟨?_, (r.tag_plain t h).2.1⟩
    rw [ImageName.text, h, Option.elim_some]
  simp only [DockerRuntime.createImageOptions, String.toList_ofList, hsplit, Option.getD_some]

/-- Without a tag and without a colon, there is nothing to split. -/
theorem createImageOptions_untagged (h : r.tag = none) (hcolon : ':' ∉ r.repository) :
    DockerRuntime.createImageOptions (String.ofList r.text) =
      ⟨String.ofList r.repository, "latest"⟩ := by
  rw [r.text_of_untagged h]
  simp only [DockerRuntime.createImageOptions, String.toList_ofList,
    Text.rsplitOnce_eq_none_iff.mpr hcolon, Option.getD_none]
  rfl

/-- Without a tag, what stands behind the colon of a registry is taken for one. -/
theorem slash_mem_tag {g : Registry} (h : r.tag = none) (hg : r.registry = some g)
    (hcolon : ':' ∈ g.text) :
    '/' ∈ (DockerRuntime.createImageOptions (String.ofList r.text)).tag.toList := by
  cases hport : Text.rsplitOnce ':' g.text with
  | none => exact absurd hcolon (Text.rsplitOnce_eq_none_iff.mp hport)
  | some parts =>
    obtain ⟨hparts, hnone⟩ := Text.rsplitOnce_eq_some_iff.mp hport
    have hsplit : Text.rsplitOnce ':' r.text =
        some (parts.1, parts.2 ++ '/' :: r.pathText) := by
      refine Text.rsplitOnce_eq_some_iff.mpr ⟨?_, ?_⟩
      · rw [r.text_of_untagged h, ImageName.repository_of_registry hg, hparts, List.append_assoc,
          List.cons_append]
      · simp [hnone, r.colon_notMem_pathText]
    simp only [DockerRuntime.createImageOptions, String.toList_ofList, hsplit, Option.getD_some]
    exact List.mem_append_right _ List.mem_cons_self

/-- A colon of the repository is one of its registry. -/
theorem colon_mem_repository (h : ':' ∈ r.repository) :
    ∃ g, r.registry = some g ∧ ':' ∈ g.text := by
  cases hr : r.registry with
  | none =>
    rw [ImageName.repository_of_none hr] at h
    exact absurd h r.colon_notMem_pathText
  | some g =>
    rw [ImageName.repository_of_registry hr] at h
    refine ⟨g, rfl, ?_⟩
    rcases List.mem_append.mp h with hg | hpath
    · exact hg
    · exact absurd ((List.mem_cons.mp hpath).resolve_left (by decide)) r.colon_notMem_pathText

/-- Where a colon comes with a tag, the repository and the tag are sent, or `latest`. -/
theorem createImageOptions_eq (h : ∀ g, r.registry = some g → ':' ∈ g.text → r.tag.isSome) :
    DockerRuntime.createImageOptions (String.ofList r.text) =
      ⟨String.ofList r.repository, String.ofList (r.tag.getD "latest".toList)⟩ := by
  cases ht : r.tag with
  | some t => exact createImageOptions_of_tag ht
  | none =>
    refine createImageOptions_untagged ht fun hcolon => ?_
    obtain ⟨g, hg, hmem⟩ := colon_mem_repository hcolon
    have hsome := h g hg hmem
    rw [ht] at hsome
    cases hsome

end Options

/-! ## When the images are one -/

section Alike

variable {r : ImageName}

theorem undigested_text : (undigested r).text = r.text :=
  ImageRef.text_of_digest_none _ rfl

theorem imageOfRef_undigested : imageOfRef (undigested r) = String.ofList r.text := by
  rw [imageOfRef, undigested_text]

theorem PullsAlike.dotDecides (h : PullsAlike r) : DotDecides (undigested r) := by
  have hregistry : (undigested r).registry = r.registry := rfl
  rw [PullsAlike] at h
  rw [DotDecides, hregistry]
  cases hr : r.registry with
  | some g =>
    rw [hr] at h
    exact h.1
  | none =>
    rw [hr] at h
    exact fun component hpath => ⟨h component hpath, fun _ _ hd => by cases hd⟩

theorem PullsAlike.port (h : PullsAlike r) :
    ∀ g, r.registry = some g → ':' ∈ g.text → r.tag.isSome := by
  intro g hg
  rw [PullsAlike, hg] at h
  exact h.2.1

/-- The path that Docker understands is that of the reference in full. -/
theorem PullsAlike.officialPath_eq (h : PullsAlike r) :
    (qualified (undigested r)).path = officialPath r.untagged := by
  show (if r.registry.isNone ∧ r.path.length = 1 then "library".toList :: r.path else r.path) =
    if r.path.length = 1 ∧ (r.registry.getD .dockerIo).text = "docker.io".toList then
      "library".toList :: r.path else r.path
  refine if_congr ?_ rfl rfl
  cases hr : r.registry with
  | some g =>
    rw [PullsAlike, hr] at h
    refine iff_of_false (fun hnone => Bool.false_ne_true hnone.1) fun hsingle => ?_
    exact h.2.2 hsingle.2 hsingle.1
  | none => exact ⟨fun hsingle => ⟨hsingle.2, rfl⟩, fun hsingle => ⟨rfl, hsingle.1⟩⟩

/-- Under the conditions the reference in full is the image on both runtimes. -/
theorem samePull_of_pullsAlike (h : PullsAlike r) : SamePull r := by
  intro self options reference hasks hpasses
  rw [DockerRuntime.asks_iff, createImageOptions_eq h.port] at hasks
  have hcolon : ColonDecides (undigested r) := fun g hg hmem => .inl (h.port g hg hmem)
  rw [ContainerdRuntime.passes_iff, ← imageOfRef_undigested,
    normalizeImageRef_of_decides h.dotDecides hcolon] at hpasses
  have htag : (qualified (undigested r)).tag = some (r.tag.getD "latest".toList) := by
    show (if r.tag.isNone ∧ Option.isNone none then some "latest".toList else r.tag) = _
    cases r.tag with
    | some t => exact if_neg fun hnone => Bool.false_ne_true hnone.1
    | none => rfl
  have hdocker : DockerReads options (qualified (undigested r)).toImageName := by
    rw [hasks]
    refine ⟨⟨r.untagged, rfl, ?_, rfl, h.officialPath_eq⟩, ?_⟩
    · rw [r.untagged.text_of_untagged rfl]
      rfl
    · exact htag.trans (congrArg some String.toList_ofList.symm)
  have hctr : CtrReads reference (qualified (undigested r)).toImageName := by
    refine ⟨rfl, ?_⟩
    rw [hpasses, imageOfRef, ImageRef.text_of_digest_none _ rfl]
  have hport : ((qualified (undigested r)).registry.bind (·.port)) = r.registry.bind (·.port) := by
    show (r.registry.getD .dockerIo).port = r.registry.bind (·.port)
    cases r.registry <;> rfl
  exact ⟨_, hdocker, hctr, hport, htag⟩

/-- A daemon that reads its tag was not sent a port for one. -/
theorem DockerReads.port {q : ImageName}
    (h : DockerReads (DockerRuntime.createImageOptions (String.ofList r.text)) q) :
    ∀ g, r.registry = some g → ':' ∈ g.text → r.tag.isSome := by
  intro g hg hcolon
  cases ht : r.tag with
  | some t => rfl
  | none => exact absurd (slash_mem_tag ht hg hcolon) (q.tag_plain _ h.tag).1

/-- The daemon reads the registry and the path of the reference. -/
theorem DockerReads.repository_eq {q : ImageName}
    (h : DockerReads (DockerRuntime.createImageOptions (String.ofList r.text)) q) :
    ∃ p : ImageName, p.registry.map Registry.text = r.registry.map Registry.text ∧
      p.path = r.path ∧ q.registry = some (p.registry.getD .dockerIo) ∧ q.path = officialPath p := by
  obtain ⟨p, hp, hsent, hregistry, hpath⟩ := h.repository
  rw [createImageOptions_eq h.port] at hsent
  have hrepository : p.repository = r.repository := by
    rw [← p.text_of_untagged hp]
    exact (String.ofList_injective hsent).symm
  obtain ⟨hsame, hsamePath⟩ := ImageName.repository_unique hrepository
  exact ⟨p, hsame, hsamePath, hregistry, hpath⟩

/-- What `ctr` reads is the reference with what was added. -/
theorem CtrReads.text_eq {q : ImageName} (h : CtrReads (normalizeImageRef (String.ofList r.text)) q) :
    addedFront r.text ++ (r.text ++ addedTag r.text) = q.text := by
  have htext := congrArg String.toList h.2
  rwa [normalizeImageRef_toList, String.toList_ofList, String.toList_ofList] at htext

/-- A front that was added begins with Docker's own registry. -/
theorem front_eq {front : List Char} (h : front ∈ addedFronts) (hne : front ≠ []) :
    ∃ s, front = "docker.io".toList ++ '/' :: s := by
  simp only [addedFronts, List.mem_cons, List.not_mem_nil, or_false] at h
  obtain rfl | rfl | rfl := h
  · exact absurd rfl hne
  · exact ⟨[], rfl⟩
  · exact ⟨"library/".toList, rfl⟩

/-- Behind a single component no slash stands, nor in it. -/
theorem slash_notMem_single {component : List Char} (hpath : r.path = [component])
    (cs : List Char) : '/' ∉ r.pathText ++ (r.tag.elim [] (':' :: ·) ++ addedTag cs) := by
  have hcomponent := (r.path_plain component (by rw [hpath]; exact List.mem_cons_self)).1
  have htag : '/' ∉ r.tag.elim [] (':' :: ·) := by
    have hbehind := (undigested r).slash_notMem_behind
    exact fun hmem => hbehind (List.mem_append_left _ hmem)
  have hadded : '/' ∉ addedTag cs := by
    unfold addedTag
    split <;> decide
  rw [ImageName.pathText_single hpath]
  simp only [List.mem_append, not_or]
  exact ⟨hcomponent, htag, hadded⟩

/-- A registry that both read has a dot before its first colon. -/
theorem dot_mem_label {g : Registry} (hr : r.registry = some g) {s : List Char}
    (h : addedFront r.text ++ (r.text ++ addedTag r.text) = g.text ++ '/' :: s) :
    '.' ∈ g.label := by
  by_contra hdot
  have hne : addedFront r.text ≠ [] := by
    rw [← undigested_text] at h ⊢
    exact fun hnil => hdot ((addedFront_registry (undigested r) hr).mp hnil)
  obtain ⟨front, hfront⟩ := front_eq (addedFront_mem _) hne
  rw [hfront, List.append_assoc, List.cons_append] at h
  obtain ⟨hio, -⟩ := Text.parts_unique (by decide) g.slash_notMem h
  rw [Registry.label, ← hio] at hdot
  exact hdot (by decide)

/-- An image that both read bears the conditions out. -/
theorem pullsAlike_of_samePull (h : SamePull r) : PullsAlike r := by
  obtain ⟨q, hdocker, hctr, -, -⟩ := h (ContainerdRuntime.new "") _ _
    (DockerRuntime.asks_iff.mpr rfl) (ContainerdRuntime.passes_iff.mpr rfl)
  obtain ⟨p, hsame, hsamePath, hregistry, hpath⟩ := hdocker.repository_eq
  have htext := hctr.text_eq
  have hq : q.text = (p.registry.getD .dockerIo).text ++
      '/' :: (q.pathText ++ q.tag.elim [] (':' :: ·)) := by
    rw [ImageName.text, ImageName.repository_of_registry hregistry, List.append_assoc,
      List.cons_append]
  rw [hq] at htext
  unfold PullsAlike
  cases hr : r.registry with
  | some g =>
    obtain ⟨g', hp, hg'⟩ : ∃ g', p.registry = some g' ∧ g'.text = g.text := by
      rw [hr] at hsame
      exact Option.map_eq_some_iff.mp hsame
    rw [hp, Option.getD_some, hg'] at htext
    have hdot := dot_mem_label hr htext
    refine ⟨hdot, hdocker.port g hr, fun hio hlength => ?_⟩
    obtain ⟨component, hcomponent⟩ := List.length_eq_one_iff.mp hlength
    have hlibrary : q.path = ["library".toList, component] := by
      rw [hpath, officialPath, hsamePath, hp, Option.getD_some, hg', if_pos ⟨hlength, hio⟩,
        hcomponent]
    have hfront : addedFront r.text = [] := by
      rw [← undigested_text]
      exact (addedFront_registry (undigested r) hr).mpr hdot
    rw [hfront, List.nil_append] at htext
    nth_rewrite 1 [ImageName.text, ImageName.repository_of_registry hr] at htext
    rw [List.append_assoc, List.append_assoc, List.cons_append] at htext
    obtain ⟨-, hbehind⟩ := Text.parts_unique g.slash_notMem g.slash_notMem htext
    refine slash_notMem_single hcomponent r.text ?_
    rw [hbehind, ImageName.pathText_cons hlibrary]
    exact List.mem_append_left _ (List.mem_append_right _ List.mem_cons_self)
  | none =>
    intro component hcomponent hdot
    have hfront : addedFront r.text = [] := by
      rw [← undigested_text]
      exact if_pos ((dot_mem_firstPart (undigested r) hr hcomponent).mpr (.inl hdot))
    rw [hfront, List.nil_append] at htext
    nth_rewrite 1 [ImageName.text, ImageName.repository_of_none hr] at htext
    rw [List.append_assoc] at htext
    refine slash_notMem_single hcomponent r.text ?_
    rw [htext]
    exact List.mem_append_right _ List.mem_cons_self

end Alike

/-- The same image is pulled on both runtimes exactly under the conditions. -/
theorem same_pull_iff (r : ImageName) : SamePull r ↔ PullsAlike r :=
  ⟨pullsAlike_of_samePull, samePull_of_pullsAlike⟩

/-- Docker is asked for `registry.local` with the port and the path for a tag. -/
theorem port_image_misread :
    DockerRuntime.createImageOptions (String.ofList portImage.toImageName.text) =
        ⟨"registry.local", "5000/img"⟩ ∧
      normalizeImageRef (String.ofList portImage.toImageName.text) = "registry.local:5000/img" ∧
      ¬ SamePull portImage.toImageName := by
  refine ⟨by decide, by decide, fun h => ?_⟩
  have htag := (pullsAlike_of_samePull h).port _ rfl (by decide)
  exact absurd htag (by decide)

end Nexad.Runtime
