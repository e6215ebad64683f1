import Nexad.Base.ImageRef
import Nexad.Runtime.Containerd

/-!
# Qualified image references

`normalize_image_ref` puts a registry in front of a reference and a tag behind
it, or neither (`normalizeImageRef_toList`). Where it takes the first component
for a registry it goes by a dot before the first colon, and where it sees a tag
by any colon at all. So a reference is qualified without a change to what it
names exactly when Docker's rule decides by that dot too, and no colon is that
of a port (`image_ref_qualified_iff`).
-/

namespace Nexad.Runtime

open Docker

/-- The reference in full: with `docker.io`, and `library/` before a single
component, when no registry was given, and with `latest` when neither tag nor
digest was. -/
def qualified (r : ImageRef) : ImageRef where
  registry := some (r.registry.getD .dockerIo)
  path := if r.registry.isNone ∧ r.path.length = 1 then "library".toList :: r.path else r.path
  tag := if r.tag.isNone ∧ r.digest.isNone then some "latest".toList else r.tag
  digest := r.digest
  path_ne := by
    split
    · exact List.cons_ne_nil _ _
    · exact r.path_ne
  path_plain := by
    intro component hmem
    split at hmem
    · rcases List.mem_cons.mp hmem with rfl | hmem
      · decide
      · exact r.path_plain component hmem
    · exact r.path_plain component hmem
  tag_plain := by
    intro t ht
    split at ht
    · cases ht
      decide
    · exact r.tag_plain t ht
  rule := fun h => absurd h (Option.some_ne_none _)
  digest_plain := r.digest_plain

/-- What is put in front of a reference. -/
def missingFront (r : ImageRef) : List Char :=
  if r.registry.isSome then []
  else if r.path.length = 1 then "docker.io/library/".toList
  else "docker.io/".toList

/-- What is put behind it. -/
def missingTag (r : ImageRef) : List Char :=
  if r.tag.isNone ∧ r.digest.isNone then ":latest".toList else []

theorem qualified_registry (r : ImageRef) :
    (qualified r).registry = some (r.registry.getD .dockerIo) :=
  rfl

theorem qualified_path (r : ImageRef) : (qualified r).path =
    if r.registry.isNone ∧ r.path.length = 1 then "library".toList :: r.path else r.path :=
  rfl

theorem qualified_tag (r : ImageRef) : (qualified r).tag =
    if r.tag.isNone ∧ r.digest.isNone then some "latest".toList else r.tag :=
  rfl

/-- A repository in full. -/
theorem qualified_repository (r : ImageRef) :
    (qualified r).repository = missingFront r ++ r.repository := by
  have hg := qualified_registry r
  have hpath := qualified_path r
  unfold missingFront
  cases hr : r.registry with
  | some g =>
    rw [hr, Option.getD_some] at hg
    rw [hr, Option.isNone_some, if_neg (fun h => Bool.false_ne_true h.1)] at hpath
    rw [ImageName.repository_of_registry hg, ImageName.repository_of_registry hr,
      ImageName.pathText, hpath]
    rfl
  | none =>
    rw [hr, Option.getD_none] at hg
    rw [ImageName.repository_of_registry hg, ImageName.repository_of_none hr]
    by_cases hsingle : r.path.length = 1
    · obtain ⟨component, hcomponent⟩ := List.length_eq_one_iff.mp hsingle
      rw [if_pos ⟨by rw [hr]; rfl, hsingle⟩, hcomponent] at hpath
      rw [ImageName.pathText_cons hpath, List.intercalate_singleton,
        ImageName.pathText_single hcomponent, if_pos hsingle]
      rfl
    · rw [if_neg (fun h => hsingle h.2)] at hpath
      rw [ImageName.pathText, hpath, if_neg hsingle]
      rfl

/-- A reference in full is the reference, with what was missing. -/
theorem qualified_text (r : ImageRef) :
    (qualified r).text = missingFront r ++ (r.text ++ missingTag r) := by
  have hbehind : (qualified r).behind = r.behind ++ missingTag r := by
    have hdigest : (qualified r).digest = r.digest := rfl
    rw [ImageRef.behind, ImageRef.behind, hdigest, qualified_tag, missingTag]
    cases r.tag with
    | some t => rw [if_neg (fun h => Bool.false_ne_true h.1),
        if_neg (fun h => Bool.false_ne_true h.1), List.append_nil]
    | none =>
      cases r.digest with
      | some d => rw [if_neg (fun h => Bool.false_ne_true h.2),
          if_neg (fun h => Bool.false_ne_true h.2), List.append_nil]
      | none => rfl
  rw [ImageRef.text, qualified_repository, hbehind, ImageRef.text]
  simp only [List.append_assoc]

/-- The front of a normalized reference. -/
def addedFront (cs : List Char) : List Char :=
  if '.' ∈ (cs.takeWhile (· != '/')).takeWhile (· != ':') then []
  else if '/' ∈ ((Text.rsplitOnce ':' cs).map Prod.fst).getD cs then "docker.io/".toList
  else "docker.io/library/".toList

def addedTag (cs : List Char) : List Char :=
  if ':' ∈ cs then [] else ":latest".toList

theorem addedFront_eq_nil_iff (cs : List Char) :
    addedFront cs = [] ↔ '.' ∈ (cs.takeWhile (· != '/')).takeWhile (· != ':') := by
  unfold addedFront
  split
  · next hdot => exact iff_of_true rfl hdot
  · next hdot =>
    refine iff_of_false ?_ hdot
    split <;> decide

theorem addedTag_eq_nil_iff (cs : List Char) : addedTag cs = [] ↔ ':' ∈ cs := by
  unfold addedTag
  split
  · next hcolon => exact iff_of_true rfl hcolon
  · next hcolon => exact iff_of_false (by decide) hcolon

/-- A normalized reference is the reference, with what was added. -/
theorem normalizeImageRef_toList (image : String) :
    (normalizeImageRef image).toList =
      addedFront image.toList ++ (image.toList ++ addedTag image.toList) := by
  have hparts : (((Text.rsplitOnce ':' image.toList).getD (image.toList, "latest".toList)).1 ++
      ':' :: ((Text.rsplitOnce ':' image.toList).getD (image.toList, "latest".toList)).2) =
        image.toList ++ addedTag image.toList ∧
      ((Text.rsplitOnce ':' image.toList).map Prod.fst).getD image.toList =
        ((Text.rsplitOnce ':' image.toList).getD (image.toList, "latest".toList)).1 := by
    unfold addedTag
    cases hsplit : Text.rsplitOnce ':' image.toList with
    | none =>
      rw [if_neg (Text.rsplitOnce_eq_none_iff.mp hsplit)]
      exact ⟨rfl, rfl⟩
    | some parts =>
      obtain ⟨himage, -⟩ := Text.rsplitOnce_eq_some_iff.mp hsplit
      refine ⟨?_, rfl⟩
      have hmem : ':' ∈ image.toList := by
        rw [himage]
        exact List.mem_append_right _ List.mem_cons_self
      rw [if_pos hmem, List.append_nil, Option.getD_some, ← himage]
  obtain ⟨hjoin, hname⟩ := hparts
  unfold normalizeImageRef addedFront
  simp only [Text.splitOn_headD, hname]
  generalize (Text.rsplitOnce ':' image.toList).getD (image.toList, "latest".toList) = parts
    at hjoin
  split
  · unfold addedTag
    split
    · rw [List.nil_append, List.append_nil]
    · rw [List.nil_append, String.toList_append]
  · have hadded : ∀ front : String,
        (front ++ String.ofList parts.1 ++ ":" ++ String.ofList parts.2).toList =
          front.toList ++ (image.toList ++ addedTag image.toList) := by
      intro front
      rw [← hjoin]
      simp only [String.toList_append, String.toList_ofList, List.append_assoc]
      rfl
    split
    · exact hadded "docker.io/"
    · exact hadded "docker.io/library/"

/-! ## Dots and colons -/

/-- Before the first colon of the first component there is a dot exactly when
Docker's rule finds a registry. -/
def DotDecides (r : ImageRef) : Prop :=
  match r.registry with
  | some g => '.' ∈ g.label
  | none => ∀ component, r.path = [component] →
      '.' ∉ component ∧ (r.tag = none → ∀ d, r.digest = some d → '.' ∉ d.1)

/-- A colon of the registry does not stand in for that of a tag or a digest. -/
def ColonDecides (r : ImageRef) : Prop :=
  ∀ g, r.registry = some g → ':' ∈ g.text → r.tag.isSome ∨ r.digest.isSome

section Parts

variable (r : ImageRef)

theorem addedTag_eq_iff : addedTag r.text = missingTag r ↔ ColonDecides r := by
  unfold addedTag missingTag
  by_cases hgiven : r.tag.isSome ∨ r.digest.isSome
  · have hmissing : ¬ (r.tag.isNone ∧ r.digest.isNone) := by
      rintro ⟨ht, hd⟩
      rcases hgiven with hgiven | hgiven
      · rw [Option.isNone_iff_eq_none.mp ht] at hgiven
        cases hgiven
      · rw [Option.isNone_iff_eq_none.mp hd] at hgiven
        cases hgiven
    rw [if_pos (r.colon_mem_text.mpr (.inr hgiven)), if_neg hmissing]
    exact iff_of_true rfl fun _ _ _ => hgiven
  · have hmissing : r.tag.isNone ∧ r.digest.isNone := by
      rw [not_or, Bool.not_eq_true, Bool.not_eq_true, Option.isSome_eq_false_iff,
        Option.isSome_eq_false_iff] at hgiven
      exact hgiven
    rw [if_pos hmissing]
    by_cases hport : ∃ g, r.registry = some g ∧ ':' ∈ g.text
    · obtain ⟨g, hg, hcolon⟩ := hport
      rw [if_pos (r.colon_mem_text.mpr (.inl ⟨g, hg, hcolon⟩))]
      exact iff_of_false (by decide) fun h => hgiven (h g hg hcolon)
    · rw [if_neg fun h => (r.colon_mem_text.mp h).elim hport hgiven]
      exact iff_of_true rfl fun g hg hcolon => absurd ⟨g, hg, hcolon⟩ hport

/-- The first component up to its first colon, in a reference with a registry. -/
theorem firstPart_registry {g : Registry} (h : r.registry = some g) :
    (r.text.takeWhile (· != '/')).takeWhile (· != ':') = g.label := by
  rw [ImageRef.text, ImageName.repository_of_registry h, List.append_assoc, List.cons_append,
    Text.takeWhile_append_cons g.slash_notMem]
  rfl

theorem firstPart_path {first next : List Char} {rest : List (List Char)}
    (h : r.registry = none) (hpath : r.path = first :: next :: rest) :
    (r.text.takeWhile (· != '/')).takeWhile (· != ':') = first := by
  have hplain := r.path_plain first (by rw [hpath]; exact List.mem_cons_self)
  rw [ImageRef.text, ImageName.repository_of_none h, ImageName.pathText_cons hpath,
    List.append_assoc, List.cons_append, Text.takeWhile_append_cons hplain.1, Text.takeWhile_of_notMem hplain.2.1]

/-- With a single component and no tag, the name of a digest's algorithm comes along. -/
theorem dot_mem_firstPart {component : List Char} (h : r.registry = none)
    (hpath : r.path = [component]) :
    '.' ∈ (r.text.takeWhile (· != '/')).takeWhile (· != ':') ↔
      '.' ∈ component ∨ r.tag = none ∧ ∃ d, r.digest = some d ∧ '.' ∈ d.1 := by
  have hplain := r.path_plain component (by rw [hpath]; exact List.mem_cons_self)
  have hslash : '/' ∉ r.text := by
    rw [ImageRef.text, ImageName.repository_of_none h, ImageName.pathText_single hpath]
    exact fun hmem => (List.mem_append.mp hmem).elim hplain.1 (r.slash_notMem_behind)
  rw [Text.takeWhile_of_notMem hslash, ImageRef.text, ImageName.repository_of_none h,
    ImageName.pathText_single hpath, ImageRef.behind]
  cases ht : r.tag with
  | some t =>
    rw [Option.elim_some, List.cons_append, Text.takeWhile_append_cons hplain.2.1]
    simp
  | none =>
    cases hd : r.digest with
    | some d =>
      have hcolon : ':' ∉ component ++ '@' :: d.1 := by
        have halgorithm := (r.digest_plain d hd).1.2.1
        simp [hplain.2.1, halgorithm]
      have htext : component ++ '@' :: (d.1 ++ ':' :: d.2) =
          (component ++ '@' :: d.1) ++ ':' :: d.2 := by
        rw [List.append_assoc, List.cons_append]
      rw [Option.elim_none, Option.elim_some, List.nil_append, htext,
        Text.takeWhile_append_cons hcolon]
      simp
    | none =>
      rw [Option.elim_none, Option.elim_none, List.append_nil, List.append_nil,
        Text.takeWhile_of_notMem hplain.2.1]
      simp

/-- What stands before the last colon keeps the slashes of a path. -/
theorem slash_mem_name (h : r.registry = none) :
    '/' ∈ ((Text.rsplitOnce ':' r.text).map Prod.fst).getD r.text ↔ '/' ∈ r.pathText := by
  have hbehind := r.slash_notMem_behind
  have htext : r.text = r.pathText ++ r.behind := by
    rw [ImageRef.text, ImageName.repository_of_none h]
  cases hsplit : Text.rsplitOnce ':' r.behind with
  | none =>
    have hcolon : ':' ∉ r.text := by
      rw [htext]
      exact fun hmem => (List.mem_append.mp hmem).elim (r.colon_notMem_pathText)
        (Text.rsplitOnce_eq_none_iff.mp hsplit)
    rw [Text.rsplitOnce_eq_none_iff.mpr hcolon, Option.map_none, Option.getD_none, htext,
      List.mem_append]
    exact or_iff_left hbehind
  | some parts =>
    obtain ⟨hparts, -⟩ := Text.rsplitOnce_eq_some_iff.mp hsplit
    have hfront : '/' ∉ parts.1 := by
      intro hmem
      rw [hparts] at hbehind
      exact hbehind (List.mem_append_left _ hmem)
    rw [htext, Text.rsplitOnce_append hsplit, Option.map_some, Option.getD_some, List.mem_append]
    exact or_iff_left hfront

theorem addedFront_registry {g : Registry} (h : r.registry = some g) :
    addedFront r.text = [] ↔ '.' ∈ g.label := by
  rw [addedFront_eq_nil_iff, firstPart_registry r h]

theorem addedFront_path {first next : List Char} {rest : List (List Char)}
    (h : r.registry = none) (hpath : r.path = first :: next :: rest) :
    addedFront r.text = "docker.io/".toList := by
  have hdot : '.' ∉ first := fun hmem => r.rule h first next rest hpath (.inl hmem)
  have hslash : '/' ∈ r.pathText := by
    rw [ImageName.pathText_cons hpath]
    exact List.mem_append_right _ List.mem_cons_self
  rw [addedFront, firstPart_path r h hpath, if_neg hdot, if_pos ((slash_mem_name r h).mpr hslash)]

theorem addedFront_single {component : List Char} (h : r.registry = none)
    (hpath : r.path = [component]) : addedFront r.text = "docker.io/library/".toList ↔
      '.' ∉ component ∧ (r.tag = none → ∀ d, r.digest = some d → '.' ∉ d.1) := by
  have hplain := r.path_plain component (by rw [hpath]; exact List.mem_cons_self)
  have hslash : '/' ∉ ((Text.rsplitOnce ':' r.text).map Prod.fst).getD r.text := by
    rw [slash_mem_name r h, ImageName.pathText_single hpath]
    exact hplain.1
  have hdots := dot_mem_firstPart r h hpath
  rw [addedFront, if_neg hslash]
  split
  · next hdot =>
    refine iff_of_false (by decide) ?_
    rintro ⟨hcomponent, halgorithm⟩
    obtain hmem | ⟨ht, d, hd, hmem⟩ := hdots.mp hdot
    · exact hcomponent hmem
    · exact halgorithm ht d hd hmem
  · next hdot =>
    refine iff_of_true rfl ⟨fun hmem => hdot (hdots.mpr (.inl hmem)), fun ht d hd hmem => ?_⟩
    exact hdot (hdots.mpr (.inr ⟨ht, d, hd, hmem⟩))

theorem missingFront_registry {g : Registry} (h : r.registry = some g) : missingFront r = [] := by
  rw [missingFront, h]
  rfl

theorem missingFront_path {first next : List Char} {rest : List (List Char)}
    (h : r.registry = none) (hpath : r.path = first :: next :: rest) :
    missingFront r = "docker.io/".toList := by
  rw [missingFront, h, hpath]
  rfl

theorem missingFront_single {component : List Char} (h : r.registry = none)
    (hpath : r.path = [component]) : missingFront r = "docker.io/library/".toList := by
  rw [missingFront, h, hpath]
  rfl

/-- What is added in front is what was missing exactly when the dot decides. -/
theorem addedFront_eq_iff : addedFront r.text = missingFront r ↔ DotDecides r := by
  unfold DotDecides
  cases hr : r.registry with
  | some g =>
    rw [missingFront_registry r hr]
    exact addedFront_registry r hr
  | none =>
    rcases r.path_cases with ⟨component, hpath⟩ | ⟨first, next, rest, hpath⟩
    · rw [missingFront_single r hr hpath, addedFront_single r hr hpath]
      constructor
      · intro hplain component' hpath'
        rw [hpath] at hpath'
        obtain ⟨rfl, -⟩ := List.cons.inj hpath'
        exact hplain
      · exact fun hplain => hplain component hpath
    · rw [missingFront_path r hr hpath, addedFront_path r hr hpath]
      refine iff_of_true rfl fun component hpath' => ?_
      rw [hpath] at hpath'
      cases hpath'

end Parts

/-! ## Qualifying -/

/-- What may be put in front of a reference, and what behind. -/
def addedFronts : List (List Char) := [[], "docker.io/".toList, "docker.io/library/".toList]

def addedTags : List (List Char) := [[], ":latest".toList]

theorem addedFront_mem (cs : List Char) : addedFront cs ∈ addedFronts := by
  unfold addedFront
  split
  · decide
  · split <;> decide

theorem missingFront_mem (r : ImageRef) : missingFront r ∈ addedFronts := by
  unfold missingFront
  split
  · decide
  · split <;> decide

theorem addedTag_mem (cs : List Char) : addedTag cs ∈ addedTags := by
  unfold addedTag
  split <;> decide

theorem missingTag_mem (r : ImageRef) : missingTag r ∈ addedTags := by
  unfold missingTag
  split <;> decide

/-- By their lengths, what stands in front of a text and behind it can be told. -/
theorem framed_eq_iff {front front' tag tag' : List Char} (s : List Char)
    (hfront : front ∈ addedFronts) (hfront' : front' ∈ addedFronts) (htag : tag ∈ addedTags)
    (htag' : tag' ∈ addedTags) :
    front ++ (s ++ tag) = front' ++ (s ++ tag') ↔ front = front' ∧ tag = tag' := by
  have hlengths : ∀ front ∈ addedFronts, ∀ front' ∈ addedFronts,
      ∀ tag ∈ addedTags, ∀ tag' ∈ addedTags,
        front.length + tag.length = front'.length + tag'.length →
          front = front' ∧ tag = tag' := by decide
  constructor
  · intro h
    have hlength := congrArg List.length h
    simp only [List.length_append] at hlength
    exact hlengths front hfront front' hfront' tag htag tag' htag' (by omega)
  · rintro ⟨rfl, rfl⟩
    rfl

/-- The text of a reference, as the runtimes are given it. -/
def imageOfRef (r : ImageRef) : String := String.ofList r.text

theorem normalizeImageRef_imageOfRef (r : ImageRef) : (normalizeImageRef (imageOfRef r)).toList =
    addedFront r.text ++ (r.text ++ addedTag r.text) := by
  rw [normalizeImageRef_toList, imageOfRef, String.toList_ofList]

/-- Where the dot and the colon decide, a reference is put in full. -/
theorem normalizeImageRef_of_decides {r : ImageRef} (hdot : DotDecides r)
    (hcolon : ColonDecides r) : normalizeImageRef (imageOfRef r) = imageOfRef (qualified r) := by
  rw [← String.toList_inj, normalizeImageRef_imageOfRef, (addedFront_eq_iff r).mpr hdot,
    (addedTag_eq_iff r).mpr hcolon, ← qualified_text, imageOfRef, String.toList_ofList]

/-- A reference is put in full exactly when a dot before the first colon decides
as Docker's rule does, and no colon is only that of a registry. -/
theorem image_ref_qualified_iff (r : ImageRef) :
    normalizeImageRef (imageOfRef r) = imageOfRef (qualified r) ↔
      DotDecides r ∧ ColonDecides r := by
  refine ⟨fun h => ?_, fun h => normalizeImageRef_of_decides h.1 h.2⟩
  have htexts := congrArg String.toList h
  rw [normalizeImageRef_imageOfRef, imageOfRef, String.toList_ofList, qualified_text,
    framed_eq_iff r.text (addedFront_mem _) (missingFront_mem r) (addedTag_mem _)
      (missingTag_mem r)] at htexts
  exact ⟨(addedFront_eq_iff r).mp htexts.1, (addedTag_eq_iff r).mp htexts.2⟩

/-- `registry.local:5000/img` -/
def portImage : ImageRef where
  registry := some {
    host := "registry.local".toList
    port := some "5000".toList
    plain := by decide
    named := by decide }
  path := ["img".toList]
  tag := none
  digest := none
  path_ne := by decide
  path_plain := by decide
  tag_plain := ImageName.no_tag_plain
  rule := fun h => absurd h (Option.some_ne_none _)
  digest_plain := ImageRef.no_digest_plain

/-- The colon of the port is taken for that of a tag, and no tag is added. -/
theorem port_image_untagged :
    normalizeImageRef (imageOfRef portImage) = "registry.local:5000/img" ∧
      imageOfRef (qualified portImage) = "registry.local:5000/img:latest" ∧
      normalizeImageRef (imageOfRef portImage) ≠ imageOfRef (qualified portImage) := by
  have hread : normalizeImageRef (imageOfRef portImage) = "registry.local:5000/img" := by decide
  have hfull : imageOfRef (qualified portImage) = "registry.local:5000/img:latest" := by decide
  refine ⟨hread, hfull, ?_⟩
  rw [hread, hfull]
  decide

end Nexad.Runtime
