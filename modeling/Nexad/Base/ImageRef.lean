import Nexad.Base.Text

/-!
# References to images

References of the form `[host[:port]/]path[:tag][@digest]`, as values that can be
built only where Docker's rule tells their parts apart: the first of several
components is a registry exactly when it has a `.` or a `:` in it, or is
`localhost`. By that rule a text has one reading (`repository_unique`).
-/

namespace Docker

/-- A part that holds no separator of a reference. -/
def Plain (s : List Char) : Prop := '/' ∉ s ∧ ':' ∉ s ∧ '@' ∉ s

instance (s : List Char) : Decidable (Plain s) := by
  unfold Plain
  infer_instance

/-- What makes the first of several components a registry. -/
def NamesRegistry (s : List Char) : Prop := '.' ∈ s ∨ ':' ∈ s ∨ s = "localhost".toList

instance (s : List Char) : Decidable (NamesRegistry s) := by
  unfold NamesRegistry
  infer_instance

/-- A host with its port. -/
def hostPort (host : List Char) (port : Option (List Char)) : List Char :=
  host ++ port.elim [] (':' :: ·)

/-- A registry. Its host may be an address in brackets, with colons in it. -/
structure Registry where
  host : List Char
  port : Option (List Char)
  plain : '/' ∉ hostPort host port ∧ '@' ∉ hostPort host port
  named : NamesRegistry (hostPort host port)

namespace Registry

def text (g : Registry) : List Char := hostPort g.host g.port

/-- What stands before the first colon. -/
def label (g : Registry) : List Char := g.text.takeWhile (· != ':')

theorem slash_notMem (g : Registry) : '/' ∉ g.text := g.plain.1

/-- `docker.io` -/
def dockerIo : Registry where
  host := "docker.io".toList
  port := none
  plain := by decide
  named := by decide

end Registry

/-- A reference without a digest. -/
structure ImageName where
  registry : Option Registry
  path : List (List Char)
  tag : Option (List Char)
  path_ne : path ≠ []
  path_plain : ∀ component ∈ path, Plain component
  tag_plain : ∀ t, tag = some t → Plain t
  rule : registry = none → ∀ first next rest, path = first :: next :: rest → ¬ NamesRegistry first

namespace ImageName

theorem no_tag_plain : ∀ t : List Char, none = some t → Plain t :=
  fun _ h => absurd h.symm (Option.some_ne_none _)

variable (r : ImageName)

def pathText : List Char := ['/'].intercalate r.path

/-- The reference without its tag. -/
def repository : List Char := r.registry.elim [] (fun g => g.text ++ ['/']) ++ r.pathText

def text : List Char := r.repository ++ r.tag.elim [] (':' :: ·)

/-- The reference, less its tag. -/
def untagged : ImageName :=
  { r with tag := none, tag_plain := no_tag_plain }

theorem text_of_untagged (h : r.tag = none) : r.text = r.repository := by
  rw [text, h, Option.elim_none, List.append_nil]

end ImageName

/-- A reference. A digest names its algorithm. -/
structure ImageRef extends ImageName where
  digest : Option (List Char × List Char)
  digest_plain : ∀ d, digest = some d → Plain d.1 ∧ Plain d.2

namespace ImageRef

theorem no_digest_plain :
    ∀ d : List Char × List Char, none = some d → Plain d.1 ∧ Plain d.2 :=
  fun _ h => absurd h.symm (Option.some_ne_none _)

variable (r : ImageRef)

/-- What stands behind the path. -/
def behind : List Char :=
  r.tag.elim [] (':' :: ·) ++ r.digest.elim [] fun d => '@' :: (d.1 ++ ':' :: d.2)

/-- The text of a reference. -/
def text : List Char := r.repository ++ r.behind

end ImageRef

/-! ## Docker's rule -/

namespace ImageName

variable {r r' : ImageName}

theorem repository_of_registry {g : Registry} (h : r.registry = some g) :
    r.repository = g.text ++ '/' :: r.pathText := by
  rw [repository, h, Option.elim_some, List.append_assoc, List.singleton_append]

theorem repository_of_none (h : r.registry = none) : r.repository = r.pathText := by
  rw [repository, h, Option.elim_none, List.nil_append]

theorem pathText_single {component : List Char} (h : r.path = [component]) :
    r.pathText = component := by
  rw [pathText, h, List.intercalate_singleton]

theorem pathText_cons {first next : List Char} {rest : List (List Char)}
    (h : r.path = first :: next :: rest) :
    r.pathText = first ++ '/' :: ['/'].intercalate (next :: rest) := by
  rw [pathText, h, List.intercalate_cons_cons, List.append_assoc, List.singleton_append]

/-- The path is told from its text. -/
theorem path_of_pathText (h : r.pathText = r'.pathText) : r.path = r'.path := by
  have hsplit : ∀ p : ImageName, p.pathText.splitOn '/' = p.path := fun p =>
    List.splitOn_intercalate '/' (fun component hmem => (p.path_plain component hmem).1) p.path_ne
  rw [← hsplit r, ← hsplit r', h]

/-- The path is one component, or it has a first that is followed by others. -/
theorem path_cases (r : ImageName) : (∃ component, r.path = [component]) ∨
    ∃ first next rest, r.path = first :: next :: rest := by
  match h : r.path with
  | [] => exact absurd h r.path_ne
  | [component] => exact .inl ⟨component, rfl⟩
  | first :: next :: rest => exact .inr ⟨first, next, rest, rfl⟩

theorem colon_notMem_pathText (r : ImageName) : ':' ∉ r.pathText := by
  intro hmem
  obtain hslash | ⟨component, hcomponent, hc⟩ := Text.mem_intercalate hmem
  · exact absurd hslash (by decide)
  · exact (r.path_plain component hcomponent).2.1 hc

/-- A registry in front is never the first component of a path. -/
private theorem repository_ne {g : Registry} (h : r.registry = some g) (h' : r'.registry = none) :
    r.repository ≠ r'.repository := by
  intro heq
  rw [repository_of_registry h, repository_of_none h'] at heq
  rcases r'.path_cases with ⟨component, hpath⟩ | ⟨first, next, rest, hpath⟩
  · have hplain := (r'.path_plain component (by rw [hpath]; exact List.mem_cons_self)).1
    rw [pathText_single hpath] at heq
    exact hplain (heq ▸ List.mem_append_right _ List.mem_cons_self)
  · have hplain := (r'.path_plain first (by rw [hpath]; exact List.mem_cons_self)).1
    rw [pathText_cons hpath] at heq
    obtain ⟨hsame, -⟩ := Text.parts_unique g.slash_notMem hplain heq
    exact r'.rule h' first next rest hpath (hsame ▸ g.named)

/-- A text is the repository of one registry and path. -/
theorem repository_unique (h : r.repository = r'.repository) :
    r.registry.map Registry.text = r'.registry.map Registry.text ∧ r.path = r'.path := by
  cases hr : r.registry with
  | none =>
    cases hr' : r'.registry with
    | none =>
      rw [repository_of_none hr, repository_of_none hr'] at h
      exact ⟨rfl, path_of_pathText h⟩
    | some g' => exact absurd h.symm (repository_ne hr' hr)
  | some g =>
    cases hr' : r'.registry with
    | none => exact absurd h (repository_ne hr hr')
    | some g' =>
      rw [repository_of_registry hr, repository_of_registry hr'] at h
      obtain ⟨hsame, hpath⟩ := Text.parts_unique g.slash_notMem g'.slash_notMem h
      exact ⟨congrArg some hsame, path_of_pathText hpath⟩

end ImageName

/-! ## Colons and slashes -/

namespace ImageRef

variable (r : ImageRef)

theorem text_of_digest_none (h : r.digest = none) : r.text = r.toImageName.text := by
  rw [text, behind, h, Option.elim_none, List.append_nil, ImageName.text]

theorem slash_notMem_behind : '/' ∉ r.behind := by
  intro hmem
  rcases List.mem_append.mp hmem with htag | hdigest
  · cases ht : r.tag with
    | none => simp [ht] at htag
    | some t => simp [ht, (r.tag_plain t ht).1] at htag
  · cases hd : r.digest with
    | none => simp [hd] at hdigest
    | some d =>
      obtain ⟨halgorithm, hhex⟩ := r.digest_plain d hd
      simp [hd, halgorithm.1, hhex.1] at hdigest

theorem colon_mem_behind : ':' ∈ r.behind ↔ r.tag.isSome ∨ r.digest.isSome := by
  unfold behind
  cases r.tag <;> cases r.digest <;> simp

/-- A reference holds a colon where its registry does, or with a tag or a digest. -/
theorem colon_mem_text : ':' ∈ r.text ↔
    (∃ g, r.registry = some g ∧ ':' ∈ g.text) ∨ r.tag.isSome ∨ r.digest.isSome := by
  rw [text, List.mem_append, colon_mem_behind]
  refine or_congr_left ?_
  have hpath := r.colon_notMem_pathText
  cases hr : r.registry with
  | none => simp [ImageName.repository_of_none hr, hpath]
  | some g => simp [ImageName.repository_of_registry hr, hpath]

end ImageRef

end Docker
