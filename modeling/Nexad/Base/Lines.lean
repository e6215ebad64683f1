/-!
# Pieces of a sequence

A sequence cut after each separator: every piece but perhaps the last ends
with one. What a buffered reader hands out, call after call, are the pieces of
what is left to read.
-/

namespace Lines

variable {α : Type} [DecidableEq α]

/-- The pieces, each with its separator. -/
def pieces (sep : α) : List α → List (List α)
  | [] => []
  | a :: rest =>
    if a = sep then [a] :: pieces sep rest
    else match pieces sep rest with
      | [] => [[a]]
      | piece :: more => (a :: piece) :: more

/-- A piece without its newline, and without a carriage return before that. -/
def chomp (piece : List Char) : List Char :=
  if piece.getLast? = some '\n' then
    if piece.dropLast.getLast? = some '\r' then piece.dropLast.dropLast else piece.dropLast
  else piece

/-- `str::lines` -/
def lines (s : List Char) : List (List Char) := (pieces '\n' s).map chomp

/-- The text of some lines, each ended by a newline. -/
abbrev unlines (ls : List (List Char)) : List Char := ls.flatMap fun line => line ++ ['\n']

/-- The first separator ends the first piece. -/
theorem pieces_append {sep : α} {line : List α} (h : sep ∉ line) (rest : List α) :
    pieces sep (line ++ sep :: rest) = (line ++ [sep]) :: pieces sep rest := by
  induction line with
  | nil => exact if_pos rfl
  | cons a line ih =>
    have ha : a ≠ sep := fun heq => h (heq ▸ List.mem_cons_self)
    rw [List.cons_append, pieces, if_neg ha, ih fun hmem => h (List.mem_cons_of_mem _ hmem)]
    rfl

/-- Lines that each end with a separator are the pieces of what they make up. -/
theorem pieces_flatMap {sep : α} {β : Type} (line : β → List α) {bs : List β}
    (h : ∀ b ∈ bs, sep ∉ line b) :
    pieces sep (bs.flatMap fun b => line b ++ [sep]) = bs.map fun b => line b ++ [sep] := by
  induction bs with
  | nil => rfl
  | cons b bs ih =>
    rw [List.flatMap_cons, List.append_assoc, List.singleton_append,
      pieces_append (h b List.mem_cons_self), ih fun b hb => h b (List.mem_cons_of_mem _ hb),
      List.map_cons]

/-- The pieces make up the sequence. -/
theorem flatten_pieces (sep : α) (l : List α) : (pieces sep l).flatten = l := by
  induction l with
  | nil => rfl
  | cons a rest ih =>
    unfold pieces
    split
    · rw [List.flatten_cons, ih]
      rfl
    · cases hpieces : pieces sep rest with
      | nil =>
        rw [hpieces] at ih
        rw [← ih]
        rfl
      | cons piece more =>
        rw [hpieces] at ih
        rw [← ih]
        rfl

/-- The first piece begins the sequence. -/
theorem headD_pieces_prefix (sep : α) (l : List α) : (pieces sep l).headD [] <+: l := by
  have hflatten := flatten_pieces sep l
  cases hpieces : pieces sep l with
  | nil => exact List.nil_prefix
  | cons piece more =>
    rw [hpieces] at hflatten
    exact ⟨more.flatten, hflatten⟩

/-- Of a sequence that ends with a separator, the first piece does. -/
theorem headD_pieces_getLast {sep : α} {l : List α} (h : l.getLast? = some sep) :
    ((pieces sep l).headD []).getLast? = some sep := by
  induction l with
  | nil => cases h
  | cons a rest ih =>
    by_cases ha : a = sep
    · rw [pieces, if_pos ha]
      exact congrArg some ha
    · cases rest with
      | nil => exact absurd (Option.some.inj h) ha
      | cons b more =>
        rw [List.getLast?_cons_cons] at h
        have hfirst := ih h
        rw [pieces, if_neg ha]
        cases hpieces : pieces sep (b :: more) with
        | nil =>
          rw [hpieces] at hfirst
          cases hfirst
        | cons piece pieces =>
          rw [hpieces] at hfirst
          have hne : piece ≠ [] := by
            rintro rfl
            cases hfirst
          rw [List.headD_cons, List.getLast?_cons_of_ne_nil hne]
          exact hfirst

/-- A separator stands only at the end of a piece. -/
theorem notMem_dropLast_of_pieces {sep : α} {l piece : List α} (h : piece ∈ pieces sep l) :
    sep ∉ piece.dropLast ∧ (piece.getLast? ≠ some sep → sep ∉ piece) := by
  induction l generalizing piece with
  | nil => exact absurd h List.not_mem_nil
  | cons a rest ih =>
    unfold pieces at h
    split at h
    · next ha =>
      rcases List.mem_cons.mp h with rfl | h
      · exact ⟨List.not_mem_nil, fun hlast => absurd (congrArg some ha) hlast⟩
      · exact ih h
    · next ha =>
      split at h
      · cases List.mem_singleton.mp h
        exact ⟨List.not_mem_nil, fun _ hmem => ha (List.mem_singleton.mp hmem).symm⟩
      · next first more hpieces =>
        rw [hpieces] at ih
        rcases List.mem_cons.mp h with rfl | h
        · obtain ⟨hinit, hall⟩ := ih List.mem_cons_self
          cases first with
          | nil => exact ⟨List.not_mem_nil, fun _ hmem => ha (List.mem_singleton.mp hmem).symm⟩
          | cons b first =>
            rw [List.dropLast_cons_of_ne_nil (List.cons_ne_nil _ _),
              List.getLast?_cons_cons]
            refine ⟨fun hmem => ?_, fun hlast hmem => ?_⟩
            · rcases List.mem_cons.mp hmem with hmem | hmem
              · exact ha hmem.symm
              · exact hinit hmem
            · rcases List.mem_cons.mp hmem with hmem | hmem
              · exact ha hmem.symm
              · exact hall hlast hmem
        · exact ih (List.mem_cons_of_mem _ h)

/-- What is cut off a piece is its newline, and a carriage return. -/
theorem exists_chomp (piece : List Char) :
    ∃ ending, piece = chomp piece ++ ending ∧ ∀ c ∈ ending, c = '\n' ∨ c = '\r' := by
  unfold chomp
  split
  · next hnewline =>
    obtain ⟨init, rfl⟩ := List.getLast?_eq_some_iff.mp hnewline
    rw [List.dropLast_concat]
    split
    · next hreturn =>
      obtain ⟨init, rfl⟩ := List.getLast?_eq_some_iff.mp hreturn
      rw [List.dropLast_concat]
      exact ⟨['\r', '\n'], by simp, by simp⟩
    · exact ⟨['\n'], rfl, by simp⟩
  · exact ⟨[], (List.append_nil _).symm, by simp⟩

/-- No line has a newline in it. -/
theorem newline_notMem {s line : List Char} (h : line ∈ lines s) : '\n' ∉ line := by
  obtain ⟨piece, hpiece, rfl⟩ := List.mem_map.mp h
  obtain ⟨hinit, hall⟩ := notMem_dropLast_of_pieces hpiece
  unfold chomp
  split
  · split
    · exact fun hmem => hinit (List.dropLast_subset _ hmem)
    · exact hinit
  · next hlast => exact hall hlast

/-- The lines of a text that is made of lines. -/
theorem lines_flatMap {ls : List (List Char)} (h : ∀ line ∈ ls, '\n' ∉ line) :
    lines (ls.flatMap fun line => line ++ ['\n']) = ls.map fun line => chomp (line ++ ['\n']) := by
  have hpieces := pieces_flatMap (fun line : List Char => line) h
  rw [lines, hpieces, List.map_map]
  rfl

/-- Lines without a line break in them are read back. -/
theorem lines_unlines {ls : List (List Char)} (h : ∀ line ∈ ls, '\n' ∉ line ∧ '\r' ∉ line) :
    lines (unlines ls) = ls := by
  rw [lines_flatMap fun line hline => (h line hline).1]
  refine (List.map_congr_left fun line hline => ?_).trans (List.map_id ls)
  have hlast : line.getLast? ≠ some '\r' := fun hlast => (h line hline).2 (List.mem_of_getLast? hlast)
  rw [chomp, List.getLast?_concat, if_pos rfl, List.dropLast_concat, if_neg hlast]
  rfl

end Lines
