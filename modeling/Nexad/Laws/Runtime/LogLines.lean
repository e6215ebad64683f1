import Nexad.Runtime.LogTailer

/-!
# How a log is cut into lines

A poll reads up to a newline or to the end of the file, and what it has read is
taken for a line. Of a text that ends with a newline this yields what is due as
long as no poll stops inside a line (`lines_of_poll`); one that does loses
weight, however the rest is read (`weight_of_poll`). The history is cut in another
way, which keeps the empty lines (`followedLines_eq`).
-/

namespace Nexad.Runtime

variable {notUtf8 : String}

/-! ## The lines of a text -/

/-- What a poll yields that has read this much. -/
def lineOf (buf : String) : List String := if trimLine buf = "" then [] else [trimLine buf]

/-- What polls yield of a text whose pieces they read one after the other. -/
def followedLines (text : String) : List String :=
  (Lines.pieces '\n' text.toList).flatMap fun piece => lineOf (String.ofList piece)

/-- The end of a text that has lines only. -/
def EndsLine (text : String) : Prop := text = "" ∨ text.toList.getLast? = some '\n'

theorem followedLines_append {line : String} (h : '\n' ∉ line.toList) (rest : String) :
    followedLines (line ++ "\n" ++ rest) = lineOf (line ++ "\n") ++ followedLines rest := by
  have htoList : (line ++ "\n" ++ rest).toList = line.toList ++ '\n' :: rest.toList := by
    rw [String.append_assoc, String.toList_append, String.toList_append]
    rfl
  have hline : String.ofList (line.toList ++ ['\n']) = line ++ "\n" := by
    rw [String.ofList_append, String.ofList_toList]
  rw [followedLines, htoList, Lines.pieces_append h, List.flatMap_cons, hline]
  rfl

theorem toList_trimLine {line : String} (h : '\n' ∉ line.toList) :
    (trimLine line).toList = Text.trimEndMatches '\r' line.toList := by
  rw [trimLine, String.toList_ofList, Text.trimEndMatches_of_notMem h]

theorem trimLine_newline (line : String) : trimLine (line ++ "\n") = trimLine line := by
  have htoList : (line ++ "\n").toList = line.toList ++ ['\n'] := String.toList_append
  rw [trimLine, htoList, Text.trimEndMatches_concat, trimLine]

theorem lineOf_newline (line : String) : lineOf (line ++ "\n") = lineOf line := by
  rw [lineOf, trimLine_newline, lineOf]

theorem trimLine_eq_empty_iff {line : String} (h : '\n' ∉ line.toList) :
    trimLine line = "" ↔ ∀ c ∈ line.toList, c = '\r' := by
  rw [← String.toList_inj, toList_trimLine h]
  exact Text.trimEndMatches_eq_nil_iff

/-- Carriage returns at the end of a line can be cut off. -/
theorem lineOf_append_returns {p q : String} (hp : '\n' ∉ p.toList) (hq : ∀ c ∈ q.toList, c = '\r') :
    lineOf (p ++ q) = lineOf p ∧ lineOf q = [] := by
  have hnewline : '\n' ∉ q.toList := fun hmem => absurd (hq _ hmem) (by decide)
  have happend : '\n' ∉ (p ++ q).toList := by
    rw [String.toList_append, List.mem_append]
    exact fun h => h.elim hp hnewline
  have htrim : trimLine (p ++ q) = trimLine p := by
    rw [← String.toList_inj, toList_trimLine happend, toList_trimLine hp, String.toList_append]
    exact Text.trimEndMatches_append_of_eq_nil (Text.trimEndMatches_eq_nil_iff.mpr hq)
  refine ⟨?_, if_pos ((trimLine_eq_empty_iff hnewline).mpr hq)⟩
  rw [lineOf, htrim, lineOf]

/-- How much longer the lines are than there are of them. -/
def weight (lines : List String) : Nat := (lines.map fun line => line.length - 1).sum

theorem weight_append (lines lines' : List String) :
    weight (lines ++ lines') = weight lines + weight lines' := by
  rw [weight, List.map_append, List.sum_append, weight, weight]

theorem weight_lineOf (buf : String) : weight (lineOf buf) = (trimLine buf).length - 1 := by
  unfold lineOf
  split
  · next h => rw [h]; rfl
  · exact Nat.add_zero _

theorem length_trimLine {line : String} (h : '\n' ∉ line.toList) : (trimLine line).length ≤ line.length := by
  rw [← String.length_toList, ← String.length_toList, toList_trimLine h]
  exact (Text.trimEndMatches_prefix _ _).length_le

/-- A cut before something else loses weight. -/
theorem weight_lineOf_append {p q : String} (hp : '\n' ∉ p.toList) (hq : '\n' ∉ q.toList)
    (hne : p ≠ "") (hcontent : ∃ c ∈ q.toList, c ≠ '\r') :
    weight (lineOf p) + weight (lineOf q) < weight (lineOf (p ++ q)) := by
  have happend : '\n' ∉ (p ++ q).toList := by
    rw [String.toList_append, List.mem_append]
    exact fun h => h.elim hp hq
  have hleft : Text.trimEndMatches '\r' q.toList ≠ [] := by
    rw [Ne, Text.trimEndMatches_eq_nil_iff]
    exact fun hall => hcontent.elim fun c ⟨hc, hother⟩ => hother (hall c hc)
  have hlength : (trimLine (p ++ q)).length = p.length + (trimLine q).length := by
    rw [← String.length_toList, toList_trimLine happend, String.toList_append,
      Text.trimEndMatches_append_of_ne_nil hleft, List.length_append, ← toList_trimLine hq,
      String.length_toList, String.length_toList]
  have hpos : 0 < (trimLine q).length := by
    rw [← String.length_toList, toList_trimLine hq]
    exact List.length_pos_iff.mpr hleft
  have hfirst : 0 < p.length := by
    rw [← String.length_toList]
    exact List.length_pos_iff.mpr fun h => hne (String.toList_eq_nil_iff.mp h)
  have hle := length_trimLine hp
  rw [weight_lineOf, weight_lineOf, weight_lineOf, hlength]
  omega

/-! ## Where a poll may stop -/

/-- `'\r'` as a byte. -/
def carriageReturn : UInt8 := 13

/-- An offset inside a line: something of the line comes before it, and something
other than carriage returns comes after. -/
def InsideLine (text : List UInt8) (n : Nat) : Prop :=
  (∃ b, (text.take n).getLast? = some b ∧ b ≠ newline) ∧
    ∃ b ∈ (text.drop n).takeWhile (· ≠ newline), b ≠ carriageReturn

theorem insideLine_append {done piece rest : List UInt8} (h : piece ≠ []) :
    InsideLine (done ++ (piece ++ rest)) (done.length + piece.length) ↔
      (∃ b, piece.getLast? = some b ∧ b ≠ newline) ∧
        ∃ b ∈ rest.takeWhile (· ≠ newline), b ≠ carriageReturn := by
  have hlength : done.length + piece.length = (done ++ piece).length := List.length_append.symm
  rw [InsideLine, ← List.append_assoc, hlength, List.take_left, List.drop_left,
    List.getLast?_append_of_ne_nil _ h]

theorem EndsLine.append {t : String} (h : EndsLine t) (s : String) : EndsLine (s ++ "\n" ++ t) := by
  refine .inr ?_
  rcases h with rfl | h
  · rw [String.append_empty, String.toList_append]
    exact List.getLast?_concat
  · have hne : t.toList ≠ [] := by
      intro hnil
      rw [hnil] at h
      cases h
    rw [String.toList_append, List.getLast?_append_of_ne_nil _ hne]
    exact h

theorem endsLine_of_append {s t : String} (h : EndsLine (s ++ "\n" ++ t)) : EndsLine t := by
  by_cases ht : t = ""
  · exact .inl ht
  · refine .inr ?_
    have hlast := h.resolve_left fun hempty => ht (String.append_eq_empty_iff.mp hempty).2
    rwa [String.toList_append,
      List.getLast?_append_of_ne_nil _ fun hnil => ht (String.toList_eq_nil_iff.mp hnil)] at hlast

/-- The characters of a line up to its newline. -/
theorem exists_line {text : String} (h : EndsLine text) (hne : text ≠ "") :
    ∃ line rest, text = line ++ "\n" ++ rest ∧ '\n' ∉ line.toList ∧ EndsLine rest := by
  obtain ⟨line, rest, htext, hline⟩ :=
    List.eq_append_cons_of_mem (List.mem_of_getLast? (h.resolve_left hne))
  have hsplit : text = String.ofList line ++ "\n" ++ String.ofList rest := by
    rw [← String.toList_inj, String.toList_append, String.toList_append, String.toList_ofList,
      @String.toList_ofList rest, htext, List.append_assoc]
    rfl
  refine ⟨String.ofList line, String.ofList rest, hsplit, ?_, endsLine_of_append (hsplit ▸ h)⟩
  rwa [String.toList_ofList]

theorem takeWhile_encode {line : String} (h : '\n' ∉ line.toList) (rest : String) :
    (Utf8.encode (line ++ "\n" ++ rest)).takeWhile (· ≠ newline) = Utf8.encode line := by
  have hbytes : Utf8.encode (line ++ "\n" ++ rest) = Utf8.encode line ++ newline :: Utf8.encode rest := by
    rw [String.append_assoc, Utf8.encode_append, Utf8.encode_append]
    rfl
  have hnewline : newline ∉ Utf8.encode line := fun hmem => h (Utf8.mem_of_encode (by decide) hmem)
  rw [hbytes, List.takeWhile_append_of_pos, List.takeWhile_cons_of_neg, List.append_nil]
  · simp
  · intro b hb
    simp only [decide_eq_true_eq]
    exact fun heq => hnewline (heq ▸ hb)

/-- Bytes of a text before its first newline. -/
theorem exists_line_of_piece {left : String} {piece rest : List UInt8} (hleft : EndsLine left)
    (hne : piece ≠ []) (hbytes : Utf8.encode left = piece ++ rest) (hnewline : newline ∉ piece) :
    ∃ line more, left = line ++ "\n" ++ more ∧ '\n' ∉ line.toList ∧ EndsLine more ∧
      Utf8.encode line = piece ++ rest.takeWhile (· ≠ newline) := by
  have hnonempty : left ≠ "" := by
    rintro rfl
    exact hne (List.append_eq_nil_iff.mp hbytes.symm).1
  obtain ⟨line, more, rfl, hline, hmore⟩ := exists_line hleft hnonempty
  refine ⟨line, more, rfl, hline, hmore, ?_⟩
  rw [← takeWhile_encode hline more, hbytes]
  refine List.takeWhile_append_of_pos fun b hb => ?_
  simp only [decide_eq_true_eq]
  exact fun heq => hnewline (heq ▸ hb)

/-- Bytes that are an ASCII character's are those characters. -/
theorem forall_of_encode {s : String} {c : Char} (hc : c.toNat < 128)
    (h : ∀ b ∈ Utf8.encode s, b = UInt8.ofNat c.toNat) : ∀ d ∈ s.toList, d = c := by
  intro d hd
  obtain ⟨b, more, hb⟩ := List.exists_cons_of_ne_nil (String.utf8EncodeChar_ne_nil (c := d))
  have hmem : b ∈ String.utf8EncodeChar d := hb ▸ List.mem_cons_self
  have hbyte : b = UInt8.ofNat c.toNat := h b (Utf8.mem_encode hd hmem)
  have hb' : b.toNat = c.toNat := by
    rw [hbyte, UInt8.toNat_ofNat']
    omega
  have hsame := (Utf8.encodeChar_ascii hmem (by omega)).trans hb'
  exact Char.ext (UInt32.toNat_inj.mp hsame)

/-- A poll that does not stop inside a line has yielded what is due. -/
theorem lines_of_poll {left : String} {piece rest : List UInt8} (hleft : EndsLine left)
    (hne : piece ≠ []) (hbytes : Utf8.encode left = piece ++ rest)
    (hpiece : newline ∉ piece.dropLast ∧ (piece.getLast? ≠ some newline → newline ∉ piece))
    (houtside : ¬ ((∃ b, piece.getLast? = some b ∧ b ≠ newline) ∧
      ∃ b ∈ rest.takeWhile (· ≠ newline), b ≠ carriageReturn)) :
    ∃ p left', left = p ++ left' ∧ piece = Utf8.encode p ∧ EndsLine left' ∧
      followedLines left = lineOf p ++ followedLines left' := by
  by_cases hlast : piece.getLast? = some newline
  · obtain ⟨line, rfl⟩ := List.getLast?_eq_some_iff.mp hlast
    rw [List.dropLast_concat] at hpiece
    rw [List.append_assoc] at hbytes
    obtain ⟨l, u, rfl, rfl, hu⟩ := Utf8.exists_of_encode_ascii (by decide) hbytes
    obtain ⟨left', rfl, -⟩ := Utf8.exists_of_encode_append (s := "\n") hu
    have hl : '\n' ∉ l.toList := fun hmem => hpiece.1 (Utf8.mem_encode hmem (by decide))
    rw [← String.append_assoc] at hleft ⊢
    exact ⟨l ++ "\n", left', rfl, (Utf8.encode_append l "\n").symm, endsLine_of_append hleft,
      followedLines_append hl left'⟩
  · obtain ⟨line, more, rfl, hline, hmore, hencode⟩ :=
      exists_line_of_piece hleft hne hbytes (hpiece.2 hlast)
    have hreturns : ∀ b ∈ rest.takeWhile (· ≠ newline), b = carriageReturn := by
      obtain ⟨b, hb⟩ := Option.ne_none_iff_exists'.mp (mt List.getLast?_eq_none_iff.mp hne)
      have hb' : b ≠ newline := fun heq => hlast (heq ▸ hb)
      exact fun b' hmem => by_contra fun hother => houtside ⟨⟨b, hb, hb'⟩, b', hmem, hother⟩
    have hsplit : ∃ p u, line = p ++ u ∧ piece = Utf8.encode p ∧
        rest.takeWhile (· ≠ newline) = Utf8.encode u := by
      cases htail : rest.takeWhile (· ≠ newline) with
      | nil =>
        rw [htail, List.append_nil] at hencode
        exact ⟨line, "", String.append_empty.symm, hencode.symm, rfl⟩
      | cons b tail =>
        rw [htail] at hencode hreturns
        have hb : b.toNat < 128 := by
          rw [hreturns b List.mem_cons_self]
          decide
        exact Utf8.exists_of_encode_ascii hb hencode
    obtain ⟨p, u, rfl, rfl, hu⟩ := hsplit
    have hu' : ∀ c ∈ u.toList, c = '\r' := forall_of_encode (by decide) (hu ▸ hreturns)
    have hp : '\n' ∉ p.toList := by
      rw [String.toList_append, List.mem_append] at hline
      exact fun hmem => hline (.inl hmem)
    have hu'' : '\n' ∉ u.toList := fun hmem => absurd (hu' _ hmem) (by decide)
    obtain ⟨hsame, hnone⟩ := lineOf_append_returns hp hu'
    refine ⟨p, u ++ "\n" ++ more, by simp only [String.append_assoc], rfl, hmore.append u, ?_⟩
    rw [followedLines_append hline, lineOf_newline, hsame, followedLines_append hu'', lineOf_newline,
      hnone, List.nil_append]

/-- What begins a line, and what is left of it. -/
theorem exists_of_append_line {p left line more : String} (hp : '\n' ∉ p.toList)
    (h : p ++ left = line ++ "\n" ++ more) : ∃ u, line = p ++ u ∧ left = u ++ "\n" ++ more := by
  have hlist : p.toList ++ left.toList = line.toList ++ '\n' :: more.toList := by
    rw [← String.toList_append, h, String.toList_append, String.toList_append, List.append_assoc]
    rfl
  rcases List.append_eq_append_iff.mp hlist with ⟨u, hline, hleft⟩ | ⟨u, hpline, hleft⟩
  · refine ⟨String.ofList u, ?_, ?_⟩
    · rw [← String.toList_inj, String.toList_append, String.toList_ofList, hline]
    · rw [← String.toList_inj, hleft, String.toList_append, String.toList_append,
        String.toList_ofList, List.append_assoc]
      rfl
  · cases u with
    | nil =>
      rw [List.append_nil] at hpline
      refine ⟨"", ?_, ?_⟩
      · rw [String.append_empty, ← String.toList_inj, hpline]
      · rw [String.empty_append, ← String.toList_inj, String.toList_append]
        exact hleft.symm
    | cons c u =>
      obtain ⟨rfl, -⟩ := List.cons.inj hleft
      exact absurd (hpline ▸ List.mem_append_right _ List.mem_cons_self) hp

/-- A poll that stops there loses some. -/
theorem weight_of_poll {left p : String} (hleft : EndsLine (p ++ left)) (hne : p ≠ "")
    (hp : '\n' ∉ p.toList)
    (hcontent : ∃ b ∈ (Utf8.encode left).takeWhile (· ≠ newline), b ≠ carriageReturn) :
    EndsLine left ∧
      weight (lineOf p) + weight (followedLines left) < weight (followedLines (p ++ left)) := by
  obtain ⟨line, more, htext, hline, hmore⟩ :=
    exists_line hleft fun hempty => hne (String.append_eq_empty_iff.mp hempty).1
  obtain ⟨u, rfl, rfl⟩ := exists_of_append_line hp htext
  have hu : '\n' ∉ u.toList := by
    rw [String.toList_append, List.mem_append] at hline
    exact fun hmem => hline (.inr hmem)
  rw [takeWhile_encode hu] at hcontent
  have hother : ∃ c ∈ u.toList, c ≠ '\r' := by
    obtain ⟨b, hb, hb'⟩ := hcontent
    rw [Utf8.encode_eq_flatMap] at hb
    obtain ⟨c, hc, hbyte⟩ := List.mem_flatMap.mp hb
    refine ⟨c, hc, ?_⟩
    rintro rfl
    exact hb' (List.mem_singleton.mp hbyte)
  have hlt := weight_lineOf_append hp hu hne hother
  refine ⟨hmore.append u, ?_⟩
  rw [htext, followedLines_append hline, followedLines_append hu, lineOf_newline, lineOf_newline,
    weight_append, weight_append]
  omega

theorem getLast_encode {text : String} (h : text.toList.getLast? = some '\n') :
    (Utf8.encode text).getLast? = some newline := by
  obtain ⟨init, hinit⟩ := List.getLast?_eq_some_iff.mp h
  have htext : text = String.ofList init ++ "\n" := by
    rw [← String.toList_inj, hinit, String.toList_append, String.toList_ofList]
    rfl
  rw [htext, Utf8.encode_append]
  exact List.getLast?_concat

/-! ## The history -/

theorem readText_encode (buf : String) : readText notUtf8 (Utf8.encode buf) = .ok buf := by
  rw [readText, Utf8.decode_encode]

theorem encode_of_readText {bytes : List UInt8} {buf : String} (h : readText notUtf8 bytes = .ok buf) :
    Utf8.encode buf = bytes := by
  unfold readText at h
  split at h
  · next hdecode =>
    cases h
    exact Utf8.encode_of_decode hdecode
  · cases h

/-- What `Lines` makes of a text. -/
def historyLines (text : String) : List String :=
  (Lines.pieces '\n' text.toList).map fun piece => chomp (String.ofList piece)

/-- A text of lines, line by line. -/
theorem EndsLine.induct {motive : String → Prop} (nil : motive "")
    (line : ∀ line rest, '\n' ∉ line.toList → EndsLine rest → motive rest → motive (line ++ "\n" ++ rest))
    {text : String} (h : EndsLine text) : motive text := by
  induction hn : text.length using Nat.strongRecOn generalizing text with
  | ind n ih =>
    by_cases hempty : text = ""
    · exact hempty ▸ nil
    · obtain ⟨first, rest, rfl, hfirst, hrest⟩ := exists_line h hempty
      refine line first rest hfirst hrest (ih rest.length ?_ hrest rfl)
      rw [← hn, String.length_append, String.length_append]
      have hone : "\n".length = 1 := rfl
      omega

theorem pieces_line {line : String} (h : '\n' ∉ line.toList) (rest : String) :
    Lines.pieces '\n' (line ++ "\n" ++ rest).toList =
      (line ++ "\n").toList :: Lines.pieces '\n' rest.toList := by
  have htoList : (line ++ "\n" ++ rest).toList = line.toList ++ '\n' :: rest.toList := by
    rw [String.append_assoc, String.toList_append, String.toList_append]
    rfl
  rw [htoList, Lines.pieces_append h, String.toList_append]
  rfl

theorem historyLines_append {line : String} (h : '\n' ∉ line.toList) (rest : String) :
    historyLines (line ++ "\n" ++ rest) = chomp (line ++ "\n") :: historyLines rest := by
  rw [historyLines, pieces_line h, List.map_cons, String.ofList_toList, historyLines]

/-- The file is read as the lines of its text. -/
theorem readLines_encode {text : String} (h : EndsLine text) :
    readLines notUtf8 (Utf8.encode text) = .ok (historyLines text) := by
  refine EndsLine.induct (motive := fun text => readLines notUtf8 (Utf8.encode text) = .ok (historyLines text))
    rfl (fun line rest hline _ ih => ?_) h
  have hbytes : Utf8.encode (line ++ "\n" ++ rest) = Utf8.encode line ++ newline :: Utf8.encode rest := by
    rw [String.append_assoc, Utf8.encode_append, Utf8.encode_append]
    rfl
  have hpiece : Utf8.encode line ++ [newline] = Utf8.encode (line ++ "\n") :=
    (Utf8.encode_append line "\n").symm
  have hnewline : newline ∉ Utf8.encode line := fun hmem => hline (Utf8.mem_of_encode (by decide) hmem)
  rw [readLines, hbytes, Lines.pieces_append hnewline, hpiece, List.mapM_cons, readText_encode,
    ← readLines, ih, historyLines_append hline]
  rfl

/-- A line that does not end in two carriage returns, in one way and the other. -/
theorem trimLine_eq_chomp {line : String} (hline : '\n' ∉ line.toList)
    (hreturns : ¬ ['\r', '\r'] <:+ line.toList) : trimLine (line ++ "\n") = chomp (line ++ "\n") := by
  have htoList : (line ++ "\n").toList = line.toList ++ ['\n'] := String.toList_append
  rw [trimLine_newline, ← String.toList_inj, toList_trimLine hline, chomp]
  simp only [htoList, List.getLast?_concat, List.dropLast_concat, if_true, String.toList_ofList]
  split
  · next hlast =>
    obtain ⟨init, hinit⟩ := List.getLast?_eq_some_iff.mp hlast
    rw [hinit, List.dropLast_concat, Text.trimEndMatches_concat]
    rcases List.eq_nil_or_concat init with rfl | ⟨first, c, rfl⟩
    · rfl
    · rw [List.concat_eq_append] at hinit ⊢
      refine Text.trimEndMatches_of_getLast ?_
      rintro rfl
      exact hreturns ⟨first, by rw [hinit, List.append_assoc]; rfl⟩
  · next hlast =>
    rcases List.eq_nil_or_concat line.toList with hnil | ⟨first, c, hconcat⟩
    · rw [hnil]
      rfl
    · rw [hconcat, List.concat_eq_append] at hlast ⊢
      rw [List.getLast?_concat] at hlast
      exact Text.trimEndMatches_of_getLast fun heq => hlast (congrArg some heq)

/-- The polls yield the lines of the history that are not empty, when no line ends in
more than one carriage return. -/
theorem followedLines_eq {text : String} (h : EndsLine text)
    (hreturns : ∀ piece ∈ Lines.pieces '\n' text.toList, ¬ ['\r', '\r', '\n'] <:+ piece) :
    followedLines text = (historyLines text).filter (· ≠ "") := by
  refine EndsLine.induct (motive := fun text =>
    (∀ piece ∈ Lines.pieces '\n' text.toList, ¬ ['\r', '\r', '\n'] <:+ piece) →
      followedLines text = (historyLines text).filter (· ≠ "")) (fun _ => rfl)
    (fun line rest hline _ ih hreturns => ?_) h hreturns
  rw [pieces_line hline] at hreturns
  have hrest := ih fun piece hpiece => hreturns piece (List.mem_cons_of_mem _ hpiece)
  have hline' : ¬ ['\r', '\r'] <:+ line.toList := by
    rintro ⟨first, hfirst⟩
    refine hreturns _ List.mem_cons_self ⟨first, ?_⟩
    rw [String.toList_append, ← hfirst, List.append_assoc]
    rfl
  rw [followedLines_append hline, hrest, historyLines_append hline,
    ← trimLine_eq_chomp hline hline', lineOf]
  split
  · next hempty =>
    rw [hempty]
    rfl
  · next hnonempty =>
    rw [List.filter_cons_of_pos (by simpa only [decide_eq_true_eq] using hnonempty)]
    rfl

end Nexad.Runtime
