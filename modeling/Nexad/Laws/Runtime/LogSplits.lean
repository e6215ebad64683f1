import Nexad.Laws.Runtime.LogLines
import Nexad.Laws.Runtime.LogTailer

/-!
# Following a log that is written in pieces

When the file ends inside a line at a poll, the stream gets a piece of the line as
one line and the rest as another: it yields what it would have of the text as a
whole exactly when no poll stops there (`items_eq_iff`). A text that is written at
once is yielded as the history would have it, but for the empty lines
(`follow_skips_empty`).
-/

namespace Nexad.Runtime

open Interleave

variable {notUtf8 : String}

/-! ## Following a text -/

/-- The items of the stream. -/
def items (calls : List TailCall) : List (Except NexaError String) :=
  calls.filterMap fun
    | ⟨.yield item, _⟩ => some item
    | _ => none

/-- The tailer is about to poll at the end of the file, or it has ended. -/
inductive CaughtUp (file : List UInt8) : Prog tailSig TailEnd → Prop
  | atEnd (cont : Except String (List UInt8) → Prog tailSig TailEnd) :
      CaughtUp file (.call (.readUntil file.length) cont)
  | ended : CaughtUp file (.ret .ended)
  | refused (e : NexaError) : CaughtUp file (.ret (.refused e))

/-- A poll has stopped inside a line of the text. -/
def CutsLine (start : List UInt8) (text : String) (calls : List TailCall) : Prop :=
  ∃ (offset : Nat) (piece : List UInt8), ⟨.readUntil offset, .ok piece⟩ ∈ calls ∧ piece ≠ [] ∧
    InsideLine (Utf8.encode text) (offset + piece.length - start.length)

theorem cutsLine_poll {start piece : List UInt8} {text : String} {offset : Nat} {calls : List TailCall} :
    CutsLine start text (⟨.readUntil offset, .ok piece⟩ :: calls) ↔
      (piece ≠ [] ∧ InsideLine (Utf8.encode text) (offset + piece.length - start.length)) ∨
        CutsLine start text calls := by
  constructor
  · rintro ⟨offset', piece', hmem, hne, hinside⟩
    rcases List.mem_cons.mp hmem with heq | hmem
    · cases heq
      exact .inl ⟨hne, hinside⟩
    · exact .inr ⟨offset', piece', hmem, hne, hinside⟩
  · rintro (⟨hne, hinside⟩ | ⟨offset', piece', hmem, hne, hinside⟩)
    · exact ⟨offset, piece, List.mem_cons_self, hne, hinside⟩
    · exact ⟨offset', piece', List.mem_cons_of_mem _ hmem, hne, hinside⟩

theorem not_cutsLine_nil (start : List UInt8) (text : String) : ¬ CutsLine start text [] := by
  rintro ⟨_, _, hmem, _⟩
  cases hmem

/-- The read of a poll. -/
def isPoll : TailOp → Bool
  | .readUntil _ => true
  | _ => false

/-- Nothing else cuts lines. -/
theorem cutsLine_cons {start : List UInt8} {text : String} {call : TailCall} {calls : List TailCall}
    (hcall : isPoll call.1 = false) :
    CutsLine start text (call :: calls) ↔ CutsLine start text calls := by
  constructor
  · rintro ⟨offset, piece, hmem, hcut⟩
    rcases List.mem_cons.mp hmem with rfl | hmem
    · cases hcall
    · exact ⟨offset, piece, hmem, hcut⟩
  · rintro ⟨offset, piece, hmem, hcut⟩
    exact ⟨offset, piece, List.mem_cons_of_mem _ hmem, hcut⟩

/-- The tailer among appends to the file. -/
abbrev BytesAmong (p : Prog tailSig TailEnd) (file : List UInt8) (calls : List TailCall)
    (q : Prog tailSig TailEnd) (file' : List UInt8) : Prop :=
  p.Among (TailAnswered id) (· <+: ·) file calls q file'

theorem grown_of_among {p q : Prog tailSig TailEnd} {file file' : List UInt8} {calls : List TailCall}
    (h : BytesAmong p file calls q file') : file <+: file' := by
  refine h.related (fun _ _ _ => List.IsPrefix.trans) fun s op ans s' answered => ?_
  cases answered <;> exact List.prefix_refl _

theorem caughtUp_follow {file : List UInt8} {polls offset : Nat}
    (h : CaughtUp file (LogTailer.follow notUtf8 polls offset)) : offset = file.length := by
  cases polls with
  | zero => cases h
  | succ polls =>
    unfold LogTailer.follow at h
    cases h
    rfl

/-- What a poll reads is a beginning of what is left. -/
theorem readUntil_piece {start s : List UInt8} {done left : String}
    (h : s <+: start ++ Utf8.encode (done ++ left)) :
    ∃ piece rest, (Lines.pieces newline (s.drop (start.length + (Utf8.encode done).length))).headD [] = piece ∧
      Utf8.encode left = piece ++ rest ∧
      newline ∉ piece.dropLast ∧ (piece.getLast? ≠ some newline → newline ∉ piece) := by
  have hleft : (start ++ Utf8.encode (done ++ left)).drop (start.length + (Utf8.encode done).length) =
      Utf8.encode left := by
    rw [Utf8.encode_append, ← List.append_assoc, ← List.length_append, List.drop_left]
  have hprefix := h.drop (start.length + (Utf8.encode done).length)
  rw [hleft] at hprefix
  generalize s.drop (start.length + (Utf8.encode done).length) = found at hprefix
  obtain ⟨rest, hrest⟩ := (Lines.headD_pieces_prefix newline found).trans hprefix
  refine ⟨_, rest, rfl, hrest.symm, ?_⟩
  cases hpieces : Lines.pieces newline found with
  | nil => exact ⟨List.not_mem_nil, fun _ => List.not_mem_nil⟩
  | cons piece more => exact Lines.notMem_dropLast_of_pieces (hpieces ▸ List.mem_cons_self)

/-- Whether that poll stops inside a line. -/
theorem insideLine_poll {start piece rest : List UInt8} {done left : String}
    (hbytes : Utf8.encode left = piece ++ rest) (hne : piece ≠ []) :
    InsideLine (Utf8.encode (done ++ left))
        (start.length + (Utf8.encode done).length + piece.length - start.length) ↔
      (∃ b, piece.getLast? = some b ∧ b ≠ newline) ∧
        ∃ b ∈ rest.takeWhile (· ≠ newline), b ≠ carriageReturn := by
  have hoffset : start.length + (Utf8.encode done).length + piece.length - start.length =
      (Utf8.encode done).length + piece.length := by omega
  rw [hoffset, Utf8.encode_append, hbytes]
  exact insideLine_append hne

/-- After a poll that has read something: it is yielded, and the polls go on behind it. -/
theorem yield_among {polls offset : Nat} {buf : String} {s file : List UInt8}
    {calls : List TailCall} {q : Prog tailSig TailEnd}
    (h : BytesAmong (if trimLine buf = "" then LogTailer.follow notUtf8 polls offset
      else .call (.yield (.ok (trimLine buf))) fun _ => LogTailer.follow notUtf8 polls offset) s calls q file)
    (hsettled : CaughtUp file q) : ∃ (s' : List UInt8) (calls' : List TailCall),
      BytesAmong (LogTailer.follow notUtf8 polls offset) s' calls' q file ∧
      items calls = (lineOf buf).map .ok ++ items calls' ∧
      ∀ start text, CutsLine start text calls ↔ CutsLine start text calls' := by
  unfold lineOf
  by_cases hempty : trimLine buf = ""
  · rw [if_pos hempty] at h ⊢
    exact ⟨s, calls, h, rfl, fun _ _ => Iff.rfl⟩
  · rw [if_neg hempty] at h ⊢
    cases h with
    | refl => cases hsettled
    | call _ answered h =>
      cases answered
      exact ⟨_, _, h, rfl, fun _ _ => cutsLine_cons rfl⟩

/-- What has been yielded are the lines that were due, unless a line was cut: then
there is an error among it, or it weighs less. -/
def Due (cut : Prop) (found : List (Except NexaError String)) (due : List String) : Prop :=
  (¬ cut → found = due.map .ok) ∧
    (cut → ∀ lines : List String, found = lines.map .ok → weight lines < weight due)

section Due

variable {cut cut' : Prop} {found : List (Except NexaError String)} {due : List String}

theorem Due.congr (h : Due cut found due) (hiff : cut' ↔ cut) : Due cut' found due := by
  rwa [Due, hiff]

theorem Due.weight_le (h : Due cut found due) {lines : List String} (hlines : found = lines.map .ok) :
    weight lines ≤ weight due := by
  by_cases hcut : cut
  · exact (h.2 hcut lines hlines).le
  · have hsame : lines.map (Except.ok (ε := NexaError)) = due.map .ok := hlines.symm.trans (h.1 hcut)
    have hinj : Function.Injective (Except.ok : String → Except NexaError String) := fun _ _ => Except.ok.inj
    rw [List.map_injective_iff.mpr hinj hsame]

/-- More lines that are due come first. -/
theorem Due.append (h : Due cut found due) (first : List String) :
    Due cut (first.map .ok ++ found) (first ++ due) := by
  refine ⟨fun hcut => ?_, fun hcut lines hlines => ?_⟩
  · rw [h.1 hcut, List.map_append]
  · obtain ⟨lines₁, lines₂, rfl, hfirst, hfound⟩ := List.append_eq_map_iff.mp hlines
    have hsame : lines₁ = first := List.map_injective_iff.mpr (fun _ _ => Except.ok.inj) hfirst
    have hlt := h.2 hcut lines₂ hfound.symm
    rw [hsame, weight_append, weight_append]
    omega

/-- Lighter ones come first. -/
theorem Due.lighter (h : Due cut found due) {first whole : List String}
    (hlt : weight first + weight due < weight whole) : Due True (first.map .ok ++ found) whole := by
  refine ⟨fun hcut => absurd trivial hcut, fun _ lines hlines => ?_⟩
  obtain ⟨lines₁, lines₂, rfl, hfirst, hfound⟩ := List.append_eq_map_iff.mp hlines
  have hsame : lines₁ = first := List.map_injective_iff.mpr (fun _ _ => Except.ok.inj) hfirst
  have hle := h.weight_le hfound.symm
  rw [hsame, weight_append]
  omega

/-- An error instead of the lines. -/
theorem Due.error (hcut : cut) (e : NexaError) (due : List String) : Due cut [.error e] due := by
  refine ⟨fun hnot => absurd hcut hnot, fun _ lines hlines => ?_⟩
  cases lines with
  | nil => cases hlines
  | cons => cases hlines

end Due

/-- One poll that read a text, and what is due once it is yielded. -/
theorem Due.poll {cut : Prop} {found : List (Except NexaError String)} {buf left : String}
    (h : EndsLine left → Due cut found (followedLines left)) (hleft : EndsLine (buf ++ left))
    (hne : Utf8.encode buf ≠ [])
    (hpiece : newline ∉ (Utf8.encode buf).dropLast ∧
      ((Utf8.encode buf).getLast? ≠ some newline → newline ∉ Utf8.encode buf)) :
    Due (((∃ b, (Utf8.encode buf).getLast? = some b ∧ b ≠ newline) ∧
        ∃ b ∈ (Utf8.encode left).takeWhile (· ≠ newline), b ≠ carriageReturn) ∨ cut)
      ((lineOf buf).map .ok ++ found) (followedLines (buf ++ left)) := by
  by_cases hinside : (∃ b, (Utf8.encode buf).getLast? = some b ∧ b ≠ newline) ∧
      ∃ b ∈ (Utf8.encode left).takeWhile (· ≠ newline), b ≠ carriageReturn
  · obtain ⟨⟨b, hlast, hb⟩, hcontent⟩ := hinside
    have hnewline : '\n' ∉ buf.toList := fun hmem =>
      hpiece.2 (fun heq => hb (Option.some.inj (hlast.symm.trans heq)))
        (Utf8.mem_encode hmem (by decide))
    have hbuf : buf ≠ "" := fun hempty => hne (hempty ▸ Utf8.encode_empty)
    obtain ⟨hleft', hlt⟩ := weight_of_poll hleft hbuf hnewline hcontent
    refine ((h hleft').lighter hlt).congr (iff_true_intro (.inl ⟨⟨b, hlast, hb⟩, hcontent⟩))
  · obtain ⟨p, left', hsplit, hp, hleft', hlines⟩ :=
      lines_of_poll hleft hne (Utf8.encode_append buf left) hpiece hinside
    cases Utf8.encode_injective hp
    have hsame : left' = left := by
      rw [← String.toList_inj, String.toList_append, String.toList_append] at hsplit
      exact String.toList_inj.mp (List.append_cancel_left hsplit).symm
    subst hsame
    rw [hlines]
    exact ((h hleft').append _).congr (or_iff_right hinside)

theorem tailAnswered_unchanged {s s' : List UInt8} {op : TailOp} {ans : tailSig.Ans op}
    (h : TailAnswered id s op ans s') : s' = s := by
  cases h <;> rfl

theorem piece_of_answered {s s' piece : List UInt8} {offset : Nat}
    (h : TailAnswered id s (.readUntil offset) (.ok piece) s') :
    piece = (Lines.pieces newline (s.drop offset)).headD [] := by
  cases h
  rfl

/-- What is no text ends inside a character, so inside a line. -/
theorem insideLine_of_readText_error {piece rest : List UInt8} {left e : String}
    (htext : readText notUtf8 piece = .error e) (hleft : EndsLine left) (hne : piece ≠ [])
    (hbytes : Utf8.encode left = piece ++ rest)
    (hshape : newline ∉ piece.dropLast ∧ (piece.getLast? ≠ some newline → newline ∉ piece)) :
    (∃ b, piece.getLast? = some b ∧ b ≠ newline) ∧
      ∃ b ∈ rest.takeWhile (· ≠ newline), b ≠ carriageReturn := by
  by_contra houtside
  obtain ⟨p, -, -, rfl, -⟩ := lines_of_poll hleft hne hbytes hshape houtside
  rw [readText, Utf8.decode_encode] at htext
  cases htext

/-- What the polls yield of what is left of the text. -/
theorem follow_items {start s : List UInt8} {polls : Nat} {done left : String} {calls : List TailCall}
    {q : Prog tailSig TailEnd}
    (h : BytesAmong (LogTailer.follow notUtf8 polls (start.length + (Utf8.encode done).length)) s calls q
      (start ++ Utf8.encode (done ++ left)))
    (hsettled : CaughtUp (start ++ Utf8.encode (done ++ left)) q) (hleft : EndsLine left) :
    Due (CutsLine start (done ++ left) calls) (items calls) (followedLines left) := by
  induction polls generalizing done left s calls with
  | zero =>
    cases h with
    | refl => cases hsettled
  | succ polls ih =>
    have hend : q = LogTailer.follow notUtf8 (polls + 1) (start.length + (Utf8.encode done).length) →
        left = "" := by
      rintro rfl
      have hlength := caughtUp_follow hsettled
      rw [Utf8.encode_append, List.length_append, List.length_append] at hlength
      exact Utf8.encode_injective (List.eq_nil_of_length_eq_zero (by omega))
    generalize hp : LogTailer.follow notUtf8 (polls + 1) (start.length + (Utf8.encode done).length) = p at h
    cases h with
    | refl =>
      rw [hend hp.symm]
      exact ⟨fun _ => rfl, fun hcut => absurd hcut (not_cutsLine_nil _ _)⟩
    | @call _ _ _ _ s₁ _ _ _ calls moved answered h =>
      unfold LogTailer.follow at hp
      cases hp
      cases answered
      obtain ⟨piece, rest, hpiece, hbytes, hshape⟩ := readUntil_piece (grown_of_among h)
      simp only [id] at h ⊢
      rw [hpiece] at h ⊢
      by_cases hne : piece = []
      · -- nothing is there yet
        subst hne
        simp only [readText_nil, if_true] at h
        cases h with
        | refl => cases hsettled
        | call moved' answered h =>
          cases answered
          rw [cutsLine_poll, @cutsLine_cons start (done ++ left) ⟨.sleep 250, ()⟩ _ rfl]
          simp only [ne_eq, not_true, false_and, false_or]
          exact ih h hsettled hleft
      · rw [cutsLine_poll, insideLine_poll hbytes hne, and_iff_right hne]
        cases htext : readText notUtf8 piece with
        | error e =>
          simp only [htext, LogTailer.fail] at h
          have hcut := insideLine_of_readText_error htext hleft hne hbytes hshape
          cases h with
          | refl => cases hsettled
          | call _ answered h =>
            cases answered
            cases h
            exact Due.error (.inl hcut) _ _
        | ok buf =>
          obtain rfl : piece = Utf8.encode buf := (encode_of_readText htext).symm
          obtain ⟨left, rfl, rfl⟩ := Utf8.exists_of_encode_append hbytes.symm
          simp only [htext, if_neg hne] at h
          obtain ⟨s', calls', hrest, hitems, hcuts⟩ := yield_among h hsettled
          have hoffset : start.length + (Utf8.encode done).length + (Utf8.encode buf).length =
              start.length + (Utf8.encode (done ++ buf)).length := by
            rw [Utf8.encode_append, List.length_append, Nat.add_assoc]
          rw [hoffset] at hrest
          rw [← String.append_assoc] at hrest hsettled
          have hpoll : items (⟨.readUntil (start.length + (Utf8.encode done).length),
              .ok (Utf8.encode buf)⟩ :: calls) = (lineOf buf).map .ok ++ items calls' := hitems
          rw [hcuts, hpoll, ← String.append_assoc]
          exact Due.poll (ih hrest hsettled) hleft hne hshape

/-- From the end of the file as it was. -/
theorem followed_items {start s : List UInt8} {polls : Nat} {text : String} {calls : List TailCall}
    {q : Prog tailSig TailEnd}
    (h : BytesAmong (LogTailer.follow notUtf8 polls start.length) s calls q (start ++ Utf8.encode text))
    (hsettled : CaughtUp (start ++ Utf8.encode text) q) (htext : EndsLine text) :
    Due (CutsLine start text calls) (items calls) (followedLines text) := by
  have hfollowed := @follow_items notUtf8 start s polls "" text calls q
  rw [String.empty_append] at hfollowed
  exact hfollowed h hsettled htext

/-! ## The whole stream -/

/-- The history that is served of a file, if it can be read. -/
def historyOf (tail : Option UInt64) (lines : List String) : List String :=
  lines.drop (lines.length - LogTailer.historyLength tail)

/-- A tailer among appends that has settled. What it has read of the file, and its
length, are those from before the text came. -/
structure Follows (notUtf8 : String) (grows : List UInt8 → List UInt8 → Prop) (path : String) (tail : Option UInt64)
    (polls : Nat) (start : List UInt8) (text : String) (calls : List TailCall) : Prop where
  settles : ∃ q, (LogTailer.tail notUtf8 path tail polls).Among (TailAnswered id) grows start calls q
    (start ++ Utf8.encode text) ∧ CaughtUp (start ++ Utf8.encode text) q
  read : ∀ bytes : List UInt8, ⟨.readToEnd, .ok bytes⟩ ∈ calls → bytes = start
  measured : ∀ length : Nat, ⟨.metadata path, .ok length⟩ ∈ calls → length = start.length

theorem serve_items {rest q : Prog tailSig TailEnd} {history : List String} {s file : List UInt8}
    {calls : List TailCall} (h : BytesAmong (LogTailer.serve rest history) s calls q file)
    (hsettled : CaughtUp file q) : ∃ (s' : List UInt8) (calls' : List TailCall),
      BytesAmong rest s' calls' q file ∧ items calls = history.map .ok ++ items calls' ∧
      ∀ start text, CutsLine start text calls ↔ CutsLine start text calls' := by
  induction history generalizing s calls with
  | nil => exact ⟨s, calls, h, rfl, fun _ _ => Iff.rfl⟩
  | cons line history ih =>
    cases h with
    | refl => cases hsettled
    | call _ answered h =>
      cases answered
      obtain ⟨s', calls', hrest, hitems, hcuts⟩ := ih h
      refine ⟨s', calls', hrest, congrArg (Except.ok line :: ·) hitems, fun start text => ?_⟩
      rw [@cutsLine_cons start text ⟨.yield (.ok line), ()⟩ _ rfl]
      exact hcuts start text

/-- The stream of a tailer of a file that has grown by a text: the history of the
file, and what the polls have yielded of the text. -/
theorem Follows.items_eq {path : String} {tail : Option UInt64} {polls : Nat} {start : List UInt8}
    {text : String} {calls : List TailCall}
    (h : Follows notUtf8 (· <+: ·) path tail polls start text calls) (htext : EndsLine text) :
    (∀ e, readLines notUtf8 start = .error e → items calls = [] ∧ ¬ CutsLine start text calls) ∧
    ∀ lines, readLines notUtf8 start = .ok lines → ∃ found,
      items calls = (historyOf tail lines).map .ok ++ found ∧
      Due (CutsLine start text calls) found (followedLines text) := by
  obtain ⟨⟨q, h, hsettled⟩, hread, hmeasured⟩ := h
  unfold LogTailer.tail LogTailer.readAllInner at h
  cases h with
  | refl => cases hsettled
  | call _ answered h =>
  cases answered
  rw [@cutsLine_cons start text ⟨.exists path, true⟩ _ rfl]
  cases h with
  | refl => cases hsettled
  | call _ answered h =>
  cases answered
  rw [@cutsLine_cons start text ⟨.open path, .ok ()⟩ _ rfl]
  cases h with
  | refl => cases hsettled
  | @call _ _ _ _ s₁ _ _ _ _ _ answered h =>
  cases answered
  obtain rfl : s₁ = start := hread s₁ (.tail _ (.tail _ (.head _)))
  rw [@cutsLine_cons s₁ text ⟨.readToEnd, .ok (id s₁)⟩ _ rfl]
  simp only [id] at h
  cases hlines : readLines notUtf8 s₁ with
  | error e =>
    simp only [hlines] at h
    cases h with
    | refl => exact ⟨fun _ _ => ⟨rfl, not_cutsLine_nil _ _⟩, fun lines heq => (by cases heq)⟩
  | ok lines =>
    simp only [hlines, LogTailer.afterHistory] at h
    refine ⟨fun e heq => (by cases heq), fun lines' heq => ?_⟩
    cases heq
    cases h with
    | refl => cases hsettled
    | @call _ _ _ _ s₂ _ _ _ _ _ answered h =>
    cases answered
    have hlength : s₂.length = s₁.length := hmeasured s₂.length (.tail _ (.tail _ (.tail _ (.head _))))
    rw [@cutsLine_cons s₁ text ⟨.metadata path, .ok (id s₂).length⟩ _ rfl]
    simp only [id, hlength, LogTailer.stream] at h
    obtain ⟨s₃, calls₁, hrest, hitems, hcuts⟩ := serve_items h hsettled
    rw [hcuts]
    cases hrest with
    | refl => cases hsettled
    | call _ answered hrest =>
    cases answered
    rw [@cutsLine_cons s₁ text ⟨.open path, .ok ()⟩ _ rfl]
    cases hrest with
    | refl => cases hsettled
    | call _ answered hrest =>
    cases answered
    rw [@cutsLine_cons s₁ text ⟨.seek s₂.length, .ok ()⟩ _ rfl]
    exact ⟨_, hitems, followed_items hrest hsettled htext⟩

/-- Two tailers of a file that grows by the same text, of which one cuts no line:
the streams are the same exactly when the other does not either. -/
theorem items_eq_iff {path : String} {tail : Option UInt64} {polls polls' : Nat} {start : List UInt8}
    {text : String} {calls calls' : List TailCall} (htext : text.toList.getLast? = some '\n')
    (h : Follows notUtf8 (· <+: ·) path tail polls start text calls)
    (h' : Follows notUtf8 (· <+: ·) path tail polls' start text calls') (hwhole : ¬ CutsLine start text calls') :
    items calls = items calls' ↔ ¬ CutsLine start text calls := by
  obtain ⟨herror, hok⟩ := h.items_eq (.inr htext)
  obtain ⟨herror', hok'⟩ := h'.items_eq (.inr htext)
  cases hlines : readLines notUtf8 start with
  | error e =>
    obtain ⟨hitems, hcut⟩ := herror e hlines
    obtain ⟨hitems', -⟩ := herror' e hlines
    rw [hitems, hitems']
    exact iff_of_true rfl hcut
  | ok lines =>
    obtain ⟨found, hitems, hdue⟩ := hok lines hlines
    obtain ⟨found', hitems', hdue'⟩ := hok' lines hlines
    rw [hitems, hitems', List.append_cancel_left_eq, hdue'.1 hwhole]
    exact ⟨fun hsame hcut => Nat.lt_irrefl _ (hdue.2 hcut _ hsame), hdue.1⟩

/-! ### Runs from an empty file -/

/-- What a tailer of an empty file asks first. -/
def fromEmptyFile (path : String) : List TailCall :=
  [⟨.exists path, true⟩, ⟨.open path, .ok ()⟩, ⟨.readToEnd, .ok []⟩, ⟨.metadata path, .ok (0 : Nat)⟩,
    ⟨.open path, .ok ()⟩, ⟨.seek 0, .ok ()⟩]

/-- The polls from an empty file make a run of the tailer. -/
theorem follows_of_empty {grows : List UInt8 → List UInt8 → Prop} (hrefl : ∀ s, grows s s)
    {path : String} {polls : Nat} {text : String} {calls : List TailCall} {q : Prog tailSig TailEnd}
    (h : (LogTailer.follow notUtf8 polls 0).Among (TailAnswered id) grows [] calls q (Utf8.encode text))
    (hsettled : CaughtUp (Utf8.encode text) q) :
    Follows notUtf8 grows path none polls [] text (fromEmptyFile path ++ calls) := by
  have hasked := (h.path.every (follow_every polls 0)).1
  refine ⟨⟨q, ?_, hsettled⟩, fun bytes hmem => ?_, fun length hmem => ?_⟩
  · exact .call (hrefl _) (.exists path) (.call (hrefl _) (.open path) (.call (hrefl _) .readToEnd
      (.call (hrefl _) (.metadata path) (.call (hrefl _) (.open path) (.call (hrefl _) (.seek 0) h)))))
  · rcases List.mem_append.mp hmem with hmem | hmem
    · simp only [fromEmptyFile, List.mem_cons, Sigma.mk.injEq, reduceCtorEq, false_and, false_or,
        true_and, List.not_mem_nil, or_false] at hmem
      exact Except.ok.inj (eq_of_heq hmem)
    · exact absurd rfl (hasked _ hmem).1
  · rcases List.mem_append.mp hmem with hmem | hmem
    · simp only [fromEmptyFile, List.mem_cons, Sigma.mk.injEq, reduceCtorEq, false_and, false_or,
        true_and, List.not_mem_nil, or_false] at hmem
      exact Except.ok.inj (eq_of_heq hmem)
    · exact absurd rfl ((hasked _ hmem).2 path)

section Poll

variable {grows : List UInt8 → List UInt8 → Prop} {polls offset : Nat} {s s₁ file : List UInt8}
  {calls : List TailCall} {q : Prog tailSig TailEnd} {buf : String}

/-- A poll that finds a line, and the polls after it. -/
theorem among_of_line (hrefl : ∀ s, grows s s) (moved : grows s s₁)
    (hfound : (Lines.pieces newline (s₁.drop offset)).headD [] = Utf8.encode buf)
    (hne : Utf8.encode buf ≠ []) (hline : trimLine buf ≠ "")
    (h : (LogTailer.follow notUtf8 polls (offset + (Utf8.encode buf).length)).Among (TailAnswered id) grows
      s₁ calls q file) :
    (LogTailer.follow notUtf8 (polls + 1) offset).Among (TailAnswered id) grows s
      (⟨.readUntil offset, .ok (Utf8.encode buf)⟩ :: ⟨.yield (.ok (trimLine buf)), ()⟩ :: calls)
      q file := by
  have hanswered : TailAnswered id s₁ (.readUntil offset)
      (.ok ((Lines.pieces newline (s₁.drop offset)).headD [])) s₁ := .readUntil offset
  rw [hfound] at hanswered
  refine .call moved hanswered ?_
  simp only [readText_encode, if_neg hne, if_neg hline]
  exact .call (hrefl _) (.yield _) h

/-- A poll that finds an empty line. -/
theorem among_of_blank (moved : grows s s₁)
    (hfound : (Lines.pieces newline (s₁.drop offset)).headD [] = Utf8.encode buf)
    (hne : Utf8.encode buf ≠ []) (hline : trimLine buf = "")
    (h : (LogTailer.follow notUtf8 polls (offset + (Utf8.encode buf).length)).Among (TailAnswered id) grows
      s₁ calls q file) :
    (LogTailer.follow notUtf8 (polls + 1) offset).Among (TailAnswered id) grows s
      (⟨.readUntil offset, .ok (Utf8.encode buf)⟩ :: calls) q file := by
  have hanswered : TailAnswered id s₁ (.readUntil offset)
      (.ok ((Lines.pieces newline (s₁.drop offset)).headD [])) s₁ := .readUntil offset
  rw [hfound] at hanswered
  refine .call moved hanswered ?_
  simp only [readText_encode, if_neg hne, hline, if_true]
  exact h

/-- The next poll finds nothing. -/
theorem caughtUp_end (polls : Nat) (file : List UInt8) :
    CaughtUp file (LogTailer.follow notUtf8 (polls + 1) file.length) := .atEnd _

end Poll

/-- A line that is appended at once. -/
private theorem follows_up_whole : Follows invalidData (· <+: ·) "app.log" none 2 [] "up\n"
    (fromEmptyFile "app.log" ++ [⟨.readUntil 0, .ok (Utf8.encode "up\n")⟩, ⟨.yield (.ok (trimLine "up\n")), ()⟩]) :=
  follows_of_empty List.prefix_refl
    (among_of_line List.prefix_refl List.nil_prefix rfl (by decide) (by decide)
      (.refl _ (List.prefix_refl _)))
    (caughtUp_end 0 _)

/-- The same line in two pieces, with a poll between them. -/
private theorem follows_up_cut : Follows invalidData (· <+: ·) "app.log" none 3 [] "up\n"
    (fromEmptyFile "app.log" ++ [⟨.readUntil 0, .ok (Utf8.encode "u")⟩, ⟨.yield (.ok (trimLine "u")), ()⟩,
      ⟨.readUntil 1, .ok (Utf8.encode "p\n")⟩, ⟨.yield (.ok (trimLine "p\n")), ()⟩]) := by
  have hfirst : [] <+: Utf8.encode "u" := List.nil_prefix
  have hsecond : Utf8.encode "u" <+: Utf8.encode "up\n" := by decide
  exact follows_of_empty List.prefix_refl
    (among_of_line List.prefix_refl hfirst rfl (by decide) (by decide)
      (among_of_line List.prefix_refl hsecond rfl (by decide) (by decide)
        (.refl _ (List.prefix_refl _))))
    (caughtUp_end 0 _)

/-- The two pieces are two lines. -/
theorem follow_cuts_up : ∃ calls calls' : List TailCall,
    Follows invalidData (· <+: ·) "app.log" none 3 [] "up\n" calls ∧
    Follows invalidData (· <+: ·) "app.log" none 2 [] "up\n" calls' ∧
    items calls = [.ok "u", .ok "p"] ∧ items calls' = [.ok "up"] :=
  ⟨_, _, follows_up_cut, follows_up_whole, rfl, rfl⟩

theorem items_eq_iff_up : ∃ calls calls' : List TailCall,
    items calls = [.ok "u", .ok "p"] ∧ items calls' = [.ok "up"] ∧
    (items calls = items calls' ↔ ¬ CutsLine [] "up\n" calls) := by
  refine ⟨_, _, rfl, rfl, items_eq_iff (by decide) follows_up_cut follows_up_whole ?_⟩
  rintro ⟨offset, piece, hmem, -, ⟨b, hb, hb'⟩, -⟩
  simp only [fromEmptyFile, List.cons_append, List.nil_append, List.mem_cons, Sigma.mk.injEq,
    reduceCtorEq, false_and, false_or, List.not_mem_nil, or_false, TailOp.readUntil.injEq] at hmem
  obtain ⟨rfl, hpiece⟩ := hmem
  cases eq_of_heq hpiece
  have hlast : some newline = some b := hb
  exact hb' (Option.some.inj hlast).symm

/-! ## The history and what is followed -/

/-- The text is there, or it is not yet. -/
def OneWrite (text : String) (file file' : List UInt8) : Prop :=
  file' = file ∨ file = [] ∧ file' = Utf8.encode text

theorem OneWrite.trans {text : String} {a b c : List UInt8} (h : OneWrite text a b)
    (h' : OneWrite text b c) : OneWrite text a c := by
  rcases h with rfl | ⟨rfl, rfl⟩
  · exact h'
  · rcases h' with rfl | ⟨-, rfl⟩ <;> exact .inr ⟨rfl, rfl⟩

theorem OneWrite.grown {text : String} {a b : List UInt8} (h : OneWrite text a b) : a <+: b := by
  rcases h with rfl | ⟨rfl, -⟩
  · exact List.prefix_refl _
  · exact List.nil_prefix

theorem Follows.mono {grows grows' : List UInt8 → List UInt8 → Prop} (himp : ∀ a b, grows a b → grows' a b)
    {path : String} {tail : Option UInt64} {polls : Nat} {start : List UInt8} {text : String}
    {calls : List TailCall} (h : Follows notUtf8 grows path tail polls start text calls) :
    Follows notUtf8 grows' path tail polls start text calls := by
  obtain ⟨q, hamong, hcaught⟩ := h.settles
  exact ⟨⟨q, hamong.mono himp, hcaught⟩, h.read, h.measured⟩

/-- Nothing is cut of no text. -/
theorem not_cutsLine_empty (start : List UInt8) (calls : List TailCall) : ¬ CutsLine start "" calls := by
  rintro ⟨_, _, _, _, ⟨b, hb, _⟩, _⟩
  rw [Utf8.encode_empty, List.take_nil] at hb
  cases hb

/-- A text of lines that is written at once is not cut inside a line. -/
theorem Follows.not_cutsLine {path : String} {tail : Option UInt64} {polls : Nat} {text : String}
    {calls : List TailCall} (h : Follows notUtf8 (OneWrite text) path tail polls [] text calls)
    (htext : text.toList.getLast? = some '\n') : ¬ CutsLine [] text calls := by
  rintro ⟨offset, piece, hmem, hne, ⟨b, hb, hb'⟩, -⟩
  obtain ⟨⟨q, h, -⟩, -, -⟩ := h
  have hanswer : ∀ (s : List UInt8) op ans s', TailAnswered id s op ans s' → OneWrite text s s' :=
    fun s op ans s' answered => .inl (tailAnswered_unchanged answered)
  obtain ⟨s, s', hmoved, answered⟩ := h.answered (R := OneWrite text) (fun _ _ _ => OneWrite.trans) hanswer _ hmem
  have hpiece : piece = (Lines.pieces newline (s.drop offset)).headD [] := piece_of_answered answered
  rcases hmoved with rfl | ⟨-, rfl⟩
  · rw [List.drop_nil] at hpiece
    exact hne hpiece
  · obtain ⟨rest, hrest⟩ := Lines.headD_pieces_prefix newline ((Utf8.encode text).drop offset)
    rw [← hpiece] at hrest
    have hdrop : (Utf8.encode text).drop offset ≠ [] := hrest ▸ List.append_ne_nil_of_left_ne_nil hne _
    have hend : ((Utf8.encode text).drop offset).getLast? = some newline := by
      rw [List.getLast?_drop, if_neg fun hle => hdrop (List.drop_eq_nil_of_le hle)]
      exact getLast_encode htext
    have hlast := Lines.headD_pieces_getLast hend
    rw [List.length_nil, Nat.sub_zero, List.take_add, ← hrest, List.take_left,
      List.getLast?_append_of_ne_nil _ hne, hpiece, hlast] at hb
    exact hb' (Option.some.inj hb).symm

/-- A text of lines is appended to an empty file at once, and is read as the history
of another: the polls yield the lines of that history that are not empty. -/
theorem follow_skips_empty {path path' : String} {tail tail' : Option UInt64} {polls polls' : Nat}
    {text : String} {calls calls' : List TailCall} (htext : text.toList.getLast? = some '\n')
    (hreturns : ∀ piece ∈ Lines.pieces '\n' text.toList, ¬ ['\r', '\r', '\n'] <:+ piece)
    (hlength : (Lines.pieces '\n' text.toList).length ≤ LogTailer.historyLength tail)
    (h : Follows notUtf8 (· <+: ·) path tail polls (Utf8.encode text) "" calls)
    (h' : Follows notUtf8 (OneWrite text) path' tail' polls' [] text calls') : ∃ lines : List String,
      items calls = lines.map .ok ∧ items calls' = (lines.filter (· ≠ "")).map .ok := by
  have hlines : readLines notUtf8 (Utf8.encode text) = .ok (historyLines text) :=
    readLines_encode (.inr htext)
  have hall : historyOf tail (historyLines text) = historyLines text := by
    rw [historyOf, historyLines, List.length_map, Nat.sub_eq_zero_of_le hlength, List.drop_zero]
  obtain ⟨found, hitems, hdue⟩ := (h.items_eq (.inl rfl)).2 _ hlines
  obtain ⟨found', hitems', hdue'⟩ := ((h'.mono fun _ _ => OneWrite.grown).items_eq (.inr htext)).2 [] rfl
  have hnone : found = [] := hdue.1 (not_cutsLine_empty _ _)
  have hfollowed := hdue'.1 (h'.not_cutsLine htext)
  refine ⟨historyLines text, ?_, ?_⟩
  · rw [hitems, hall, hnone, List.append_nil]
  · rw [hitems', hfollowed, followedLines_eq (.inr htext) hreturns, historyOf, List.drop_nil,
      List.map_nil, List.nil_append]

/-! ### A text with an empty line -/

section Blank

def blankText : String := "up\n\n"

/-- The calls that serve some lines. -/
def serving (history : List String) : List TailCall :=
  history.map fun line => ⟨.yield (.ok line), ()⟩

theorem among_of_serve {rest q : Prog tailSig TailEnd} {file file' : List UInt8} {calls : List TailCall}
    (history : List String) (h : BytesAmong rest file calls q file') :
    BytesAmong (LogTailer.serve rest history) file (serving history ++ calls) q file' := by
  induction history with
  | nil => exact h
  | cons line history ih => exact .call (List.prefix_refl _) (.yield (.ok line)) ih

/-- The calls of a tailer of a file that does not grow. -/
def ofFile (path : String) (file : List UInt8) (history : List String) : List TailCall :=
  [⟨.exists path, true⟩, ⟨.open path, .ok ()⟩, ⟨.readToEnd, .ok file⟩,
    ⟨.metadata path, .ok file.length⟩] ++ (serving history ++
    [⟨.open path, .ok ()⟩, ⟨.seek file.length, .ok ()⟩])

/-- A file that is read whole. -/
theorem follows_of_file {path : String} {file : List UInt8} {lines : List String}
    (hlines : readLines notUtf8 file = .ok lines) (hlength : lines.length ≤ 100) :
    Follows notUtf8 (· <+: ·) path none 1 file "" (ofFile path file lines) := by
  have hrefl := List.prefix_refl file
  have hskip : lines.drop (lines.length - LogTailer.historyLength none) = lines := by
    rw [LogTailer.historyLength, Option.map_none, Option.getD_none, Nat.sub_eq_zero_of_le hlength,
      List.drop_zero]
  have hsame : file ++ Utf8.encode "" = file := List.append_nil file
  refine ⟨⟨LogTailer.follow notUtf8 1 file.length, ?_, ?_⟩, fun bytes hmem => ?_, fun length hmem => ?_⟩
  · rw [hsame]
    refine .call hrefl (.exists path) (.call hrefl (.open path) (.call hrefl .readToEnd ?_))
    simp only [hlines]
    refine .call hrefl (.metadata path) ?_
    simp only [LogTailer.stream, hskip]
    exact among_of_serve lines (.call hrefl (.open path) (.call hrefl (.seek _) (.refl _ hrefl)))
  · rw [hsame]
    exact caughtUp_end 0 file
  · simp only [ofFile, serving, List.cons_append, List.nil_append, List.mem_cons, List.mem_append,
      List.mem_map, Sigma.mk.injEq, reduceCtorEq, false_and, false_or, true_and, List.not_mem_nil,
      or_false, and_false, exists_false] at hmem
    exact Except.ok.inj (eq_of_heq hmem)
  · simp only [ofFile, serving, List.cons_append, List.nil_append, List.mem_cons, List.mem_append,
      List.mem_map, Sigma.mk.injEq, reduceCtorEq, false_and, false_or, true_and, List.not_mem_nil,
      or_false, and_false, exists_false] at hmem
    exact Except.ok.inj (eq_of_heq hmem)

private theorem follows_blank_file :
    Follows invalidData (· <+: ·) "app.log" none 1 (Utf8.encode blankText) ""
      (ofFile "app.log" (Utf8.encode blankText) ["up", ""]) :=
  follows_of_file (readLines_encode (.inr (by decide))) (by decide)

private theorem follows_blank_write :
    Follows invalidData (OneWrite blankText) "new.log" none 3 [] blankText (fromEmptyFile "new.log" ++
      [⟨.readUntil 0, .ok (Utf8.encode "up\n")⟩, ⟨.yield (.ok (trimLine "up\n")), ()⟩,
        ⟨.readUntil 3, .ok (Utf8.encode "\n")⟩]) := by
  have hrefl : ∀ s, OneWrite blankText s s := fun _ => .inl rfl
  exact follows_of_empty hrefl
    (among_of_line hrefl (.inr ⟨rfl, rfl⟩) rfl (by decide) (by decide)
      (among_of_blank (hrefl _) rfl (by decide) (by decide) (.refl _ (hrefl _))))
    (caughtUp_end 0 _)

/-- The empty line is in the history, and not among what is followed. -/
theorem history_keeps_empty : ∃ calls calls' : List TailCall,
    Follows invalidData (· <+: ·) "app.log" none 1 (Utf8.encode blankText) "" calls ∧
    Follows invalidData (OneWrite blankText) "new.log" none 3 [] blankText calls' ∧
    items calls = [.ok "up", .ok ""] ∧ items calls' = [.ok "up"] :=
  ⟨_, _, follows_blank_file, follows_blank_write, rfl, rfl⟩

theorem follow_skips_empty_blank : ∃ (calls calls' : List TailCall) (lines : List String),
    items calls = [.ok "up", .ok ""] ∧ items calls = lines.map .ok ∧
    items calls' = (lines.filter (· ≠ "")).map .ok := by
  obtain ⟨lines, hitems, hitems'⟩ := follow_skips_empty (by decide) (by decide) (by decide)
    follows_blank_file follows_blank_write
  exact ⟨_, _, lines, rfl, hitems, hitems'⟩

end Blank

end Nexad.Runtime
