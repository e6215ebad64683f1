import Nexad.Runtime.LogTailer

/-!
# Every line once

A log here is a list of whole lines, so it is a log at every moment. The
tailer reads its history at one moment and takes the length of the file at
another, and it follows from that length: lines that come in between are in
neither part. There are none exactly when the length is that of what was read
(`tail_loses_nothing_iff`).
-/

namespace Nexad.Runtime

open Interleave

variable {notUtf8 : String}

/-- A line of a log, without its newline. -/
structure LogLine where
  text : String
  nonempty : text ≠ ""
  no_newline : '\n' ∉ text.toList
  no_return : '\r' ∉ text.toList

/-- A log of whole lines. -/
abbrev LogFile := List LogLine

/-- The bytes of a line, with its newline. -/
def LogLine.bytes (line : LogLine) : List UInt8 := Utf8.encode line.text ++ [newline]

/-- The bytes of a log. -/
def LogFile.bytes (file : LogFile) : List UInt8 := file.flatMap LogLine.bytes

/-- Whole lines are appended. -/
def Grows (file file' : LogFile) : Prop := file <+: file'

/-! ## Reading lines -/

namespace LogLine

theorem ext {line line' : LogLine} (h : line.text = line'.text) : line = line' := by
  cases line
  cases line'
  cases h
  rfl

variable (line : LogLine)

theorem newline_not_mem : newline ∉ Utf8.encode line.text :=
  fun hmem => line.no_newline (Utf8.mem_of_encode (by decide) hmem)

theorem bytes_ne_nil : line.bytes ≠ [] := List.append_ne_nil_of_right_ne_nil _ (by decide)

theorem bytes_eq : line.bytes = Utf8.encode (line.text ++ "\n") := by
  rw [Utf8.encode_append]
  rfl

theorem readText_bytes : readText notUtf8 line.bytes = .ok (line.text ++ "\n") := by
  rw [readText, bytes_eq, Utf8.decode_encode]

private theorem toList_newline : (line.text ++ "\n").toList = line.text.toList ++ ['\n'] :=
  String.toList_append

theorem chomp_text : chomp (line.text ++ "\n") = line.text := by
  have hlast : ¬ line.text.toList.getLast? = some '\r' :=
    fun hlast => line.no_return (List.mem_of_getLast? hlast)
  unfold chomp
  simp only [toList_newline, List.getLast?_concat, List.dropLast_concat, if_true, if_neg hlast,
    String.ofList_toList]

theorem trimLine_text : trimLine (line.text ++ "\n") = line.text := by
  unfold trimLine
  rw [toList_newline, Text.trimEndMatches_concat, Text.trimEndMatches_of_notMem line.no_newline,
    Text.trimEndMatches_of_notMem line.no_return, String.ofList_toList]

/-- The bytes of a line say which one it is. -/
theorem bytes_injective {line line' : LogLine} (h : line.bytes = line'.bytes) : line = line' :=
  ext (Utf8.encode_injective (List.append_cancel_right h))

end LogLine

namespace LogFile

theorem bytes_append (file more : LogFile) : LogFile.bytes (file ++ more) = file.bytes ++ more.bytes :=
  List.flatMap_append

theorem pieces_bytes (file : LogFile) : Lines.pieces newline file.bytes = file.map LogLine.bytes :=
  Lines.pieces_flatMap (fun line : LogLine => Utf8.encode line.text) fun line _ => line.newline_not_mem

/-- The bytes of a log say which lines there are. -/
theorem bytes_injective {file file' : LogFile} (h : file.bytes = file'.bytes) : file = file' := by
  have hpieces := congrArg (Lines.pieces newline) h
  rw [pieces_bytes, pieces_bytes] at hpieces
  exact List.map_injective_iff.mpr (fun _ _ => LogLine.bytes_injective) hpieces

theorem readLines_bytes (file : LogFile) : readLines notUtf8 file.bytes = .ok (file.map LogLine.text) := by
  unfold readLines
  rw [pieces_bytes, List.mapM_map]
  induction file with
  | nil => rfl
  | cons line file ih =>
    rw [List.mapM_cons, ih]
    simp only [Function.comp, LogLine.readText_bytes, Except.map, LogLine.chomp_text]
    rfl

/-- A log that ends where another is read from. -/
theorem drop_bytes {file file' : LogFile} (h : file <+: file') :
    file'.bytes.drop file.bytes.length = LogFile.bytes (file'.drop file.length) := by
  obtain ⟨more, rfl⟩ := h
  rw [bytes_append, List.drop_left, List.drop_left]

/-- One log that continues another has its length in bytes only if it is that log. -/
theorem eq_of_length {file file' : LogFile} (h : file <+: file')
    (hlength : file'.bytes.length = file.bytes.length) : file' = file := by
  obtain ⟨more, rfl⟩ := h
  rw [bytes_append, List.length_append] at hlength
  cases more with
  | nil => exact List.append_nil _
  | cons line more =>
    have hpos := List.length_pos_iff.mpr line.bytes_ne_nil
    have hmore : (LogFile.bytes (line :: more)).length = line.bytes.length + (LogFile.bytes more).length :=
      List.length_append
    omega

end LogFile

/-! ## What is yielded -/

/-- A call of the tailer with its answer. -/
abbrev TailCall := (op : tailSig.Op) × tailSig.Ans op

/-- The lines that the stream has yielded. -/
def yielded (calls : List TailCall) : List String :=
  calls.filterMap fun
    | ⟨.yield (.ok line), _⟩ => some line
    | _ => none

/-- The tailer among appends. -/
abbrev TailAmong (p : Prog tailSig TailEnd) (file : LogFile) (calls : List TailCall)
    (q : Prog tailSig TailEnd) (file' : LogFile) : Prop :=
  p.Among (TailAnswered LogFile.bytes) Grows file calls q file'

/-- What is next when the file has been followed this far: a poll, the pause
after one that found nothing, or the yielding of the line that one found. -/
inductive Next (notUtf8 : String) (file file' : LogFile) : Prog tailSig TailEnd → Prop
  | poll (polls : Nat) : Next notUtf8 file file' (LogTailer.follow notUtf8 polls file.bytes.length)
  | pause (polls : Nat) :
      Next notUtf8 file file' (.call (.sleep 250) fun _ => LogTailer.follow notUtf8 polls file.bytes.length)
  | line {line : LogLine} (polls : Nat) (found : file ++ [line] <+: file') :
      Next notUtf8 file file' (.call (.yield (.ok line.text)) fun _ =>
        LogTailer.follow notUtf8 polls (LogFile.bytes (file ++ [line])).length)

/-- A poll from where the file has been followed to: the next line, if there
is one. -/
theorem readUntil_answer {read file : LogFile} (h : read <+: file) :
    (Lines.pieces newline (file.bytes.drop read.bytes.length)).headD [] =
      ((file.drop read.length).head?.map LogLine.bytes).getD [] := by
  rw [LogFile.drop_bytes h, LogFile.pieces_bytes]
  cases file.drop read.length <;> rfl

theorem readText_nil : readText notUtf8 [] = .ok "" := by
  rw [readText, ← Utf8.encode_empty, Utf8.decode_encode]

/-- Following from the end of some lines yields the lines after them, in order. -/
theorem follow_among {polls : Nat} {read s s' : LogFile} {calls : List TailCall}
    {q : Prog tailSig TailEnd}
    (h : TailAmong (LogTailer.follow notUtf8 polls read.bytes.length) s calls q s') (hread : read <+: s) :
    ∃ file, read <+: file ∧ file <+: s' ∧
      yielded calls = (file.drop read.length).map LogLine.text ∧ Next notUtf8 file s' q := by
  induction polls generalizing read s calls with
  | zero =>
    cases h with
    | refl _ moved =>
      refine ⟨read, List.prefix_refl _, hread.trans moved, ?_, .poll 0⟩
      rw [List.drop_length]
      rfl
  | succ polls ih =>
    unfold LogTailer.follow at h
    cases h with
    | refl _ moved =>
      refine ⟨read, List.prefix_refl _, hread.trans moved, ?_, .poll (polls + 1)⟩
      rw [List.drop_length]
      rfl
    | @call _ _ _ _ s₁ _ _ _ calls moved answered h =>
      cases answered
      have hread₁ : read <+: s₁ := hread.trans moved
      rw [readUntil_answer hread₁] at h
      obtain ⟨more, rfl⟩ := hread₁
      rw [List.drop_left] at h
      cases more with
      | nil =>
        simp only [List.head?_nil, Option.map_none, Option.getD_none, readText_nil, if_true] at h
        rw [List.append_nil] at h
        cases h with
        | refl _ moved' =>
          refine ⟨read, List.prefix_refl _, moved', ?_, .pause polls⟩
          rw [List.drop_length]
          rfl
        | call moved' answered h =>
          cases answered
          obtain ⟨file, hfile, hfile', hyielded, hnext⟩ := ih h moved'
          exact ⟨file, hfile, hfile', hyielded, hnext⟩
      | cons line more =>
        simp only [List.head?_cons, Option.map_some, Option.getD_some, line.readText_bytes,
          if_neg line.bytes_ne_nil, line.trimLine_text, if_neg line.nonempty] at h
        have hlength : read.bytes.length + line.bytes.length =
            (LogFile.bytes (read ++ [line])).length := by
          rw [LogFile.bytes_append, List.length_append]
          simp [LogFile.bytes]
        rw [hlength, line.trimLine_text] at h
        have hline : read ++ [line] <+: read ++ line :: more := ⟨more, by simp⟩
        cases h with
        | refl _ moved' =>
          refine ⟨read, List.prefix_refl _, (List.prefix_append _ _).trans moved', ?_,
            .line polls (hline.trans moved')⟩
          rw [List.drop_length]
          rfl
        | @call _ _ _ _ s₂ _ _ _ calls moved' answered h =>
          cases answered
          obtain ⟨file, hfile, hfile', hyielded, hnext⟩ := ih h (hline.trans moved')
          refine ⟨file, (List.prefix_append _ _).trans hfile, hfile', ?_, hnext⟩
          obtain ⟨rest, rfl⟩ := hfile
          have hcalls : ∀ bytes, yielded (⟨.readUntil read.bytes.length, bytes⟩ ::
              ⟨.yield (.ok line.text), ()⟩ :: calls) = line.text :: yielded calls := fun _ => rfl
          rw [hcalls, hyielded, List.drop_left, List.append_assoc, List.drop_left]
          rfl

/-- The tailer is not about to poll. -/
def NotPolling (q : Prog tailSig TailEnd) : Prop := ∀ offset cont, q ≠ .call (.readUntil offset) cont

/-- The history is served first, and only then the rest. -/
theorem serve_among {rest q : Prog tailSig TailEnd} {history : List String} {s s' : LogFile}
    {calls : List TailCall} (h : TailAmong (LogTailer.serve rest history) s calls q s') :
    (yielded calls <+: history ∧ NotPolling q) ∨ ∃ s₁ calls', s <+: s₁ ∧
      TailAmong rest s₁ calls' q s' ∧ yielded calls = history ++ yielded calls' := by
  induction history generalizing s calls with
  | nil => exact .inr ⟨s, calls, List.prefix_refl s, h, rfl⟩
  | cons line history ih =>
    cases h with
    | refl => exact .inl ⟨List.nil_prefix, nofun⟩
    | @call _ _ _ _ s₁ _ _ _ calls moved answered h =>
      cases answered
      rcases ih h with ⟨hserved, hpoll⟩ | ⟨s₂, calls', hmoved, hrest, hyielded⟩
      · exact .inl ⟨(List.prefix_cons_inj line).mpr hserved, hpoll⟩
      · exact .inr ⟨s₂, calls', moved.trans hmoved, hrest, congrArg (line :: ·) hyielded⟩

/-- The stream yields the history, and then the lines after those measured. -/
theorem stream_among {path : String} {history : List String} {polls : Nat}
    {measured s s' : LogFile} {calls : List TailCall} {q : Prog tailSig TailEnd}
    (h : TailAmong (LogTailer.stream notUtf8 path history measured.bytes.length polls) s calls q s')
    (hmeasured : measured <+: s) :
    (yielded calls <+: history ∧ NotPolling q) ∨ ∃ file, measured <+: file ∧ file <+: s' ∧
      yielded calls = history ++ (file.drop measured.length).map LogLine.text ∧ Next notUtf8 file s' q := by
  rcases serve_among h with hserved | ⟨s₁, calls₁, hmoved, hrest, hyielded⟩
  · exact .inl hserved
  rw [hyielded]
  cases hrest with
  | refl => exact .inl ⟨by simp [yielded], nofun⟩
  | @call _ _ _ _ s₂ _ _ _ calls₂ moved₂ answered hrest =>
  cases answered
  cases hrest with
  | refl => exact .inl ⟨by simp [yielded], nofun⟩
  | @call _ _ _ _ s₃ _ _ _ calls₃ moved₃ answered hrest =>
  cases answered
  obtain ⟨file, hfile, hfile', hfollowed, hnext⟩ :=
    follow_among hrest (((hmeasured.trans hmoved).trans moved₂).trans moved₃)
  exact .inr ⟨file, hfile, hfile', congrArg (history ++ ·) hfollowed, hnext⟩

/-- What a stream asks for: neither the whole file nor its length. -/
def StreamOp (op : TailOp) : Prop := op ≠ .readToEnd ∧ ∀ path, op ≠ .metadata path

theorem fail_every (e : String) : (LogTailer.fail e).Every StreamOp :=
  ⟨⟨nofun, nofun⟩, fun _ => trivial⟩

theorem follow_every (polls offset : Nat) : (LogTailer.follow notUtf8 polls offset).Every StreamOp := by
  induction polls generalizing offset with
  | zero => exact trivial
  | succ polls ih =>
    refine ⟨⟨nofun, nofun⟩, fun found => ?_⟩
    match found with
    | .error e => exact fail_every e
    | .ok bytes =>
      dsimp only
      cases readText notUtf8 bytes with
      | error e => exact fail_every e
      | ok buf =>
        dsimp only
        generalize trimLine buf = line
        split
        · exact ⟨⟨nofun, nofun⟩, fun _ => ih _⟩
        · split
          · exact ih _
          · exact ⟨⟨nofun, nofun⟩, fun _ => ih _⟩

theorem stream_every (path : String) (history : List String) (byteOffset polls : Nat) :
    (LogTailer.stream notUtf8 path history byteOffset polls).Every StreamOp := by
  unfold LogTailer.stream
  induction history with
  | cons line history ih => exact ⟨⟨nofun, nofun⟩, fun _ => ih⟩
  | nil =>
    refine ⟨⟨nofun, nofun⟩, fun opened => ?_⟩
    match opened with
    | .error e => exact fail_every e
    | .ok () =>
      refine ⟨⟨nofun, nofun⟩, fun sought => ?_⟩
      match sought with
      | .error e => exact fail_every e
      | .ok () => exact follow_every polls byteOffset

/-- The last `n` lines. -/
def lastLines (n : Nat) (file : LogFile) : LogFile := file.drop (file.length - n)

/-- A tailer that has read its history and taken the length of the file is at
its stream: of the lines it read, and from the length it took. -/
theorem tail_among {path : String} {tail : Option UInt64} {polls : Nat} {s s' read : LogFile}
    {calls : List TailCall} {q : Prog tailSig TailEnd} {length : Nat}
    (h : TailAmong (LogTailer.tail notUtf8 path tail polls) s calls q s')
    (hread : ⟨.readToEnd, .ok read.bytes⟩ ∈ calls) (hlength : ⟨.metadata path, .ok length⟩ ∈ calls) :
    ∃ (measured : LogFile) (calls' : List TailCall), read <+: measured ∧
      length = measured.bytes.length ∧
      TailAmong (LogTailer.stream notUtf8 path ((lastLines (LogTailer.historyLength tail) read).map LogLine.text)
        measured.bytes.length polls) measured calls' q s' ∧ yielded calls = yielded calls' := by
  unfold LogTailer.tail LogTailer.readAllInner at h
  cases h with
  | refl => cases hread
  | call _ answered h =>
  cases answered
  cases h with
  | refl => cases List.mem_singleton.mp hread
  | call _ answered h =>
  cases answered
  cases h with
  | refl => simp at hread
  | @call _ _ _ _ s₁ _ _ _ _ _ answered h =>
  cases answered
  simp only [LogFile.readLines_bytes, LogTailer.afterHistory, List.length_map,
    ← List.map_drop] at h
  cases h with
  | refl => simp at hlength
  | @call _ _ _ _ measured _ _ _ calls₂ hgrown answered h =>
  cases answered
  -- the stream asks for neither, so these are the answers that the two calls got
  have hnone := (h.path.every (stream_every ..)).1
  have hsame : read = s₁ := by
    simp only [List.mem_cons, Sigma.mk.injEq, reduceCtorEq, false_and, false_or] at hread
    rcases hread with ⟨-, heq⟩ | hread
    · exact LogFile.bytes_injective (Except.ok.inj (eq_of_heq heq))
    · exact absurd rfl (hnone _ hread).1
  have hlen : length = (LogFile.bytes measured).length := by
    simp only [List.mem_cons, Sigma.mk.injEq, reduceCtorEq, false_and, false_or] at hlength
    rcases hlength with ⟨-, heq⟩ | hlength
    · exact Except.ok.inj (eq_of_heq heq)
    · exact absurd rfl ((hnone _ hlength).2 path)
  subst hsame
  exact ⟨measured, calls₂, hgrown, hlen, h, rfl⟩

/-! ## Runs -/

section Run

variable {path : String} {file₀ read : LogFile} {l : History tailSig LogFile TailRequest}
  {p : Pool tailSig LogFile TailRequest TailEnd} {k : Nat} {req : TailRequest}
  {q : Prog tailSig TailEnd} {length : Nat}

/-- What the stream of a tailer should have yielded when the file is `file`: the
last lines of those read as history, and all that came after those. -/
def expected (req : TailRequest) (read file : LogFile) : List String :=
  (lastLines (LogTailer.historyLength req.tail) read ++ file.drop read.length).map LogLine.text

/-- Where a tailer stands in a run. -/
theorem Run.tailer (hrun : Run (tailing notUtf8 path LogFile.bytes Grows) (.idle file₀) l p)
    (hk : p.thread k = some (req, q)) (hread : ⟨.readToEnd, .ok read.bytes⟩ ∈ l.calls k)
    (hlength : ⟨.metadata path, .ok length⟩ ∈ l.calls k) :
    ∃ measured : LogFile, read <+: measured ∧ length = measured.bytes.length ∧
      ((yielded (l.calls k) <+: (lastLines (LogTailer.historyLength req.tail) read).map LogLine.text ∧
          NotPolling q) ∨
        ∃ file, measured <+: file ∧ file <+: p.state ∧ Next notUtf8 file p.state q ∧
          yielded (l.calls k) = (lastLines (LogTailer.historyLength req.tail) read ++
            file.drop measured.length).map LogLine.text) := by
  have hanswer : ∀ (s : LogFile) op ans s', TailAnswered LogFile.bytes s op ans s' → Grows s s' := by
    intro s op ans s' answered
    cases answered <;> exact List.prefix_refl _
  obtain ⟨-, hamong⟩ := hrun.among (R := Grows) List.prefix_refl (fun _ _ _ => List.IsPrefix.trans)
    (fun _ _ h => h) hanswer hk
  obtain ⟨measured, calls', hgrown, hlen, hstream, hyielded⟩ := tail_among hamong hread hlength
  refine ⟨measured, hgrown, hlen, ?_⟩
  rw [hyielded]
  rcases stream_among hstream (List.prefix_refl _) with hserved | ⟨file, hfile, hfile', hfollowed, hnext⟩
  · exact .inl hserved
  · refine .inr ⟨file, hfile, hfile', hnext, ?_⟩
    rw [hfollowed, List.map_append]

/-- A poll is one of the loop, from the end of what has been followed. -/
theorem Next.at_poll {file file' : LogFile} {offset : Nat}
    {cont : Except String (List UInt8) → Prog tailSig TailEnd}
    (h : Next notUtf8 file file' (.call (.readUntil offset) cont)) : ∃ polls,
      (.call (.readUntil offset) cont : Prog tailSig TailEnd) =
        LogTailer.follow notUtf8 (polls + 1) file.bytes.length := by
  generalize hq : (.call (.readUntil offset) cont : Prog tailSig TailEnd) = q at h
  cases h with
  | poll polls =>
    cases polls with
    | zero => cases hq
    | succ polls => exact ⟨polls, rfl⟩
  | pause => cases hq
  | line => cases hq

theorem Next.offset {file file' : LogFile} {offset : Nat}
    {cont : Except String (List UInt8) → Prog tailSig TailEnd}
    (h : Next notUtf8 file file' (.call (.readUntil offset) cont)) : offset = file.bytes.length := by
  obtain ⟨polls, hq⟩ := h.at_poll
  cases hq
  rfl

/-- A poll that finds a line is followed by yielding it. -/
theorem Next.found {file file' more : LogFile} {line : LogLine} {offset : Nat}
    {cont : Except String (List UInt8) → Prog tailSig TailEnd}
    (h : Next notUtf8 file file' (.call (.readUntil offset) cont)) (hfile : file' = file ++ line :: more) :
    TailAnswered LogFile.bytes file' (.readUntil offset) (.ok line.bytes) file' ∧
      ∃ next, cont (.ok line.bytes) = .call (.yield (.ok line.text)) next := by
  obtain ⟨polls, hq⟩ := h.at_poll
  cases hq
  refine ⟨?_, fun _ => LogTailer.follow notUtf8 polls (file.bytes.length + line.bytes.length), ?_⟩
  · have hanswered : TailAnswered LogFile.bytes file' (.readUntil file.bytes.length) _ file' :=
      .readUntil _
    rw [readUntil_answer ⟨_, hfile.symm⟩] at hanswered
    subst hfile
    rwa [List.drop_left] at hanswered
  · simp only [line.readText_bytes, if_neg line.bytes_ne_nil, line.trimLine_text,
      if_neg line.nonempty]
    rw [line.trimLine_text]

/-- What the stream has yielded of a file that goes on is the beginning of what
it should yield of it. -/
theorem prefix_expected {file file' : LogFile} (h : file <+: file') :
    (lastLines (LogTailer.historyLength req.tail) read ++ file.drop read.length).map LogLine.text <+:
      expected req read file' := by
  have hprefix : file.drop read.length <+: file'.drop read.length := h.drop read.length
  exact ((List.prefix_append_right_inj _).mpr hprefix).map _

/-- Of a file that has been followed to its end, all has been yielded exactly
when the length was that of what was read. -/
theorem eq_expected_iff {measured file : LogFile} (hgrown : read <+: measured)
    (hfile : measured <+: file) :
    (lastLines (LogTailer.historyLength req.tail) read ++ file.drop measured.length).map LogLine.text =
        expected req read file ↔ measured.bytes.length = read.bytes.length := by
  constructor
  · intro hall
    have hread_le := hgrown.length_le
    have hmeasured_le := hfile.length_le
    have hlengths := congrArg List.length hall
    simp only [expected, List.length_map, List.length_append, List.length_drop] at hlengths
    have hequal : read.length = measured.length := by omega
    rw [hgrown.eq_of_length hequal]
  · intro hlen
    rw [LogFile.eq_of_length hgrown hlen]
    rfl

/-- What the stream has yielded is what it should have yielded so far, when the
length taken was that of the lines read. When the next poll finds nothing, it
has yielded all of it, and only if that was the length; and a poll that finds
something is followed by yielding it. -/
theorem tail_loses_nothing_iff (hrun : Run (tailing notUtf8 path LogFile.bytes Grows) (.idle file₀) l p)
    (hk : p.thread k = some (req, q)) (hread : ⟨.readToEnd, .ok read.bytes⟩ ∈ l.calls k)
    (hlength : ⟨.metadata path, .ok length⟩ ∈ l.calls k) :
    (length = read.bytes.length → yielded (l.calls k) <+: expected req read p.state) ∧
    ∀ offset cont, q = .call (.readUntil offset) cont →
      (p.state.bytes.drop offset = [] →
        (yielded (l.calls k) = expected req read p.state ↔ length = read.bytes.length)) ∧
      (p.state.bytes.drop offset ≠ [] → ∃ bytes line next,
        TailAnswered LogFile.bytes p.state (.readUntil offset) (.ok bytes) p.state ∧
        cont (.ok bytes) = .call (.yield (.ok line)) next ∧
        (length = read.bytes.length →
          yielded (l.calls k) ++ [line] <+: expected req read p.state)) := by
  obtain ⟨measured, hgrown, rfl, hplace⟩ := Run.tailer hrun hk hread hlength
  rcases hplace with ⟨hserved, hpoll⟩ | ⟨file, hfile, hfile', hnext, hyielded⟩
  · refine ⟨fun _ => ?_, fun offset cont hq => absurd hq (hpoll offset cont)⟩
    unfold expected
    rw [List.map_append]
    exact hserved.trans (List.prefix_append _ _)
  · rw [hyielded]
    refine ⟨fun hlen => ?_, fun offset cont hq => ?_⟩
    · rw [LogFile.eq_of_length hgrown hlen]
      exact prefix_expected hfile'
    · subst hq
      have hoffset := hnext.offset
      subst hoffset
      obtain ⟨more, hmore⟩ := hfile'
      rw [LogFile.drop_bytes ⟨more, hmore⟩, ← hmore, List.drop_left, hmore]
      refine ⟨fun hnone => ?_, fun hsome => ?_⟩
      · have hnil : more = [] := LogFile.bytes_injective (hnone : _ = LogFile.bytes [])
        rw [hnil, List.append_nil] at hmore
        rw [← hmore]
        exact eq_expected_iff hgrown hfile
      · cases more with
        | nil => exact absurd rfl hsome
        | cons line more =>
          obtain ⟨hanswered, next, hcont⟩ := hnext.found hmore.symm
          refine ⟨_, _, next, hanswered, hcont, fun hlen => ?_⟩
          rw [LogFile.eq_of_length hgrown hlen] at hfile ⊢
          have hline : file ++ [line] <+: p.state := ⟨more, by rw [← hmore]; simp⟩
          have hprefix : _ <+: expected req read p.state := prefix_expected hline
          rwa [List.drop_append_of_le_length hfile.length_le, ← List.append_assoc,
            List.map_append] at hprefix

end Run

/-! ### An empty file -/

section Empty

/-- What the readers say of bytes that are no text. -/
def invalidData : String := "stream did not contain valid UTF-8"

private def up : LogLine := ⟨"up", by decide, by decide, by decide⟩

def fromEmpty : TailRequest := ⟨none, 1⟩

/-- A tailer of an empty file that some lines are appended to before its length
is taken, and some after; it is about to poll. -/
private theorem tailer_of_empty (path : String) (early late : LogFile) :
    ∃ (l : History tailSig LogFile TailRequest) (p : Pool tailSig LogFile TailRequest TailEnd)
      (cont : Except String (List UInt8) → Prog tailSig TailEnd),
      Run (tailing invalidData path LogFile.bytes Grows) (.idle []) l p ∧ p.state = early ++ late ∧
        p.thread 0 = some (fromEmpty, .call (.readUntil early.bytes.length) cont) ∧
        l.calls 0 = [⟨.exists path, true⟩, ⟨.open path, .ok ()⟩, ⟨.readToEnd, .ok []⟩,
          ⟨.metadata path, .ok early.bytes.length⟩, ⟨.open path, .ok ()⟩,
          ⟨.seek early.bytes.length, .ok ()⟩] := by
  have harrive := (Run.start (tailing invalidData path LogFile.bytes Grows) (.idle [])).arrive 0 fromEmpty rfl trivial
  have hexists := harrive.call 0 (Pool.set_thread_self ..) (.exists path)
  have hopen := hexists.call 0 (Pool.set_thread_self ..) (.open path)
  have hread := hopen.call 0 (Pool.set_thread_self ..) .readToEnd
  have hearly := Run.cons hread (.env (show Grows _ early from List.nil_prefix))
  have hlength := hearly.call 0 (Pool.set_thread_self ..) (.metadata path)
  have hreopen := hlength.call 0 (Pool.set_thread_self ..) (.open path)
  have hseek := hreopen.call 0 (Pool.set_thread_self ..) (.seek _)
  have hlate := Run.cons hseek (.env (show Grows _ (early ++ late) from List.prefix_append _ _))
  exact ⟨_, _, _, hlate, rfl, Pool.set_thread_self .., rfl⟩

/-- A line that is appended once the tailer stands at its offset is the next
that it yields. -/
theorem tail_loses_nothing_up : ∃ (l : History tailSig LogFile TailRequest)
    (p : Pool tailSig LogFile TailRequest TailEnd) (offset : Nat)
    (cont : Except String (List UInt8) → Prog tailSig TailEnd) (bytes : List UInt8)
    (next : Unit → Prog tailSig TailEnd),
    Run (tailing invalidData "app.log" LogFile.bytes Grows) (.idle []) l p ∧
      p.thread 0 = some (fromEmpty, .call (.readUntil offset) cont) ∧
      expected fromEmpty [] p.state = ["up"] ∧ yielded (l.calls 0) = [] ∧
      TailAnswered LogFile.bytes p.state (.readUntil offset) (.ok bytes) p.state ∧
      cont (.ok bytes) = .call (.yield (.ok "up")) next := by
  obtain ⟨l, p, cont, hrun, hstate, hthread, hcalls⟩ := tailer_of_empty "app.log" [] [up]
  have hread : (⟨.readToEnd, .ok (LogFile.bytes [])⟩ : TailCall) ∈ l.calls 0 := by
    rw [hcalls]
    exact .tail _ (.tail _ (.head _))
  have hlength : (⟨.metadata "app.log", .ok (LogFile.bytes []).length⟩ : TailCall) ∈ l.calls 0 := by
    rw [hcalls]
    exact .tail _ (.tail _ (.tail _ (.head _)))
  have hexpected : expected fromEmpty [] p.state = ["up"] := by
    rw [hstate]
    rfl
  have hyielded : yielded (l.calls 0) = [] := by
    rw [hcalls]
    rfl
  have hsome : p.state.bytes.drop (LogFile.bytes []).length ≠ [] := by
    rw [hstate]
    exact up.bytes_ne_nil ∘ (List.append_eq_nil_iff.mp · |>.1)
  obtain ⟨bytes, line, next, hanswered, hcont, hprefix⟩ :=
    ((tail_loses_nothing_iff hrun hthread hread hlength).2 _ _ rfl).2 hsome
  have hline : line = "up" := by
    have hline := hprefix rfl
    rw [hyielded, hexpected] at hline
    exact (List.cons_prefix_cons.mp hline).1
  subst hline
  exact ⟨l, p, _, cont, bytes, next, hrun, hthread, hexpected, hyielded, hanswered, hcont⟩

/-- A line that is appended between the reading of the history and the taking
of the length is skipped: nothing is left to read, and it was not yielded. -/
theorem tail_loses_line : ∃ (l : History tailSig LogFile TailRequest)
    (p : Pool tailSig LogFile TailRequest TailEnd) (offset : Nat)
    (cont : Except String (List UInt8) → Prog tailSig TailEnd),
    Run (tailing invalidData "app.log" LogFile.bytes Grows) (.idle []) l p ∧
      p.thread 0 = some (fromEmpty, .call (.readUntil offset) cont) ∧
      ⟨.readToEnd, .ok (LogFile.bytes [])⟩ ∈ l.calls 0 ∧
      p.state.bytes.drop offset = [] ∧ expected fromEmpty [] p.state = ["up"] ∧
      yielded (l.calls 0) = [] := by
  obtain ⟨l, p, cont, hrun, hstate, hthread, hcalls⟩ := tailer_of_empty "app.log" [up] []
  refine ⟨l, p, _, cont, hrun, hthread, ?_, ?_, ?_, ?_⟩
  · rw [hcalls]
    exact .tail _ (.tail _ (.head _))
  · rw [hstate, List.append_nil, List.drop_length]
  · rw [hstate]
    rfl
  · rw [hcalls]
    rfl

end Empty

end Nexad.Runtime
