import Nexad.Runtime.Tasks

/-!
# Whose state is read off the task list

`ctr tasks list` prints a table: a header, and a row for each task with its id,
its pid and its status. The runtime takes the first line in which the id
occurs, and looks for the words of the states anywhere in it. So what it reports
is the state of another task when that one's id contains the id (`web-10` for
`web-1`), or a state that is only part of a name. `task_state_iff` says for
which tables and ids it is the state of the id's own row.
-/

namespace Nexad.Runtime

open Interleave

/-! ## The table -/

/-- An id of a container. -/
structure TaskId where
  text : String
  nonempty : text.toList ≠ []
  unbroken : ∀ c ∈ text.toList, Text.isWhiteSpace c = false

/-- The statuses of tasks. -/
inductive TaskStatus where
  | unknown
  | created
  | running
  | stopped
  | paused
  | pausing
  deriving DecidableEq, Repr

namespace TaskStatus

/-- How a status is printed. -/
def text : TaskStatus → List Char
  | unknown => "UNKNOWN".toList
  | created => "CREATED".toList
  | running => "RUNNING".toList
  | stopped => "STOPPED".toList
  | paused => "PAUSED".toList
  | pausing => "PAUSING".toList

/-- The state of a container whose task has this status. -/
def state : TaskStatus → ContainerState
  | created => .created
  | running => .running
  | stopped => .exited
  | paused => .paused
  | unknown | pausing => .unknown

end TaskStatus

/-- A task. -/
structure TaskRow where
  id : TaskId
  pid : Nat
  status : TaskStatus

/-- How many more blanks than one follow the cells of a line, and how many the last. -/
structure Gaps where
  first : Nat
  second : Nat
  last : Nat
  deriving DecidableEq, Repr

/-- A line of three cells. -/
def Gaps.line (gaps : Gaps) (a b c : List Char) : List Char :=
  a ++ ' ' :: (List.replicate gaps.first ' ' ++ (b ++ ' ' :: (List.replicate gaps.second ' ' ++
    (c ++ List.replicate gaps.last ' '))))

/-- A row as it is printed. -/
def TaskRow.line (row : TaskRow) (gaps : Gaps) : List Char :=
  gaps.line row.id.text.toList (Nat.toDigits 10 row.pid) row.status.text

/-- The tasks in the order in which they are listed, with the blanks between
their cells. -/
structure TaskTable where
  header : Gaps
  rows : List (TaskRow × Gaps)
  distinct : (rows.map fun row => row.1.id.text).Nodup

namespace TaskTable

/-- The lines of the output of `ctr tasks list`. -/
def lines (table : TaskTable) : List (List Char) :=
  table.header.line "TASK".toList "PID".toList "STATUS".toList ::
    table.rows.map fun row => row.1.line row.2

/-- The output of `ctr tasks list`. -/
def text (table : TaskTable) : String := String.ofList (Lines.unlines table.lines)

/-- The task of an id. -/
def task (table : TaskTable) (id : TaskId) : Option TaskRow :=
  (table.rows.map Prod.fst).find? fun row => row.id.text = id.text

/-- The state of a container, created if it has no task. -/
def stateOf (table : TaskTable) (id : TaskId) : ContainerState :=
  (table.task id).elim .created fun row => row.status.state

/-- The container's task runs. -/
def Runs (table : TaskTable) (id : TaskId) : Prop :=
  ∃ row, table.task id = some row ∧ row.status = .running

end TaskTable

/-! ## What the lines show -/

/-- The word of a state is a row's status, or occurs in its id. -/
def TaskRow.shows (row : TaskRow) (status : TaskStatus) : Bool :=
  Text.contains status.text row.id.text.toList || row.status == status

/-- The state that is read off a row. -/
def TaskRow.shown (row : TaskRow) : ContainerState :=
  if row.shows .running then .running
  else if row.shows .stopped then .exited
  else if row.shows .paused then .paused
  else if row.shows .created then .created
  else .unknown

/-- An id occurs in one of the cells. -/
def TaskId.within (id : TaskId) (a b c : List Char) : Bool :=
  Text.contains id.text.toList a || Text.contains id.text.toList b || Text.contains id.text.toList c

/-- An id occurs in a row: in its id, its pid or its status. -/
def TaskRow.mentions (row : TaskRow) (id : TaskId) : Bool :=
  id.within row.id.text.toList (Nat.toDigits 10 row.pid) row.status.text

/-- An id occurs in the header. -/
def TaskId.inHeader (id : TaskId) : Bool := id.within "TASK".toList "PID".toList "STATUS".toList

/-- What has no blank in it does not occur in blanks. -/
theorem contains_replicate {pat : List Char} (hne : pat ≠ []) (hblank : ' ' ∉ pat) (n : Nat) :
    Text.contains pat (List.replicate n ' ') = false := by
  obtain ⟨c, rest, rfl⟩ := List.exists_cons_of_ne_nil hne
  refine Text.contains_eq_false_of_notMem List.mem_cons_self fun hmem => ?_
  rw [(List.mem_replicate.mp hmem).2] at hblank
  exact hblank List.mem_cons_self

/-- What has no blank in it occurs in the cells of a line, or not at all. -/
theorem contains_line {pat : List Char} (hne : pat ≠ []) (hblank : ' ' ∉ pat) (gaps : Gaps)
    (a b c : List Char) : Text.contains pat (gaps.line a b c) =
      (Text.contains pat a || Text.contains pat b || Text.contains pat c) := by
  have hgap : ∀ (n : Nat) (s : List Char),
      Text.contains pat (List.replicate n ' ' ++ s) = Text.contains pat s := by
    intro n s
    induction n with
    | zero => rfl
    | succ n ih =>
      have hnil : Text.contains pat [] = false := contains_replicate hne hblank 0
      rw [List.replicate_succ, List.cons_append, ← List.nil_append (' ' :: _),
        Text.contains_append_cons hblank, hnil, Bool.false_or, ih]
  have hlast : Text.contains pat (c ++ List.replicate gaps.last ' ') = Text.contains pat c := by
    cases gaps.last with
    | zero => rw [List.replicate_zero, List.append_nil]
    | succ n =>
      rw [List.replicate_succ, Text.contains_append_cons hblank, contains_replicate hne hblank,
        Bool.or_false]
  rw [Gaps.line, Text.contains_append_cons hblank, hgap, Text.contains_append_cons hblank, hgap, hlast,
    Bool.or_assoc]

theorem TaskId.blank_notMem (id : TaskId) : ' ' ∉ id.text.toList :=
  fun hmem => absurd (id.unbroken _ hmem) (by decide)

theorem TaskId.contains_line (id : TaskId) (gaps : Gaps) (a b c : List Char) :
    Text.contains id.text.toList (gaps.line a b c) = id.within a b c :=
  Runtime.contains_line id.nonempty id.blank_notMem gaps a b c

/-- A row mentions its own id. -/
theorem TaskRow.mentions_self (row : TaskRow) {id : TaskId} (h : row.id.text = id.text) :
    row.mentions id = true := by
  rw [mentions, TaskId.within, h, Text.contains_self]
  rfl

/-- The word of a status is one word, no number, and no part of another's. -/
theorem TaskStatus.text_spec (status : TaskStatus) : status.text ≠ [] ∧ ' ' ∉ status.text ∧
    (∃ c ∈ status.text, c.isDigit = false) ∧
    ∀ other : TaskStatus, Text.contains status.text other.text = (other == status) := by
  refine ⟨?_, ?_, ?_, fun other => ?_⟩
  · cases status <;> decide
  · cases status <;> decide
  · cases status with
    | created => exact ⟨'C', by decide, by decide⟩
    | unknown => exact ⟨'U', by decide, by decide⟩
    | running => exact ⟨'R', by decide, by decide⟩
    | stopped => exact ⟨'S', by decide, by decide⟩
    | paused => exact ⟨'P', by decide, by decide⟩
    | pausing => exact ⟨'P', by decide, by decide⟩
  · cases status <;> cases other <;> decide

/-- The word of a status occurs in the rows that show it. -/
theorem TaskRow.contains_status (row : TaskRow) (gaps : Gaps) (status : TaskStatus) :
    Text.contains status.text (row.line gaps) = row.shows status := by
  obtain ⟨hne, hblank, ⟨c, hc, hdigit⟩, hother⟩ := status.text_spec
  have hpid : Text.contains status.text (Nat.toDigits 10 row.pid) = false := by
    refine Text.contains_eq_false_of_notMem hc fun hmem => ?_
    have hall := List.all_eq_true.mp (Text.toDigits_all_isDigit row.pid) c hmem
    exact Bool.false_ne_true (hdigit.symm.trans hall)
  rw [TaskRow.line, contains_line hne hblank, hpid, hother, Bool.or_false]
  rfl

theorem TaskRow.lineState_line (row : TaskRow) (gaps : Gaps) :
    ContainerdRuntime.lineState (row.line gaps) = row.shown := by
  have hword := row.contains_status gaps
  have hrunning : Text.contains "RUNNING".toList _ = _ := hword .running
  have hstopped : Text.contains "STOPPED".toList _ = _ := hword .stopped
  have hpaused : Text.contains "PAUSED".toList _ = _ := hword .paused
  have hcreated : Text.contains "CREATED".toList _ = _ := hword .created
  rw [ContainerdRuntime.lineState, hrunning, hstopped, hpaused, hcreated, TaskRow.shown]

/-- No word of a state stands in the header. -/
theorem contains_header (gaps : Gaps) (status : TaskStatus) :
    Text.contains status.text (gaps.line "TASK".toList "PID".toList "STATUS".toList) = false := by
  obtain ⟨hne, hblank, -, -⟩ := status.text_spec
  rw [contains_line hne hblank]
  cases status <;> decide

theorem lineState_header (gaps : Gaps) : ContainerdRuntime.lineState
    (gaps.line "TASK".toList "PID".toList "STATUS".toList) = .unknown := by
  have hword := contains_header gaps
  have hrunning : Text.contains "RUNNING".toList _ = _ := hword .running
  have hstopped : Text.contains "STOPPED".toList _ = _ := hword .stopped
  have hpaused : Text.contains "PAUSED".toList _ = _ := hword .paused
  have hcreated : Text.contains "CREATED".toList _ = _ := hword .created
  rw [ContainerdRuntime.lineState, hrunning, hstopped, hpaused, hcreated]
  rfl

/-! ## What is read off the table -/

namespace TaskTable

variable (table : TaskTable) (id : TaskId)

/-- The lines are read back as they were printed. -/
theorem lines_text : Lines.lines table.text.toList = table.lines := by
  have hbreak : ∀ (gaps : Gaps) (a b c : List Char), (∀ x ∈ a ++ (b ++ c), x ≠ '\n' ∧ x ≠ '\r') →
      '\n' ∉ gaps.line a b c ∧ '\r' ∉ gaps.line a b c := by
    intro gaps a b c h
    have hall : ∀ x ∈ gaps.line a b c, x ≠ '\n' ∧ x ≠ '\r' := by
      intro x hx
      simp only [Gaps.line, List.mem_append, List.mem_cons, List.mem_replicate] at hx h
      have hspace : ' ' ≠ '\n' ∧ ' ' ≠ '\r' := by decide
      rcases hx with hx | rfl | ⟨-, rfl⟩ | hx | rfl | ⟨-, rfl⟩ | hx | ⟨-, rfl⟩
      · exact h x (.inl hx)
      · exact hspace
      · exact hspace
      · exact h x (.inr (.inl hx))
      · exact hspace
      · exact hspace
      · exact h x (.inr (.inr hx))
      · exact hspace
    exact ⟨fun hmem => (hall _ hmem).1 rfl, fun hmem => (hall _ hmem).2 rfl⟩
  have hstatus : ∀ status : TaskStatus, ∀ x ∈ status.text, x ≠ '\n' ∧ x ≠ '\r' := by
    intro status
    cases status <;> exact Text.forall_mem_of_all (by decide)
  rw [text, String.toList_ofList]
  refine Lines.lines_unlines fun line hline => ?_
  rcases List.mem_cons.mp hline with rfl | hline
  · exact hbreak _ _ _ _ (Text.forall_mem_of_all (by decide))
  · obtain ⟨⟨row, gaps⟩, -, rfl⟩ := List.mem_map.mp hline
    refine hbreak _ _ _ _ fun x hx => ?_
    rcases List.mem_append.mp hx with hx | hx
    · have hsolid := row.id.unbroken x hx
      constructor
      · rintro rfl
        exact absurd hsolid (by decide)
      · rintro rfl
        exact absurd hsolid (by decide)
    · rcases List.mem_append.mp hx with hx | hx
      · have hdigit := List.all_eq_true.mp (Text.toDigits_all_isDigit row.pid) x hx
        constructor
        · rintro rfl
          exact absurd hdigit (by decide)
        · rintro rfl
          exact absurd hdigit (by decide)
      · exact hstatus row.status x hx

/-- The first row that mentions the id. -/
def firstMention : Option TaskRow := (table.rows.map Prod.fst).find? (·.mentions id)

/-- What is reported is what the first line shows that mentions the id. -/
theorem taskState_text : ContainerdRuntime.taskState id.text table.text =
    if id.inHeader then .unknown else (table.firstMention id).elim .created TaskRow.shown := by
  rw [ContainerdRuntime.taskState, lines_text, lines, List.find?_cons, id.contains_line, TaskId.inHeader]
  cases id.within "TASK".toList "PID".toList "STATUS".toList with
  | true => exact lineState_header _
  | false =>
    have hfind : ∀ rows : List (TaskRow × Gaps),
        (((rows.map fun row => row.1.line row.2).find? (Text.contains id.text.toList)).map
          ContainerdRuntime.lineState).getD .created =
        ((rows.map Prod.fst).find? (·.mentions id)).elim .created TaskRow.shown := by
      intro rows
      induction rows with
      | nil => rfl
      | cons row rows ih =>
        have hmentions : Text.contains id.text.toList (row.1.line row.2) = row.1.mentions id :=
          id.contains_line ..
        rw [List.map_cons, List.map_cons, List.find?_cons, List.find?_cons, hmentions]
        cases row.1.mentions id with
        | true => exact row.1.lineState_line row.2
        | false => exact ih
    exact hfind table.rows

/-- The wait goes on while some row that mentions the id shows that it runs. -/
theorem stillRunning_text : ContainerdRuntime.stillRunning id.text table.text = true ↔
    ∃ row ∈ table.rows.map Prod.fst, row.mentions id = true ∧ row.shows .running = true := by
  have hword : "RUNNING".toList = TaskStatus.text .running := rfl
  rw [ContainerdRuntime.stillRunning, lines_text, lines, List.any_cons, hword, contains_header,
    Bool.and_false, Bool.false_or, List.any_map, List.any_eq_true]
  constructor
  · rintro ⟨⟨row, gaps⟩, hrow, hboth⟩
    rw [Function.comp_apply, Bool.and_eq_true, row.contains_status] at hboth
    exact ⟨row, List.mem_map.mpr ⟨_, hrow, rfl⟩, (id.contains_line ..).symm.trans hboth.1, hboth.2⟩
  · rintro ⟨row, hrow, hmentions, hshows⟩
    obtain ⟨listed, hlisted, rfl⟩ := List.mem_map.mp hrow
    refine ⟨listed, hlisted, ?_⟩
    rw [Function.comp_apply, Bool.and_eq_true, listed.1.contains_status]
    exact ⟨(id.contains_line ..).trans hmentions, hshows⟩

/-! ## Its own row -/

variable {table id}

theorem task_eq_some {row : TaskRow} (h : table.task id = some row) :
    row ∈ table.rows.map Prod.fst ∧ row.id.text = id.text := by
  have hid := List.find?_some (p := fun row : TaskRow => decide (row.id.text = id.text)) h
  exact ⟨List.mem_of_find?_eq_some h, of_decide_eq_true hid⟩

/-- An id that no row mentions is of no task. -/
theorem stateOf_of_firstMention (h : table.firstMention id = none) : table.stateOf id = .created := by
  cases htask : table.task id with
  | none => rw [stateOf, htask, Option.elim_none]
  | some row =>
    obtain ⟨hrow, hid⟩ := task_eq_some htask
    exact absurd (row.mentions_self hid) (List.find?_eq_none.mp h row hrow)

theorem Runs.mentioned (h : table.Runs id) : ∃ row ∈ table.rows.map Prod.fst,
    row.mentions id = true ∧ row.shows .running = true := by
  obtain ⟨row, htask, hstatus⟩ := h
  obtain ⟨hrow, hid⟩ := task_eq_some htask
  refine ⟨row, hrow, row.mentions_self hid, ?_⟩
  rw [TaskRow.shows, hstatus, Bool.or_eq_true]
  exact .inr rfl

end TaskTable

/-! ## What the runtime reports -/

section Reports

variable (self : ContainerdRuntime) (table : TaskTable) (id : TaskId)

/-- Whatever the container's image, an inspection that is answered with the
table reports the state of the id's own row. -/
def InspectsState : Prop := ∀ (info tasks : CtrOutput) result, tasks.stdout = table.text →
  (self.inspectContainer id.text).Trace
    [⟨.output ["--namespace", self.nspace, "containers", "info", id.text], .ok info⟩,
      ⟨.output ["--namespace", self.nspace, "tasks", "list"], .ok tasks⟩] result →
  ∃ found, result = .ok found ∧ found.state = table.stateOf id

/-- A wait that is answered with the table goes on if the id's own row runs, and
is over if not. -/
def WaitsFor : Prop := ∀ (rounds : Nat) (check : CtrOutput) (rest : Prog ctrSig (Except NexaError Unit)),
  check.stdout = table.text →
  (self.waitLoop id.text (rounds + 1)).Path
    [⟨.output ["--namespace", self.nspace, "tasks", "list"], .ok check⟩] rest →
  (table.Runs id → rest = self.waitLoop id.text rounds) ∧ (¬ table.Runs id → rest = .ret (.ok ()))

/-- The first line that mentions the id shows the state of its own row. -/
def FirstShows : Prop :=
  (id.inHeader = true → table.stateOf id = .unknown) ∧
    (id.inHeader = false → ∀ row, table.firstMention id = some row → row.shown = table.stateOf id)

/-- The id's own row runs, or no row that mentions the id shows that it does. -/
def RunningShows : Prop := table.Runs id ∨
  ∀ row ∈ table.rows.map Prod.fst, row.mentions id = true → row.shows .running = false

variable {self table id}

theorem inspectsState_iff : InspectsState self table id ↔
    ContainerdRuntime.taskState id.text table.text = table.stateOf id := by
  constructor
  · intro h
    have htrace : (self.inspectContainer id.text).Trace
        [⟨.output ["--namespace", self.nspace, "containers", "info", id.text], .ok ⟨true, "", ""⟩⟩,
          ⟨.output ["--namespace", self.nspace, "tasks", "list"], .ok ⟨true, table.text, ""⟩⟩]
        (.ok ⟨id.text, id.text, ContainerdRuntime.imageOf "",
          ContainerdRuntime.taskState id.text table.text⟩) := .call _ (.call _ (.ret _))
    obtain ⟨found, hfound, hstate⟩ := h _ _ _ rfl htrace
    cases hfound
    dsimp only at hstate
    exact hstate
  · intro h info tasks result htasks htrace
    cases htrace with
    | call _ hrest =>
      simp only at hrest
      split at hrest
      · cases hrest with
        | call _ hrest =>
          cases hrest
          refine ⟨_, rfl, ?_⟩
          dsimp only
          rw [htasks]
          exact h
      · cases hrest

/-- What a wait does after a list. -/
theorem waitLoop_path {rounds : Nat} {check : CtrOutput} {rest : Prog ctrSig (Except NexaError Unit)}
    (h : (self.waitLoop id.text (rounds + 1)).Path
      [⟨.output ["--namespace", self.nspace, "tasks", "list"], .ok check⟩] rest) :
    rest = if ContainerdRuntime.stillRunning id.text check.stdout then self.waitLoop id.text rounds
      else .ret (.ok ()) := by
  have hnil : ∀ {p q : Prog ctrSig (Except NexaError Unit)}, p.Path [] q → q = p := by
    intro p q hpath
    cases hpath
    rfl
  cases h with
  | call _ hrest => exact hnil hrest

theorem waitLoop_ne_ret (rounds : Nat) (result : Except NexaError Unit) :
    self.waitLoop id.text rounds ≠ .ret result := by
  cases rounds with
  | zero => exact fun heq => by cases heq
  | succ rounds => exact fun heq => by cases heq

theorem waitsFor_iff : WaitsFor self table id ↔
    (ContainerdRuntime.stillRunning id.text table.text = true ↔ table.Runs id) := by
  constructor
  · intro h
    have hpath : (self.waitLoop id.text 1).Path
        [⟨.output ["--namespace", self.nspace, "tasks", "list"], .ok ⟨true, table.text, ""⟩⟩]
        (if ContainerdRuntime.stillRunning id.text table.text then self.waitLoop id.text 0
          else .ret (.ok ())) := .call _ (.refl _)
    obtain ⟨hgoes, hends⟩ := h 0 _ _ rfl hpath
    constructor
    · intro hstill
      by_contra hruns
      have hrest := hends hruns
      rw [if_pos hstill] at hrest
      exact waitLoop_ne_ret 0 _ hrest
    · intro hruns
      by_contra hstill
      have hrest := hgoes hruns
      rw [if_neg hstill] at hrest
      exact waitLoop_ne_ret 0 _ hrest.symm
  · intro h rounds check rest hcheck hpath
    have hrest := waitLoop_path hpath
    rw [hcheck] at hrest
    refine ⟨fun hruns => ?_, fun hruns => ?_⟩
    · rw [hrest, if_pos (h.mpr hruns)]
    · rw [hrest, if_neg fun hstill => hruns (h.mp hstill)]

theorem firstShows_of_header (h : id.inHeader = true) :
    FirstShows table id ↔ table.stateOf id = .unknown := by
  refine ⟨fun hshows => hshows.1 h, fun hstate => ⟨fun _ => hstate, fun hno => ?_⟩⟩
  rw [h] at hno
  cases hno

theorem firstShows_of_rows (h : id.inHeader = false) : FirstShows table id ↔
    ∀ row, table.firstMention id = some row → row.shown = table.stateOf id := by
  refine ⟨fun hshows => hshows.2 h, fun hrows => ⟨fun hyes => ?_, fun _ => hrows⟩⟩
  rw [h] at hyes
  cases hyes

/-- What an inspection reports is the state of the id's own row exactly when the
first line that mentions the id shows it. -/
theorem taskState_eq_iff : ContainerdRuntime.taskState id.text table.text = table.stateOf id ↔
    FirstShows table id := by
  rw [table.taskState_text]
  cases hheader : id.inHeader with
  | true =>
    rw [if_pos rfl, firstShows_of_header hheader]
    exact eq_comm
  | false =>
    rw [if_neg Bool.false_ne_true, firstShows_of_rows hheader]
    cases hfirst : table.firstMention id with
    | none =>
      refine iff_of_true (TaskTable.stateOf_of_firstMention hfirst).symm fun row hrow => ?_
      cases hrow
    | some first =>
      refine ⟨fun h row hrow => ?_, fun h => h first rfl⟩
      cases hrow
      exact h

/-- The wait looks at the id's own row exactly when that runs, or no row that
mentions the id does. -/
theorem stillRunning_iff : (ContainerdRuntime.stillRunning id.text table.text = true ↔
    table.Runs id) ↔ RunningShows table id := by
  rw [table.stillRunning_text]
  constructor
  · intro h
    by_cases hruns : table.Runs id
    · exact .inl hruns
    · refine .inr fun row hrow hmentions => ?_
      rw [Bool.eq_false_iff]
      exact fun hshows => hruns (h.mp ⟨row, hrow, hmentions, hshows⟩)
  · rintro (hruns | hnone)
    · exact iff_of_true hruns.mentioned hruns
    · constructor
      · rintro ⟨row, hrow, hmentions, hshows⟩
        exact absurd (hnone row hrow hmentions) (by rw [hshows]; exact Bool.true_eq_false_eq_False)
      · exact TaskTable.Runs.mentioned

/-- What is reported of a container is the state of its own task exactly when
the first line that mentions its id shows that state, and the wait for it looks
at its own task exactly when that runs, or nothing that mentions the id does. -/
theorem task_state_iff (self : ContainerdRuntime) (table : TaskTable) (id : TaskId) :
    (InspectsState self table id ↔ FirstShows table id) ∧
    (WaitsFor self table id ↔ RunningShows table id) := by
  exact ⟨inspectsState_iff.trans taskState_eq_iff, waitsFor_iff.trans stillRunning_iff⟩

end Reports

section Web

/-- The second replica. -/
def webOne : TaskId where
  text := "nexa-shop-web-1"
  nonempty := by decide
  unbroken := Text.forall_mem_of_all (by decide)

/-- The eleventh replica. -/
def webTen : TaskId where
  text := "nexa-shop-web-10"
  nonempty := by decide
  unbroken := Text.forall_mem_of_all (by decide)

/-- The eleventh replica runs and the second has stopped. -/
def webTasks : TaskTable where
  header := ⟨0, 0, 0⟩
  rows := [(⟨webTen, 4250, .running⟩, ⟨3, 3, 0⟩), (⟨webOne, 4242, .stopped⟩, ⟨4, 3, 0⟩)]
  distinct := by decide

/-- The second replica is taken for the eleventh. -/
theorem task_state_confused : ¬ InspectsState (.new "/var/lib/nexa") webTasks webOne ∧
    ¬ WaitsFor (.new "/var/lib/nexa") webTasks webOne := by
  constructor
  · rw [inspectsState_iff, TaskTable.taskState_text]
    decide
  · rw [waitsFor_iff, TaskTable.stillRunning_text]
    intro h
    have hshown : ∃ row ∈ webTasks.rows.map Prod.fst,
        row.mentions webOne = true ∧ row.shows .running = true :=
      ⟨_, List.mem_cons_self, by decide, by decide⟩
    obtain ⟨row, htask, hstatus⟩ := h.mp hshown
    cases htask
    cases hstatus

end Web

end Nexad.Runtime
