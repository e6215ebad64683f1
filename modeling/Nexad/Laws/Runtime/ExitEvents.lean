import Nexad.Laws.Runtime.Exit

/-!
# What is read out of an exit event

`ctr events` prints an event behind a time stamp, the namespace and the topic.
For a task that is over the payload is a JSON object with the fields of
containerd's `TaskExit`, in which a field that is zero does not show. The
runtime decodes no JSON: it searches the line for the name of a field, and
takes what stands behind the first mention of it.

So an exit is read as it was printed exactly when each of the two names is first
met where its field is (`exit_decoded_iff`): the status of a container that ended
well is not printed at all, and a namespace or a container may be called after a
field.
-/

namespace Nexad.Runtime

/-- The fields of a `TaskExit`. -/
inductive ExitField where
  | containerId
  | id
  | pid
  | exitStatus
  | exitedAt
  deriving DecidableEq, Repr

namespace ExitField

/-- The key of a field. -/
def name : ExitField → List Char
  | containerId => "container_id".toList
  | id => "id".toList
  | pid => "pid".toList
  | exitStatus => "exit_status".toList
  | exitedAt => "exited_at".toList

def all : List ExitField := [containerId, id, pid, exitStatus, exitedAt]

/-- A key holds nothing that separates members. -/
theorem name_plain (f : ExitField) : ∀ c ∈ [' ', '"', ',', ':', '{', '}'], c ∉ f.name := by
  cases f <;> exact Text.forall_mem_of_all (by decide)

/-- The two keys that are searched for are part of no other key. -/
theorem contains_name {f g : ExitField} (h : f ≠ g) (hg : g = containerId ∨ g = exitStatus) :
    Text.contains g.name f.name = false := by
  rcases hg with rfl | rfl <;> revert h <;> cases f <;> decide

end ExitField

/-- An exit as `ctr events` prints it, with the order of its fields. The
identifiers are such that JSON writes them as they are. -/
structure TaskExit where
  /-- The time stamp. -/
  stamp : List Char
  nspace : List Char
  containerId : List Char
  id : List Char
  pid : UInt32
  exitStatus : UInt32
  /-- The JSON text of the time. -/
  exitedAt : Option (List Char)
  order : List ExitField
  stamp_plain : '_' ∉ stamp
  nspace_plain : '"' ∉ nspace ∧ ':' ∉ nspace
  containerId_plain : '"' ∉ containerId ∧ '\\' ∉ containerId
  id_plain : '"' ∉ id ∧ '\\' ∉ id
  exitedAt_plain : ∀ text, exitedAt = some text → '_' ∉ text
  order_perm : order.Perm ExitField.all

namespace TaskExit

variable (e : TaskExit)

/-- Whether a field shows. -/
def present : ExitField → Bool
  | .containerId => !e.containerId.isEmpty
  | .id => !e.id.isEmpty
  | .pid => e.pid != 0
  | .exitStatus => e.exitStatus != 0
  | .exitedAt => e.exitedAt.isSome

def printed : List ExitField := e.order.filter e.present

/-- The JSON text of a value. -/
def value : ExitField → List Char
  | .containerId => '"' :: (e.containerId ++ ['"'])
  | .id => '"' :: (e.id ++ ['"'])
  | .pid => Text.decimal e.pid.toNat
  | .exitStatus => Text.decimal e.exitStatus.toNat
  | .exitedAt => e.exitedAt.getD []

def member (f : ExitField) : List Char := '"' :: (f.name ++ '"' :: ':' :: e.value f)

/-- The rest of the payload, from the end of a member on. -/
def rest : List ExitField → List Char
  | [] => ['}']
  | f :: fs => ',' :: (e.member f ++ rest fs)

def payload : List ExitField → List Char
  | [] => ['{', '}']
  | f :: fs => '{' :: (e.member f ++ e.rest fs)

/-- The topic, between blanks. -/
def topic : List Char := ' ' :: ("/tasks/exit".toList ++ [' '])

theorem topic_plain : ∀ c ∈ ['"', ':', '_'], c ∉ topic := Text.forall_mem_of_all (by decide)

/-- What stands behind the namespace. -/
def behind : List Char := topic ++ e.payload e.printed

/-- The line of the event. -/
def line : String := String.ofList (e.stamp ++ ' ' :: (e.nspace ++ e.behind))

def code : Int64 := Int64.ofNat e.exitStatus.toNat

/-! ## Where a name is first met -/

/-- The identifier that a member shows, which may hold any name. -/
def quoted : ExitField → List Char
  | .containerId => e.containerId
  | .id => e.id
  | _ => []

/-- What may be part of a number. -/
def inNumber (c : Char) : Bool := c.isDigit || c == '-'

/-- The status is read in the fields: its own is there, before any identifier with
the name in it, or the first number behind the mention happens to be the status. -/
def StatusReadIn : List ExitField → Prop
  | [] => False
  | f :: fs =>
    if f = .exitStatus then True
    else
      match Text.findFrom "exit_status".toList (e.quoted f) with
      | some mention =>
        parseI64 (Text.firstRun inNumber (mention ++ '"' :: e.rest fs)) = some e.code
      | none => StatusReadIn fs

/-- The status is read: in the fields, where the namespace does not have the name
in it, or else the first number behind its mention happens to be the status. -/
def StatusRead : Prop :=
  match Text.findFrom "exit_status".toList e.nspace with
  | some mention => parseI64 (Text.firstRun inNumber (mention ++ e.behind)) = some e.code
  | none => e.StatusReadIn e.printed

/-- Between the first two colons of the text there is nothing, or it has none. -/
def SaysNothing (text : List Char) : Prop :=
  match Text.splitOnce ':' text with
  | none => True
  | some (_, behind) =>
    match Text.splitOnce ':' behind with
    | none => False
    | some (between, _) => ∀ c ∈ between, Text.isWhiteSpace c = true

/-- The container's id is read in the fields: its own is there, before an `id` with the
name in it, or else the mention happens to be followed by what the container is called. -/
def ContainerReadIn : List ExitField → Prop
  | [] => e.containerId = []
  | f :: fs =>
    if f = .containerId then Text.trim e.containerId = e.containerId
    else
      match Text.findFrom "container_id".toList (e.quoted f) with
      | some mention =>
        match fs with
        | next :: _ => e.containerId = next.name
        | [] => e.containerId = [] ∧ SaysNothing mention
      | none => ContainerReadIn fs

/-- The container's id is read: in the fields, where the namespace does not have the
name in it, or else the container is called after what follows the first key. -/
def ContainerRead : Prop :=
  match Text.findFrom "container_id".toList e.nspace with
  | some _ =>
    match e.printed with
    | f :: fs => e.containerId =
        Text.trim ((':' :: (e.value f ++ e.rest fs)).takeWhile (· != '"'))
    | [] => e.containerId = []
  | none => e.ContainerReadIn e.printed

/-! ## The search -/

/-- The rest begins with what ends a value. -/
theorem rest_head (fs : List ExitField) :
    ∃ c s, e.rest fs = c :: s ∧ c ∈ [',', '}'] := by
  cases fs with
  | nil => exact ⟨'}', [], rfl, by decide⟩
  | cons f fs => exact ⟨',', e.member f ++ e.rest fs, rfl, by decide⟩

theorem rest_cons (f : ExitField) (fs : List ExitField) : e.rest (f :: fs) =
    ',' :: '"' :: (f.name ++ '"' :: ':' :: (e.value f ++ e.rest fs)) := by
  simp only [rest, member, List.cons_append, List.append_assoc]

section Search

variable {key : List Char} (hunder : '_' ∈ key)
  (hplain : ∀ c ∈ [' ', '"', ',', ':', '{', '}'], c ∉ key)

include hunder

private theorem findFrom_none {s : List Char} (h : '_' ∉ s) : Text.findFrom key s = none :=
  Text.findFrom_eq_none_iff.mpr (Text.contains_eq_false_of_notMem hunder h)

/-- A separator in front of a text is gone past. -/
private theorem findFrom_sep {s : List Char} {c : Char} (hc : c ∉ key) :
    Text.findFrom key (c :: s) = Text.findFrom key s :=
  Text.findFrom_cons (List.ne_nil_of_mem hunder) hc

include hplain

/-- A value holds a name as far as its identifier does. -/
theorem findFrom_value (f : ExitField) :
    Text.findFrom key (e.value f) = (Text.findFrom key (e.quoted f)).map (· ++ ['"']) := by
  have hquote : '"' ∉ key := hplain _ (by simp)
  have hquoted : ∀ text, Text.findFrom key ('"' :: (text ++ ['"'])) =
      (Text.findFrom key text).map (· ++ ['"']) := by
    intro text
    have hend : Text.findFrom key ['"'] = none :=
      (findFrom_sep hunder hquote).trans (findFrom_none hunder List.not_mem_nil)
    rw [findFrom_sep hunder hquote, Text.findFrom_append_cons hquote, hend, Option.or_none]
  have hnone : ∀ value : List Char, '_' ∉ value →
      Text.findFrom key value = (Text.findFrom key []).map (· ++ ['"']) := by
    intro value hvalue
    rw [findFrom_none hunder hvalue, findFrom_none hunder List.not_mem_nil, Option.map_none]
  have hnumber : ∀ n : Nat, '_' ∉ Text.decimal n := by
    intro n hmem
    have hdigit := Nat.isDigit_of_mem_toDigits (by decide) (by decide) hmem
    exact absurd hdigit (by decide)
  cases f with
  | containerId => exact hquoted e.containerId
  | id => exact hquoted e.id
  | pid => exact hnone _ (hnumber _)
  | exitStatus => exact hnone _ (hnumber _)
  | exitedAt =>
    refine hnone _ ?_
    cases h : e.exitedAt with
    | none => simp [value, h]
    | some text => simpa [value, h] using e.exitedAt_plain text h

theorem findFrom_rest_nil : Text.findFrom key (e.rest []) = none :=
  (findFrom_sep hunder (hplain _ (by simp))).trans (findFrom_none hunder List.not_mem_nil)

/-- The search comes upon the field that it is for. -/
theorem findFrom_rest_name {f : ExitField} (hname : f.name = key) (fs : List ExitField) :
    Text.findFrom key (e.rest (f :: fs)) =
      some (f.name ++ '"' :: ':' :: (e.value f ++ e.rest fs)) := by
  subst hname
  rw [rest_cons, findFrom_sep hunder (hplain _ (by simp)), findFrom_sep hunder (hplain _ (by simp)),
    Text.findFrom_prefix]

/-- At another field the search comes upon its identifier, or goes on behind it. -/
theorem findFrom_rest_cons {f : ExitField} (hname : Text.contains key f.name = false)
    (fs : List ExitField) :
    Text.findFrom key (e.rest (f :: fs)) =
      ((Text.findFrom key (e.quoted f)).map (· ++ '"' :: e.rest fs)).or
        (Text.findFrom key (e.rest fs)) := by
  obtain ⟨c, s, hrest, hc⟩ := e.rest_head fs
  have hends : [',', '}'] ⊆ [' ', '"', ',', ':', '{', '}'] := by decide
  have hstop : c ∉ key := hplain c (hends hc)
  rw [rest_cons, findFrom_sep hunder (hplain _ (by simp)), findFrom_sep hunder (hplain _ (by simp)),
    Text.findFrom_skip hname (hplain _ (by simp)), findFrom_sep hunder (hplain _ (by simp)), hrest,
    Text.findFrom_append_cons hstop, findFrom_value e hunder hplain, Option.map_map]
  simp only [Function.comp_def, List.append_assoc, List.singleton_append]

/-- The search comes upon the namespace, or goes on in the fields. -/
theorem findFrom_line : Text.findFrom key e.line.toList =
    ((Text.findFrom key e.nspace).map (· ++ e.behind)).or
      (Text.findFrom key (e.rest e.printed)) := by
  have hblank : ' ' ∉ key := hplain _ (by simp)
  have hstamp : Text.contains key e.stamp = false :=
    Text.contains_eq_false_of_notMem hunder e.stamp_plain
  have htopic : Text.contains key topic = false :=
    Text.contains_eq_false_of_notMem hunder (topic_plain _ (by simp))
  have hfields : Text.findFrom key e.behind = Text.findFrom key (e.rest e.printed) := by
    rw [behind]
    cases e.printed with
    | nil => exact Text.findFrom_skip htopic (hplain _ (by simp))
    | cons f fs =>
      exact (Text.findFrom_skip htopic (hplain _ (by simp))).trans
        (findFrom_sep hunder (hplain _ (by simp))).symm
  rw [line, String.toList_ofList, Text.findFrom_skip hstamp hblank, ← hfields]
  exact Text.findFrom_append_cons hblank

end Search

/-! ## The status -/

theorem extractExitCode_eq (s : List Char) : extractExitCode s =
    (Text.findFrom "exit_status".toList s).bind fun found =>
      parseI64 (Text.firstRun inNumber found) := by
  have hsep : (fun c : Char => !c.isDigit && c != '-') = fun c => !inNumber c := by
    funext c
    rw [inNumber, Bool.not_or]
    rfl
  unfold extractExitCode
  congr 1
  funext found
  rw [hsep, Text.find_splitOnP]
  split
  · next hnone =>
    rw [hnone]
    rfl
  · rfl

/-- The status of the line is looked for in the namespace and in the fields. -/
theorem extractExitCode_line : extractExitCode e.line.toList =
    (((Text.findFrom "exit_status".toList e.nspace).map (· ++ e.behind)).or
      (Text.findFrom "exit_status".toList (e.rest e.printed))).bind fun found =>
        parseI64 (Text.firstRun inNumber found) := by
  have hfind : Text.findFrom "exit_status".toList e.line.toList =
      ((Text.findFrom "exit_status".toList e.nspace).map (· ++ e.behind)).or
        (Text.findFrom "exit_status".toList (e.rest e.printed)) :=
    e.findFrom_line (by decide) ExitField.exitStatus.name_plain
  rw [extractExitCode_eq, hfind]

theorem toInt_code : e.code.toInt = e.exitStatus.toNat := by
  have hlt := e.exitStatus.toNat_lt
  exact Int64.toInt_ofNat_of_lt (by omega)

theorem code_ne : e.code ≠ -1 := by
  intro h
  have hcode := e.toInt_code
  rw [h] at hcode
  have hneg : (-1 : Int64).toInt = -1 := by decide
  omega

/-- No status at all is taken for -1, which no task ends with. -/
theorem getD_eq_code_iff {number : Option Int64} :
    number.getD (-1) = e.code ↔ number = some e.code := by
  cases number with
  | none => exact iff_of_false (fun h => e.code_ne h.symm) (fun h => by cases h)
  | some n => exact ⟨congrArg some, Option.some.inj⟩

/-- The number behind the field is the status. -/
theorem parseI64_status (fs : List ExitField) :
    parseI64 (Text.firstRun inNumber (ExitField.exitStatus.name ++
      '"' :: ':' :: (e.value .exitStatus ++ e.rest fs))) = some e.code := by
  obtain ⟨c, s, hrest, hc⟩ := e.rest_head fs
  have hends : ∀ c ∈ [',', '}'], inNumber c = false := Text.forall_mem_of_all (by decide)
  have hfront : ∀ c ∈ ExitField.exitStatus.name ++ ['"', ':'], inNumber c = false :=
    Text.forall_mem_of_all (by decide)
  have hdigits : ∀ c ∈ Nat.toDigits 10 e.exitStatus.toNat, inNumber c = true := by
    intro c hc
    rw [inNumber, Nat.isDigit_of_mem_toDigits (by decide) (by decide) hc, Bool.true_or]
  have hrun := Text.firstRun_append (s := Nat.toDigits 10 e.exitStatus.toNat ++ c :: s) hfront
  rw [List.append_assoc, Text.firstRun_run Nat.toDigits_ne_nil hdigits (hends c hc)] at hrun
  have hcode : Text.decimal e.code.toInt = Nat.toDigits 10 e.exitStatus.toNat := by
    rw [e.toInt_code]
    rfl
  rw [hrest, ← parseI64_decimal e.code, hcode]
  exact congrArg parseI64 hrun

/-- The status that is found in the fields is the one that the task ended with
exactly when it is read. -/
theorem statusReadIn_iff (fs : List ExitField) :
    ((Text.findFrom "exit_status".toList (e.rest fs)).bind fun found =>
      parseI64 (Text.firstRun inNumber found)).getD (-1) = e.code ↔ e.StatusReadIn fs := by
  have hunder : '_' ∈ "exit_status".toList := by decide
  have hplain := ExitField.exitStatus.name_plain
  induction fs with
  | nil =>
    rw [findFrom_rest_nil e hunder hplain, StatusReadIn]
    exact iff_of_false (fun h => e.code_ne h.symm) not_false
  | cons f fs ih =>
    rw [StatusReadIn]
    split
    · next hf =>
      subst hf
      rw [findFrom_rest_name e hunder hplain rfl, Option.bind_some, parseI64_status]
      exact iff_of_true rfl trivial
    · next hf =>
      have hname : Text.contains "exit_status".toList f.name = false :=
        ExitField.contains_name hf (.inr rfl)
      rw [findFrom_rest_cons e hunder hplain hname]
      cases Text.findFrom "exit_status".toList (e.quoted f) with
      | none => exact ih
      | some mention =>
        rw [Option.map_some, Option.some_or, Option.bind_some]
        exact e.getD_eq_code_iff

/-- The status of the line is the one that the task ended with exactly when it is read. -/
theorem statusRead_iff : (extractExitCode e.line.toList).getD (-1) = e.code ↔ e.StatusRead := by
  rw [extractExitCode_line, StatusRead]
  cases Text.findFrom "exit_status".toList e.nspace with
  | none => exact e.statusReadIn_iff e.printed
  | some mention =>
    rw [Option.map_some, Option.some_or, Option.bind_some]
    exact e.getD_eq_code_iff

/-! ## The container -/

/-- What is taken for the container's id, from the mention of it on. -/
def containerText (found : List Char) : Option (List Char) :=
  ((found.splitOn '"')[2]?.or ((found.splitOn ':')[1]?.map (Text.trimMatches '"'))).map Text.trim

/-- The container of the line is looked for in the namespace and in the fields. -/
theorem extractContainerId_line : extractContainerId e.line.toList =
    (((Text.findFrom "container_id".toList e.nspace).map (· ++ e.behind)).or
      (Text.findFrom "container_id".toList (e.rest e.printed))).bind containerText := by
  have hfind : Text.findFrom "container_id".toList e.line.toList =
      ((Text.findFrom "container_id".toList e.nspace).map (· ++ e.behind)).or
        (Text.findFrom "container_id".toList (e.rest e.printed)) :=
    e.findFrom_line (by decide) ExitField.containerId.name_plain
  rw [← hfind]
  rfl

/-- Behind two quotes, the text up to the next one is taken. -/
theorem containerText_quotes {a b s : List Char} (ha : '"' ∉ a) (hb : '"' ∉ b) :
    containerText (a ++ '"' :: (b ++ '"' :: s)) =
      some (Text.trim (s.takeWhile (· != '"'))) := by
  obtain ⟨p, ps, hp⟩ := List.exists_cons_of_ne_nil (List.splitOn_ne_nil '"' s)
  have hhead := Text.splitOn_headD '"' s
  rw [hp, List.headD_cons] at hhead
  rw [containerText, List.splitOn_append_cons_self_of_not_mem ha,
    List.splitOn_append_cons_self_of_not_mem hb, hp, ← hhead]
  rfl

theorem containerText_quoted {a b text s : List Char} (ha : '"' ∉ a) (hb : '"' ∉ b)
    (htext : '"' ∉ text) :
    containerText (a ++ '"' :: (b ++ '"' :: (text ++ '"' :: s))) = some (Text.trim text) := by
  rw [containerText_quotes ha hb, Text.takeWhile_append_cons htext]

/-- Without a member behind it, a mention says what stands between its colons. -/
theorem containerText_last {mention : List Char} (h : '"' ∉ mention) :
    (containerText (mention ++ ['"', '}'])).getD [] = [] ↔ SaysNothing mention := by
  have hquotes : (mention ++ ['"', '}']).splitOn '"' = [mention, ['}']] := by
    rw [List.splitOn_append_cons_self_of_not_mem h]
    rfl
  have hend : ':' ∉ ['"', '}'] := by decide
  rw [containerText, hquotes]
  unfold SaysNothing
  cases hfirst : Text.splitOnce ':' mention with
  | none =>
    have hcolon : ':' ∉ mention ++ ['"', '}'] := fun hmem =>
      (List.mem_append.mp hmem).elim (Text.splitOnce_eq_none_iff.mp hfirst) hend
    rw [List.splitOn_eq_singleton hcolon]
    exact iff_of_true rfl trivial
  | some parts =>
    obtain ⟨a, behind⟩ := parts
    obtain ⟨rfl, ha⟩ := Text.splitOnce_eq_some_iff.mp hfirst
    rw [List.append_assoc, List.cons_append, List.splitOn_append_cons_self_of_not_mem ha]
    cases hsecond : Text.splitOnce ':' behind with
    | none =>
      have hcolon : ':' ∉ behind ++ ['"', '}'] := fun hmem =>
        (List.mem_append.mp hmem).elim (Text.splitOnce_eq_none_iff.mp hsecond) hend
      rw [List.splitOn_eq_singleton hcolon]
      have hbrace : '}' ∈ Text.trim (Text.trimMatches '"' (behind ++ ['"', '}'])) :=
        Text.mem_trim (by decide) (Text.mem_trimMatches (by decide) (by simp))
      dsimp only
      rw [hsecond]
      exact iff_of_false (List.ne_nil_of_mem hbrace) not_false
    | some parts =>
      obtain ⟨between, d⟩ := parts
      obtain ⟨rfl, hbetween⟩ := Text.splitOnce_eq_some_iff.mp hsecond
      have hquote : '"' ∉ between := by
        intro hmem
        exact h (List.mem_append_right _ (List.mem_cons_of_mem _ (List.mem_append_left _ hmem)))
      rw [List.append_assoc, List.cons_append, List.splitOn_append_cons_self_of_not_mem hbetween]
      have htrim : Text.trimMatches '"' between = between := Text.trimMatches_of_notMem hquote
      dsimp only
      rw [hsecond]
      show Text.trim (Text.trimMatches '"' between) = [] ↔ _
      rw [htrim]
      exact Text.trim_eq_nil_iff

/-- The id that is found in the fields is the container's exactly when it is read. -/
theorem containerReadIn_iff (fs : List ExitField) (h : .containerId ∈ fs ∨ e.containerId = []) :
    ((Text.findFrom "container_id".toList (e.rest fs)).bind containerText).getD [] =
      e.containerId ↔ e.ContainerReadIn fs := by
  have hunder : '_' ∈ "container_id".toList := by decide
  have hplain := ExitField.containerId.name_plain
  have hname : ∀ f : ExitField, '"' ∉ f.name ∧ Text.trim f.name = f.name := by
    intro f
    cases f <;> decide
  have hquoted : ∀ f, '"' ∉ e.quoted f := by
    intro f
    cases f with
    | containerId => exact e.containerId_plain.1
    | id => exact e.id_plain.1
    | pid => exact List.not_mem_nil
    | exitStatus => exact List.not_mem_nil
    | exitedAt => exact List.not_mem_nil
  induction fs with
  | nil =>
    rw [findFrom_rest_nil e hunder hplain, ContainerReadIn]
    exact eq_comm
  | cons f fs ih =>
    rw [ContainerReadIn]
    split
    · next hf =>
      subst hf
      have hvalue : e.value .containerId ++ e.rest fs =
          '"' :: (e.containerId ++ '"' :: e.rest fs) := by
        rw [value, List.cons_append, List.append_assoc, List.singleton_append]
      have htaken := containerText_quoted (b := [':']) (s := e.rest fs)
        (hname .containerId).1 (by decide) e.containerId_plain.1
      rw [findFrom_rest_name e hunder hplain rfl, Option.bind_some, hvalue]
      exact Eq.to_iff (congrArg (fun text => text.getD [] = e.containerId) htaken)
    · next hf =>
      have hrest : .containerId ∈ fs ∨ e.containerId = [] := by
        refine h.imp_left fun hmem => ?_
        exact (List.mem_cons.mp hmem).resolve_left fun heq => hf heq.symm
      have hother : Text.contains "container_id".toList f.name = false :=
        ExitField.contains_name hf (.inl rfl)
      rw [findFrom_rest_cons e hunder hplain hother]
      cases hmention : Text.findFrom "container_id".toList (e.quoted f) with
      | none => exact ih hrest
      | some mention =>
        have hquote : '"' ∉ mention := fun hmem =>
          hquoted f ((Text.suffix_of_findFrom hmention).subset hmem)
        rw [Option.map_some, Option.some_or, Option.bind_some]
        cases fs with
        | nil =>
          have hnil := hrest.resolve_left List.not_mem_nil
          rw [hnil]
          exact (containerText_last hquote).trans ⟨fun hsays => ⟨rfl, hsays⟩, And.right⟩
        | cons next fs =>
          have htaken := containerText_quoted (b := [','])
            (s := ':' :: (e.value next ++ e.rest fs)) hquote (by decide) (hname next).1
          rw [rest_cons]
          rw [(hname next).2] at htaken
          refine (Eq.to_iff (congrArg (fun text => text.getD [] = e.containerId) htaken)).trans ?_
          exact eq_comm

/-- The container's id is among the fields, where it is not empty. -/
theorem containerId_printed : .containerId ∈ e.printed ∨ e.containerId = [] := by
  cases hid : e.containerId with
  | nil => exact .inr rfl
  | cons c cs =>
    refine .inl (List.mem_filter.mpr ⟨e.order_perm.mem_iff.mpr (by decide), ?_⟩)
    rw [present, hid]
    rfl

/-- A mention in the namespace is followed by the payload. -/
theorem containerText_nspace {mention : List Char} (hquote : '"' ∉ mention)
    (hcolon : ':' ∉ mention) : containerText (mention ++ e.behind) =
      match e.printed with
      | [] => none
      | f :: fs => some (Text.trim ((':' :: (e.value f ++ e.rest fs)).takeWhile (· != '"'))) := by
  cases hprinted : e.printed with
  | nil =>
    have hnoQuote : '"' ∉ mention ++ (topic ++ ['{', '}']) := by
      rw [List.mem_append, List.mem_append, not_or, not_or]
      exact ⟨hquote, topic_plain _ (by simp), by decide⟩
    have hnoColon : ':' ∉ mention ++ (topic ++ ['{', '}']) := by
      rw [List.mem_append, List.mem_append, not_or, not_or]
      exact ⟨hcolon, topic_plain _ (by simp), by decide⟩
    rw [behind, hprinted, payload, containerText, List.splitOn_eq_singleton hnoQuote,
      List.splitOn_eq_singleton hnoColon]
    rfl
  | cons f fs =>
    have hfront : '"' ∉ mention ++ (topic ++ ['{']) := by
      rw [List.mem_append, List.mem_append, not_or, not_or]
      exact ⟨hquote, topic_plain _ (by simp), by decide⟩
    have hbehind : mention ++ e.behind = (mention ++ (topic ++ ['{'])) ++
        '"' :: (f.name ++ '"' :: (':' :: (e.value f ++ e.rest fs))) := by
      rw [behind, hprinted, payload, member]
      simp only [List.append_assoc, List.cons_append, List.nil_append]
    rw [hbehind]
    exact containerText_quotes hfront (f.name_plain _ (by simp))

/-- The id that is read out of the line is the container's exactly when it is read. -/
theorem containerRead_iff :
    (extractContainerId e.line.toList).getD [] = e.containerId ↔ e.ContainerRead := by
  rw [extractContainerId_line, ContainerRead]
  cases hmention : Text.findFrom "container_id".toList e.nspace with
  | none => exact e.containerReadIn_iff e.printed e.containerId_printed
  | some mention =>
    have hsub := (Text.suffix_of_findFrom hmention).subset
    rw [Option.map_some, Option.some_or, Option.bind_some,
      e.containerText_nspace (fun h => e.nspace_plain.1 (hsub h))
        (fun h => e.nspace_plain.2 (hsub h))]
    cases e.printed <;> exact eq_comm

end TaskExit

/-- The event of an exit: what is found in its fields. -/
theorem toEvent_line (e : TaskExit) : ContainerdRuntime.toEvent (.ok e.line) =
    some (.containerDied (String.ofList ((extractContainerId e.line.toList).getD []))
      ((extractExitCode e.line.toList).getD (-1))) := by
  have htopic : Text.contains "/tasks/exit".toList e.line.toList = true := by
    have hline : e.line.toList = (e.stamp ++ ' ' :: (e.nspace ++ [' '])) ++
        ("/tasks/exit".toList ++ (' ' :: e.payload e.printed)) := by
      rw [TaskExit.line, String.toList_ofList, TaskExit.behind, TaskExit.topic]
      simp only [List.append_assoc, List.cons_append, List.nil_append]
    rw [hline]
    exact Text.contains_append _ _ _
  simp only [ContainerdRuntime.toEvent, htopic, ↓reduceIte]

/-- Wherever its line stands in a stream, an exit becomes the death of its
container with the status that it ended with. -/
def ExitDecoded (e : TaskExit) : Prop :=
  ∀ (self : ContainerdRuntime) (before after : List (Except String String))
    (events : List RuntimeEvent),
    (ContainerRuntime.containerd self).Streams (before ++ .ok e.line :: after) events →
      events = before.filterMap ContainerdRuntime.toEvent ++
        .containerDied (String.ofList e.containerId) e.code ::
          after.filterMap ContainerdRuntime.toEvent

/-- An exit is decoded where its event is the death of its container. -/
theorem exitDecoded_iff_toEvent {e : TaskExit} : ExitDecoded e ↔
    ContainerdRuntime.toEvent (.ok e.line) =
      some (.containerDied (String.ofList e.containerId) e.code) := by
  have hevents : ∀ self, (ContainerRuntime.containerd self).toEvent = ContainerdRuntime.toEvent :=
    fun _ => rfl
  constructor
  · intro h
    have hone := h (ContainerdRuntime.new "") [] [] _ (.of_reports _)
    rw [List.nil_append, hevents, List.filterMap_cons_some (toEvent_line e)] at hone
    exact (toEvent_line e).trans (congrArg some (List.cons.inj hone).1)
  · intro h self before after events hstream
    rw [hstream.events_eq, hevents, List.filterMap_append, List.filterMap_cons_some h]

/-- An exit is decoded exactly when the first mention of either name in its line
is where what it names is read. -/
theorem exit_decoded_iff (e : TaskExit) :
    ExitDecoded e ↔ e.ContainerRead ∧ e.StatusRead := by
  rw [exitDecoded_iff_toEvent, toEvent_line, ← e.containerRead_iff, ← e.statusRead_iff]
  constructor
  · intro h
    injection h with h
    injection h with hid hcode
    exact ⟨String.ofList_injective hid, hcode⟩
  · rintro ⟨hid, hcode⟩
    rw [hid, hcode]

/-- A container that ended well: its status is 0, and does not show. -/
def cleanExit : TaskExit where
  stamp := "2026-05-21 10:00:00.000000001 +0000 UTC".toList
  nspace := "nexa".toList
  containerId := "web".toList
  id := "web".toList
  pid := 4242
  exitStatus := 0
  exitedAt := some "\"2026-05-21T10:00:00Z\"".toList
  order := ExitField.all
  stamp_plain := by decide
  nspace_plain := by decide
  containerId_plain := by decide
  id_plain := by decide
  exitedAt_plain := by
    rintro text ⟨⟩
    decide
  order_perm := .refl _

/-- It is reported to have failed. -/
theorem clean_exit_failed :
    ContainerdRuntime.toEvent (.ok cleanExit.line) = some (.containerDied "web" (-1)) ∧
      cleanExit.code = 0 ∧ ¬ ExitDecoded cleanExit := by
  have hcontainer : (extractContainerId cleanExit.line.toList).getD [] = "web".toList := by
    rw [TaskExit.extractContainerId_line]
    decide
  have hcode : extractExitCode cleanExit.line.toList = none := by
    rw [TaskExit.extractExitCode_line]
    decide
  have hevent : ContainerdRuntime.toEvent (.ok cleanExit.line) =
      some (.containerDied "web" (-1)) := by
    rw [toEvent_line, hcontainer, hcode, String.ofList_toList, Option.getD_none]
  refine ⟨hevent, by decide, fun h => ?_⟩
  rw [exitDecoded_iff_toEvent, hevent] at h
  exact absurd h (by decide)

end Nexad.Runtime
