import Nexad.Api.Scheduler

/-!
# Edits that are kept

An edit of one weight sends back the whole configuration that it read, so it
undoes what other edits did in between. In a run of edits of different weights
every weight that was set stays set exactly when no edit is sent back stale
(`Fresh`): each of the other weights is still as it was read.

One direction is an invariant (`Kept`). For the other, a weight that nobody
has set yet is the same in every configuration there has been (`Untouched`),
so a stale edit undoes a weight that was set.
-/

namespace Nexad.Api

open Interleave

variable {C : SchedulerCore}

/-- Histories of the scheduler's route. -/
abbrev ApiHistory (C : SchedulerCore) := History (schedulerSig C) C.SchedulerConfig SchedulerRequest

/-- Its threads. -/
abbrev ApiPool (C : SchedulerCore) :=
  Pool (schedulerSig C) C.SchedulerConfig SchedulerRequest (SchedulerReply C)

/-- Setting a weight sets this weight and no other. -/
def SchedulerCore.SetsOne (C : SchedulerCore) : Prop :=
  ∀ config name value config', C.setWeight config name value = .ok config' →
    C.weight config' name = some value ∧
      ∀ other, other ≠ name → C.weight config' other = C.weight config other

/-- A request that sets one weight. -/
def edit (name : String) (value : F64) : SchedulerRequest := .set ⟨none, some ⟨name, value⟩⟩

theorem edit_ne {name name' : String} {value value' : F64} (h : name ≠ name') :
    edit name value ≠ edit name' value' := by
  intro heq
  cases heq
  exact h rfl

/-- The requests read the configuration or set one weight, no two the same. -/
structure DistinctEdits (p : ApiPool C) : Prop where
  edits : ∀ k req q, p.thread k = some (req, q) → req = .get ∨ ∃ name value, req = edit name value
  distinct : ∀ j k name value value' q q', p.thread j = some (edit name value, q) →
    p.thread k = some (edit name value', q') → j = k

/-- The orchestrator takes the configuration that an edit sends. -/
abbrev taken (k : Nat) (name : String) (value : F64) (config : C.SchedulerConfig) :
    Event (schedulerSig C) SchedulerRequest :=
  .call k (edit name value) (.setSchedulerConfig config) (.ok config)

/-- The weight was set to this value. -/
def Took (l : ApiHistory C) (name : String) (value : F64) : Prop :=
  ∃ s k config, (s, taken k name value config) ∈ l

/-- Every weight that was set has the value it was set to. -/
def Kept (l : ApiHistory C) (s : C.SchedulerConfig) : Prop :=
  ∀ name value, Took l name value → C.weight s name = some value

/-- No weight that was set is undone, at any time. -/
def EditsKept (l : ApiHistory C) (s : C.SchedulerConfig) : Prop :=
  l.Steps (fun l s e s' => Kept ((s, e) :: l) s') s

/-- An edit that the orchestrator takes was not overtaken: the weights that it
does not set are as it read them. -/
def Fresh (l : ApiHistory C) (s : C.SchedulerConfig) (e : Event (schedulerSig C) SchedulerRequest) :
    Prop :=
  ∀ k name value config read, e = taken k name value config →
    ⟨.getSchedulerConfig, read⟩ ∈ l.calls k →
      ∀ other, other ≠ name → C.weight s other = C.weight read other

/-! ## What an edit does -/

/-- An edit reads, sends the configuration with its weight set, and ends. -/
theorem edit_path {name : String} {value : F64}
    {calls : List ((op : (schedulerSig C).Op) × (schedulerSig C).Ans op)}
    {q : Prog (schedulerSig C) (SchedulerReply C)}
    (h : ((edit name value).code C).Path calls q) :
    (calls = [] ∧ q = setSchedulerConfig C ⟨none, some ⟨name, value⟩⟩) ∨
    ∃ read : C.SchedulerConfig,
      (calls = [⟨.getSchedulerConfig, read⟩] ∧ ((∃ status e, q = .ret (.failed status e)) ∨
        ∃ config cont, C.setWeight read name value = .ok config ∧
          q = .call (.setSchedulerConfig config) cont)) ∨
      ∃ config ans, calls = [⟨.getSchedulerConfig, read⟩, ⟨.setSchedulerConfig config, ans⟩] ∧
        ((∃ status e, q = .ret (.failed status e)) ∨
          ∃ config', ans = .ok config' ∧ q = .ret (.config config')) := by
  cases h with
  | refl => exact .inl ⟨rfl, rfl⟩
  | @call _ _ _ l read rest =>
    refine .inr ⟨read, ?_⟩
    dsimp only at rest
    cases hset : requestedConfig C ⟨none, some ⟨name, value⟩⟩ read with
    | error e =>
      rw [hset] at rest
      cases rest
      exact .inl ⟨rfl, .inl ⟨400, e, rfl⟩⟩
    | ok config =>
      rw [hset] at rest
      cases rest with
      | refl => exact .inl ⟨rfl, .inr ⟨config, _, hset, rfl⟩⟩
      | @call _ _ _ l ans rest =>
        cases ans with
        | error e =>
          cases rest
          exact .inr ⟨config, .error e, rfl, .inl ⟨500, e, rfl⟩⟩
        | ok config' =>
          cases rest
          exact .inr ⟨config, .ok config', rfl, .inr ⟨config', rfl, rfl⟩⟩

/-- A step changes the configuration only by taking what an edit sends. -/
inductive Effect (l : ApiHistory C) (p : ApiPool C) :
    Event (schedulerSig C) SchedulerRequest → ApiPool C → Prop
  | quiet {e : Event (schedulerSig C) SchedulerRequest} {p' : ApiPool C}
      (same : p'.state = p.state) (other : ∀ k name value config, e ≠ taken k name value config) :
      Effect l p e p'
  | took {k : Nat} {name : String} {value : F64} {read config : C.SchedulerConfig}
      {q : Prog (schedulerSig C) (SchedulerReply C)} {p' : ApiPool C}
      (thread : p.thread k = some (edit name value, q)) (state : p'.state = config)
      (calls : l.calls k = [⟨.getSchedulerConfig, read⟩])
      (set : C.setWeight read name value = .ok config) : Effect l p (taken k name value config) p'

theorem step_effect {c₀ : C.SchedulerConfig} {l : ApiHistory C} {p p' : ApiPool C}
    {e : Event (schedulerSig C) SchedulerRequest} (h : Run (schedulerApi C) (.idle c₀) l p)
    (hs : Step (schedulerApi C) p e p') (hedits : DistinctEdits p') : Effect l p e p' := by
  cases hs with
  | arrive free arrives => exact .quiet rfl fun k name value config he => by cases he
  | env moves => exact absurd moves id
  | @call k req op cont ans s' at_call answered =>
    cases answered with
    | get => exact .quiet rfl fun k name value config he => by cases he
    | refused config e => exact .quiet rfl fun k name value config he => by cases he
    | set config =>
      have hpath := h.path at_call
      rcases hedits.edits k req _ (Pool.set_thread_self ..) with rfl | ⟨name, value, rfl⟩
      · -- a reader sends nothing
        generalize l.calls k = calls at hpath
        cases hpath with
        | call ans rest => cases rest
      · rcases edit_path hpath with ⟨-, hq⟩ | ⟨read, ⟨hcalls, hq⟩ | ⟨config', ans, -, hq⟩⟩
        · cases hq
        · rcases hq with ⟨status, e, hq⟩ | ⟨config', cont', hset, hq⟩
          · cases hq
          · cases hq
            exact .took at_call rfl hcalls hset
        · rcases hq with ⟨status, e, hq⟩ | ⟨config'', -, hq⟩
          · cases hq
          · cases hq

/-- The requests that there are were distinct before a step. -/
theorem DistinctEdits.before {p p' : ApiPool C} {e : Event (schedulerSig C) SchedulerRequest}
    (hs : Step (schedulerApi C) p e p') (h : DistinctEdits p') : DistinctEdits p := by
  refine ⟨fun k req q hk => ?_, fun j k name value value' q q' hj hk => ?_⟩
  · obtain ⟨q', hk'⟩ := hs.thread hk
    exact h.edits k req q' hk'
  · obtain ⟨r, hj'⟩ := hs.thread hj
    obtain ⟨r', hk'⟩ := hs.thread hk
    exact h.distinct j k name value value' r r' hj' hk'

/-! ## The weights that are set -/

section Weights

variable {l : ApiHistory C} {s : C.SchedulerConfig} {e : Event (schedulerSig C) SchedulerRequest}
  {name : String} {value : F64}

theorem took_cons_iff : Took ((s, e) :: l) name value ↔
    (∃ k config, e = taken k name value config) ∨ Took l name value := by
  constructor
  · rintro ⟨s', k, config, hmem⟩
    rcases List.mem_cons.mp hmem with heq | hmem
    · cases heq
      exact .inl ⟨k, config, rfl⟩
    · exact .inr ⟨s', k, config, hmem⟩
  · rintro (⟨k, config, rfl⟩ | ⟨s', k, config, hmem⟩)
    · exact ⟨s, k, config, List.mem_cons_self⟩
    · exact ⟨s', k, config, List.mem_cons_of_mem _ hmem⟩

/-- A step that takes nothing sets nothing. -/
theorem took_cons_of_quiet (hquiet : ∀ k name value config, e ≠ taken k name value config) :
    Took ((s, e) :: l) name value ↔ Took l name value := by
  rw [took_cons_iff]
  exact ⟨fun h => h.resolve_left fun ⟨k, config, he⟩ => hquiet k name value config he, .inr⟩

/-- In the beginning nothing is set. -/
theorem not_took_nil : ¬ Took ([] : ApiHistory C) name value := by
  rintro ⟨s, k, config, hmem⟩
  cases hmem

/-- What is kept at all times is kept now. -/
theorem EditsKept.kept (h : EditsKept l s) : Kept l s := by
  cases l with
  | nil => exact fun name value htook => absurd htook not_took_nil
  | cons step l => exact h.1

end Weights

/-- What a thread has not sent it has not set: of two edits of a weight one is
the thread's own, and it comes now. -/
theorem not_took_of_reading {c₀ : C.SchedulerConfig} {l : ApiHistory C} {p : ApiPool C}
    (h : Run (schedulerApi C) (.idle c₀) l p) (hedits : DistinctEdits p) {k : Nat} {name : String}
    {value value' : F64} {read : C.SchedulerConfig} {q : Prog (schedulerSig C) (SchedulerReply C)}
    (hk : p.thread k = some (edit name value, q))
    (hcalls : l.calls k = [⟨.getSchedulerConfig, read⟩]) : ¬ Took l name value' := by
  rintro ⟨s, j, config, hmem⟩
  obtain ⟨q', hj⟩ := h.thread_of_call hmem
  obtain rfl := hedits.distinct j k name value' value q' q hj hk
  have hcall := History.mem_calls.mpr ⟨s, _, hmem⟩
  rw [hcalls, List.mem_singleton] at hcall
  cases hcall

/-! ## Fresh edits keep what is set -/

/-- The step: an edit that is fresh keeps the weights that were set. -/
theorem Kept.step (hone : C.SetsOne) {c₀ : C.SchedulerConfig} {l : ApiHistory C} {p p' : ApiPool C}
    {e : Event (schedulerSig C) SchedulerRequest} (h : Run (schedulerApi C) (.idle c₀) l p)
    (hs : Step (schedulerApi C) p e p') (hedits : DistinctEdits p') (hkept : Kept l p.state)
    (hfresh : Fresh l p.state e) : Kept ((p.state, e) :: l) p'.state := by
  intro name value htook
  cases step_effect h hs hedits with
  | quiet same other =>
    rw [same]
    exact hkept name value ((took_cons_of_quiet other).mp htook)
  | @took k name' value' read config q _ thread state calls set =>
    obtain ⟨hset, hothers⟩ := hone _ _ _ _ set
    rw [state]
    rcases took_cons_iff.mp htook with ⟨j, config', he⟩ | hbefore
    · cases he
      exact hset
    · have hne : name ≠ name' := by
        rintro rfl
        exact not_took_of_reading h (hedits.before hs) thread calls hbefore
      calc C.weight config name = C.weight read name := hothers name hne
        _ = C.weight p.state name :=
          (hfresh k name' value' config read rfl (calls ▸ List.mem_singleton_self _) name hne).symm
        _ = some value := hkept name value hbefore

/-- The run: fresh edits keep the weights that were set, at all times. -/
theorem editsKept_of_fresh (hone : C.SetsOne) {c₀ : C.SchedulerConfig} {l : ApiHistory C}
    {p : ApiPool C} (h : Run (schedulerApi C) (.idle c₀) l p) (hedits : DistinctEdits p)
    (hfresh : History.All Fresh l) : EditsKept l p.state := by
  induction h with
  | nil => exact trivial
  | cons hrun hs ih =>
    have hkept := ih (hedits.before hs) hfresh.2
    exact ⟨hkept.kept.step hone hrun hs hedits hfresh.1, hkept⟩

/-! ## Stale edits undo what is set -/

/-- A weight that nobody has set is as it was in the beginning, now and in all
that was read. -/
structure Untouched (c₀ : C.SchedulerConfig) (l : ApiHistory C) (s : C.SchedulerConfig) : Prop where
  now : ∀ name, (∀ value, ¬ Took l name value) → C.weight s name = C.weight c₀ name
  reads : ∀ k (read : C.SchedulerConfig), ⟨.getSchedulerConfig, read⟩ ∈ l.calls k →
    ∀ name, (∀ value, ¬ Took l name value) → C.weight read name = C.weight c₀ name

theorem Untouched.step (hone : C.SetsOne) {c₀ : C.SchedulerConfig} {l : ApiHistory C}
    {p p' : ApiPool C} {e : Event (schedulerSig C) SchedulerRequest}
    (h : Run (schedulerApi C) (.idle c₀) l p) (hs : Step (schedulerApi C) p e p')
    (hedits : DistinctEdits p') (huntouched : Untouched c₀ l p.state) :
    Untouched c₀ ((p.state, e) :: l) p'.state := by
  have hbefore : ∀ name, (∀ value, ¬ Took ((p.state, e) :: l) name value) →
      ∀ value, ¬ Took l name value :=
    fun name hnot value htook => hnot value (took_cons_iff.mpr (.inr htook))
  refine ⟨fun name hnot => ?_, fun k read hread name hnot => ?_⟩
  · cases step_effect h hs hedits with
    | quiet same other =>
      rw [same]
      exact huntouched.now name (hbefore name hnot)
    | @took k name' value' read config q _ thread state calls set =>
      have hne : name ≠ name' := by
        rintro rfl
        exact hnot value' (took_cons_iff.mpr (.inl ⟨k, config, rfl⟩))
      rw [state, (hone _ _ _ _ set).2 name hne]
      exact huntouched.reads k read (calls ▸ List.mem_singleton_self _) name (hbefore name hnot)
  · -- what was read before is as it was, and what is read now is the configuration
    obtain ⟨s, req, hmem⟩ := History.mem_calls.mp hread
    rcases List.mem_cons.mp hmem with heq | hmem
    · cases heq
      cases hs with
      | call at_call answered =>
        cases answered
        exact huntouched.now name (hbefore name hnot)
    · exact huntouched.reads k read (History.mem_calls.mpr ⟨s, req, hmem⟩) name (hbefore name hnot)

theorem untouched (hone : C.SetsOne) {c₀ : C.SchedulerConfig} {l : ApiHistory C} {p : ApiPool C}
    (h : Run (schedulerApi C) (.idle c₀) l p) (hedits : DistinctEdits p) :
    Untouched c₀ l p.state := by
  induction h with
  | nil =>
    refine ⟨fun name _ => rfl, fun k read hread => ?_⟩
    cases hread
  | cons hrun hs ih => exact (ih (hedits.before hs)).step hone hrun hs hedits

/-- The step: an edit that keeps the weights that were set is fresh. -/
theorem fresh_of_kept (hone : C.SetsOne) {c₀ : C.SchedulerConfig} {l : ApiHistory C}
    {p p' : ApiPool C} {e : Event (schedulerSig C) SchedulerRequest}
    (h : Run (schedulerApi C) (.idle c₀) l p) (hs : Step (schedulerApi C) p e p')
    (hedits : DistinctEdits p') (hbefore : Kept l p.state)
    (hafter : Kept ((p.state, e) :: l) p'.state) : Fresh l p.state e := by
  intro k name value config read he hread other hne
  have huntouched := untouched hone h (hedits.before hs)
  cases step_effect h hs hedits with
  | quiet same none => exact absurd he (none k name value config)
  | @took k' name' value' read' config' q _ thread state calls set =>
    cases he
    rw [calls, List.mem_singleton] at hread
    cases hread
    by_cases htook : ∃ value', Took l other value'
    · obtain ⟨value', htook⟩ := htook
      have hnow := hafter other value' (took_cons_iff.mpr (.inr htook))
      rw [state, (hone _ _ _ _ set).2 other hne] at hnow
      rw [hbefore other value' htook, hnow]
    · have hnot : ∀ value', ¬ Took l other value' := fun value' h' => htook ⟨value', h'⟩
      rw [huntouched.now other hnot, huntouched.reads k read (calls ▸ List.mem_singleton_self _) other hnot]

/-- The run: edits that keep the weights that were set are fresh. -/
theorem fresh_of_editsKept (hone : C.SetsOne) {c₀ : C.SchedulerConfig} {l : ApiHistory C}
    {p : ApiPool C} (h : Run (schedulerApi C) (.idle c₀) l p) (hedits : DistinctEdits p)
    (hkept : EditsKept l p.state) : History.All Fresh l := by
  induction h with
  | nil => exact trivial
  | cons hrun hs ih =>
    obtain ⟨hafter, hbefore⟩ := hkept
    exact ⟨fresh_of_kept hone hrun hs hedits (EditsKept.kept hbefore) hafter,
      ih (hedits.before hs) hbefore⟩

/-- An edit that was answered with a configuration was taken. -/
theorem took_of_answered {c₀ : C.SchedulerConfig} {l : ApiHistory C} {p : ApiPool C}
    (h : Run (schedulerApi C) (.idle c₀) l p) {k : Nat} {name : String} {value : F64}
    {config : C.SchedulerConfig}
    (hk : p.thread k = some (edit name value, .ret (.config config))) : Took l name value := by
  rcases edit_path (h.path hk) with ⟨-, hq⟩ | ⟨read, ⟨-, hq⟩ | ⟨sent, ans, hcalls, hq⟩⟩
  · cases hq
  · rcases hq with ⟨status, e, hq⟩ | ⟨sent, cont, -, hq⟩
    · cases hq
    · cases hq
  · rcases hq with ⟨status, e, hq⟩ | ⟨config', rfl, -⟩
    · cases hq
    · obtain ⟨s, req, hmem⟩ := History.mem_calls.mp (hcalls ▸ List.mem_cons_of_mem _ List.mem_cons_self)
      obtain ⟨q, hthread⟩ := h.thread_of_call hmem
      obtain rfl : req = edit name value := by
        cases hk.symm.trans hthread
        rfl
      obtain ⟨-, -, r, r', -, -, -, hstep, -⟩ := h.split hmem
      cases hstep with
      | call at_call answered =>
        cases answered
        exact ⟨s, k, _, hmem⟩

/-- EDITS ARE KEPT WHEN THEY ARE FRESH. In every run of edits of different
weights, no weight that was set is ever undone if and only if no edit was taken
that another had overtaken; and then each edit that was answered with a
configuration has its weight in the last one. -/
theorem edits_kept_iff (hone : C.SetsOne) {c₀ : C.SchedulerConfig} {l : ApiHistory C}
    {p : ApiPool C} (h : Run (schedulerApi C) (.idle c₀) l p) (hedits : DistinctEdits p) :
    (EditsKept l p.state ↔ History.All Fresh l) ∧
    (History.All Fresh l → ∀ k name value config,
      p.thread k = some (edit name value, .ret (.config config)) →
        C.weight p.state name = some value) := by
  refine ⟨⟨fresh_of_editsKept hone h hedits, editsKept_of_fresh hone h hedits⟩,
    fun hfresh k name value config hk => ?_⟩
  exact (editsKept_of_fresh hone h hedits hfresh).kept name value (took_of_answered h hk)

/-! ## Two edits -/

/-- Configurations that are weights and nothing else. -/
def plainCore : SchedulerCore where
  SchedulerConfig := String → F64
  fromStrategy _ := .error "unknown strategy"
  setWeight config name value := .ok (Function.update config name value)
  weight config name := some (config name)

theorem plainCore_setsOne : plainCore.SetsOne := by
  intro config name value config' h
  cases h
  exact ⟨congrArg some (Function.update_self ..),
    fun other hne => congrArg some (Function.update_of_ne hne ..)⟩

/-- All weights are zero. -/
def zeros : plainCore.SchedulerConfig := fun _ => ⟨0⟩

/-- One. -/
def one : F64 := ⟨0x3FF0000000000000⟩

/-- Two. -/
def two : F64 := ⟨0x4000000000000000⟩

/-- The zeros with one weight. -/
def withCpu : plainCore.SchedulerConfig := Function.update zeros "cpu" one

/-- The zeros with another weight. -/
def withMemory : plainCore.SchedulerConfig := Function.update zeros "memory" two

/-- Both weights. -/
def withBoth : plainCore.SchedulerConfig := Function.update withCpu "memory" two

/-- Two edits of different weights, and no other request. -/
private theorem distinctEdits_of_two {p : ApiPool plainCore}
    {q₀ q₁ : Prog (schedulerSig plainCore) (SchedulerReply plainCore)}
    (h₀ : p.thread 0 = some (edit "cpu" one, q₀)) (h₁ : p.thread 1 = some (edit "memory" two, q₁))
    (hnone : ∀ k, k ≠ 0 → k ≠ 1 → p.thread k = none) : DistinctEdits p := by
  have hthread : ∀ k req q, p.thread k = some (req, q) →
      (k = 0 ∧ req = edit "cpu" one) ∨ (k = 1 ∧ req = edit "memory" two) := by
    intro k req q hk
    by_cases hk₀ : k = 0
    · subst hk₀
      cases h₀.symm.trans hk
      exact .inl ⟨rfl, rfl⟩
    · by_cases hk₁ : k = 1
      · subst hk₁
        cases h₁.symm.trans hk
        exact .inr ⟨rfl, rfl⟩
      · cases (hnone k hk₀ hk₁).symm.trans hk
  have hapart : ∀ {name : String} {value value' : F64}, edit name value = edit "cpu" one →
      edit name value' ≠ edit "memory" two := by
    intro name value value' hcpu
    cases hcpu
    exact edit_ne (by decide)
  refine ⟨fun k req q hk => ?_, fun j k name value value' q q' hj hk => ?_⟩
  · rcases hthread k req q hk with ⟨-, rfl⟩ | ⟨-, rfl⟩
    · exact .inr ⟨_, _, rfl⟩
    · exact .inr ⟨_, _, rfl⟩
  · rcases hthread j _ q hj with ⟨rfl, hcpu⟩ | ⟨rfl, hmemory⟩
    · rcases hthread k _ q' hk with ⟨rfl, -⟩ | ⟨rfl, hmemory⟩
      · rfl
      · exact absurd hmemory (hapart hcpu)
    · rcases hthread k _ q' hk with ⟨rfl, hcpu⟩ | ⟨rfl, -⟩
      · exact absurd hmemory (hapart hcpu)
      · rfl

/-- The second edit comes after the first has ended. -/
def inTurn : ApiHistory plainCore :=
  [(withCpu, taken 1 "memory" two withBoth),
    (withCpu, .call 1 (edit "memory" two) .getSchedulerConfig withCpu),
    (withCpu, .arrive 1 (edit "memory" two)),
    (zeros, taken 0 "cpu" one withCpu),
    (zeros, .call 0 (edit "cpu" one) .getSchedulerConfig zeros),
    (zeros, .arrive 0 (edit "cpu" one))]

private theorem inTurn_fresh : History.All Fresh inTurn := by
  refine ⟨?_, ?_, ?_, ?_, ?_, ?_, trivial⟩
  · intro k name value config read he hread other _
    cases he
    cases List.mem_singleton.mp hread
    rfl
  · intro k name value config read he
    cases he
  · intro k name value config read he
    cases he
  · intro k name value config read he hread other _
    cases he
    cases List.mem_singleton.mp hread
    rfl
  · intro k name value config read he
    cases he
  · intro k name value config read he
    cases he

theorem edits_kept_iff_in_turn : ∃ p, Run (schedulerApi plainCore) (.idle zeros) inTurn p ∧
    EditsKept inTurn p.state ∧ plainCore.weight p.state "cpu" = some one ∧
    plainCore.weight p.state "memory" = some two := by
  have hrun := (Run.start (schedulerApi plainCore) (.idle zeros)).arrive 0 (edit "cpu" one) rfl trivial
    |>.call 0 rfl .get |>.call 0 rfl (.set withCpu)
    |>.arrive 1 (edit "memory" two) rfl trivial |>.call 1 rfl .get |>.call 1 rfl (.set withBoth)
  have hedits := edits_kept_iff plainCore_setsOne hrun
    (distinctEdits_of_two rfl rfl fun k h₀ h₁ => by simp [Pool.set, Pool.idle, h₀, h₁])
  exact ⟨_, hrun, hedits.1.mpr inTurn_fresh, hedits.2 inTurn_fresh 0 "cpu" one _ rfl,
    hedits.2 inTurn_fresh 1 "memory" two _ rfl⟩

/-- Both edits read before either is sent back: the second undoes the first,
and both are answered well. -/
theorem stale_edit_undoes_weight : plainCore.SetsOne ∧
    ∃ l p, Run (schedulerApi plainCore) (.idle zeros) l p ∧ DistinctEdits p ∧
      p.thread 0 = some (edit "cpu" one, .ret (.config withCpu)) ∧
      p.thread 1 = some (edit "memory" two, .ret (.config withMemory)) ∧
      plainCore.weight p.state "cpu" = some ⟨0⟩ := by
  have hrun := (Run.start (schedulerApi plainCore) (.idle zeros)).arrive 0 (edit "cpu" one) rfl trivial
    |>.arrive 1 (edit "memory" two) rfl trivial |>.call 0 rfl .get |>.call 1 rfl .get
    |>.call 0 rfl (.set withCpu) |>.call 1 rfl (.set withMemory)
  exact ⟨plainCore_setsOne, _, _, hrun,
    distinctEdits_of_two rfl rfl fun k h₀ h₁ => by simp [Pool.set, Pool.idle, h₀, h₁], rfl, rfl, rfl⟩

end Nexad.Api
