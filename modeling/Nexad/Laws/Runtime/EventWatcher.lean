import Nexad.Runtime.EventWatcher

/-!
# What the watcher sends

One event costs at most one command (`commandOf`); counting and announcing it
send nothing. While the orchestrator takes commands, a stream is answered with
the commands of its events, in order (`handleEventStream_sends`).
-/

namespace Nexad.Runtime

open Interleave

/-- A call of the watcher with its answer. -/
abbrev WatchCall := (op : watchSig.Op) × watchSig.Ans op

/-- The command that a call sends. -/
def WatchCall.command : WatchCall → Option Command
  | ⟨.send cmd, _⟩ => some cmd
  | _ => none

/-- The commands among the calls of a watcher. -/
def sends (calls : List WatchCall) : List Command := calls.filterMap WatchCall.command

/-- The orchestrator took every command. -/
def ChannelOpen (calls : List WatchCall) : Prop := ∀ cmd, ⟨.send cmd, true⟩ ∉ calls

/-- The command that an event is answered with. -/
def commandOf (D : Domain) : RuntimeEvent → Option Command
  | .containerDied containerId exitCode =>
    (Watcher.extractPodId D containerId).map (.containerExited · exitCode)
  | .containerOom containerId =>
    (Watcher.extractPodId D containerId).map (.containerExited · 137)
  | .containerStarted _ => none

theorem ChannelOpen.tail {call : WatchCall} {calls : List WatchCall}
    (h : ChannelOpen (call :: calls)) : ChannelOpen calls :=
  fun cmd hmem => h cmd (List.mem_cons_of_mem _ hmem)

namespace Watcher

variable {D : Domain} {self : Watcher} {rest : Prog watchSig Unit} {calls : List WatchCall}

/-- Calls that begin with these commands and go on as the program `rest`. -/
def Sends (cmds : List Command) (rest : Prog watchSig Unit) (calls : List WatchCall) : Prop :=
  ∃ later, rest.Trace later () ∧ ChannelOpen later ∧ sends calls = cmds ++ sends later

theorem record_sends {kind : String} (h : (self.record kind rest).Trace calls ())
    (hopen : ChannelOpen calls) : Sends [] rest calls := by
  unfold record at h
  split at h
  · cases h with
    | call _ hrest => exact ⟨_, hrest, hopen.tail, rfl⟩
  · exact ⟨calls, h, hopen, rfl⟩

theorem announce_sends {name action message : String}
    (h : (self.announce name action message rest).Trace calls ()) (hopen : ChannelOpen calls) :
    Sends [] rest calls := by
  unfold announce at h
  split at h
  · cases h with
    | call _ hlater =>
      cases hlater with
      | call _ hrest => exact ⟨_, hrest, hopen.tail.tail, rfl⟩
  · exact ⟨calls, h, hopen, rfl⟩

theorem report_sends {containerId : String} {exitCode : Int64}
    (h : (report D containerId exitCode rest).Trace calls ()) (hopen : ChannelOpen calls) :
    Sends ((extractPodId D containerId).map (Command.containerExited · exitCode)).toList rest
      calls := by
  unfold report at h
  cases hid : extractPodId D containerId with
  | none =>
    simp only [hid] at h
    exact ⟨calls, h, hopen, rfl⟩
  | some podId =>
    simp only [hid] at h
    cases h with
    | @call _ _ later _ closed hrest =>
      have hclosed : closed = false := by
        cases closed with
        | false => rfl
        | true => exact absurd List.mem_cons_self (hopen _)
      subst hclosed
      exact ⟨later, hrest, hopen.tail, rfl⟩

/-- An exit that is counted and announced costs its command. -/
theorem exit_sends {kind containerId action message : String} {exitCode : Int64}
    (h : (self.record kind <| self.announce containerId action message <|
      report D containerId exitCode rest).Trace calls ()) (hopen : ChannelOpen calls) :
    Sends ((extractPodId D containerId).map (Command.containerExited · exitCode)).toList rest
      calls := by
  obtain ⟨l₁, h₁, hopen₁, hsends₁⟩ := record_sends h hopen
  obtain ⟨l₂, h₂, hopen₂, hsends₂⟩ := announce_sends h₁ hopen₁
  obtain ⟨l₃, h₃, hopen₃, hsends₃⟩ := report_sends h₂ hopen₂
  exact ⟨l₃, h₃, hopen₃, by rw [hsends₁, hsends₂, hsends₃]; rfl⟩

/-- One event: its command, and the rest of the stream. -/
theorem handleEventStream_cons {event : RuntimeEvent} {events : List RuntimeEvent}
    (h : (self.handleEventStream D (event :: events)).Trace calls ())
    (hopen : ChannelOpen calls) :
    Sends (commandOf D event).toList (self.handleEventStream D events) calls := by
  cases event with
  | containerDied containerId exitCode => exact exit_sends h hopen
  | containerOom containerId => exact exit_sends h hopen
  | containerStarted containerId =>
    obtain ⟨l₁, h₁, hopen₁, hsends₁⟩ := record_sends h hopen
    obtain ⟨l₂, h₂, hopen₂, hsends₂⟩ := announce_sends h₁ hopen₁
    exact ⟨l₂, h₂, hopen₂, by rw [hsends₁, hsends₂]; rfl⟩

/-- While the orchestrator takes commands, a stream costs the commands of its events. -/
theorem handleEventStream_sends {events : List RuntimeEvent}
    (h : (self.handleEventStream D events).Trace calls ()) (hopen : ChannelOpen calls) :
    sends calls = events.filterMap (commandOf D) := by
  induction events generalizing calls with
  | nil =>
    cases h
    rfl
  | cons event events ih =>
    obtain ⟨later, hlater, hlaterOpen, hsends⟩ := handleEventStream_cons h hopen
    rw [hsends, ih hlater hlaterOpen, List.filterMap_cons]
    cases commandOf D event with
    | none => rfl
    | some cmd => rfl

/-- A program that sends nothing of its own, or is not refused, goes on. -/
private theorem report_runs (containerId : String) (exitCode : Int64)
    (h : ∃ later, rest.Trace later () ∧ ChannelOpen later) :
    ∃ calls, (report D containerId exitCode rest).Trace calls () ∧ ChannelOpen calls := by
  obtain ⟨later, hlater, hopen⟩ := h
  unfold report
  split
  · exact ⟨later, hlater, hopen⟩
  · next podId _ =>
    refine ⟨_, @Prog.Trace.call watchSig Unit (.send (.containerExited podId exitCode))
      (fun (closed : Bool) => if closed then .ret () else rest) later () false hlater,
      fun cmd hmem => ?_⟩
    rcases List.mem_cons.mp hmem with heq | hmem
    · cases heq
    · exact hopen cmd hmem

private theorem noted_runs (kind name action message : String)
    (h : ∃ later, rest.Trace later () ∧ ChannelOpen later) :
    ∃ calls, (self.record kind <| self.announce name action message rest).Trace calls () ∧
      ChannelOpen calls := by
  have hannounce : ∃ calls, (self.announce name action message rest).Trace calls () ∧
      ChannelOpen calls := by
    obtain ⟨later, hlater, hopen⟩ := h
    unfold announce
    split
    · refine ⟨_, .call (0 : Int) (.call () hlater), fun cmd hmem => hopen cmd ?_⟩
      simpa using hmem
    · exact ⟨later, hlater, hopen⟩
  obtain ⟨later, hlater, hopen⟩ := hannounce
  unfold record
  split
  · refine ⟨_, .call () hlater, fun cmd hmem => hopen cmd ?_⟩
    simpa using hmem
  · exact ⟨later, hlater, hopen⟩

/-- The watcher comes to the end of every stream while its commands are taken. -/
theorem handleEventStream_runs (events : List RuntimeEvent) :
    ∃ calls, (self.handleEventStream D events).Trace calls () ∧ ChannelOpen calls := by
  induction events with
  | nil => exact ⟨[], .ret (), fun _ h => by cases h⟩
  | cons event events ih =>
    cases event with
    | containerDied containerId exitCode => exact noted_runs _ _ _ _ (report_runs _ _ ih)
    | containerOom containerId => exact noted_runs _ _ _ _ (report_runs _ _ ih)
    | containerStarted containerId => exact noted_runs _ _ _ _ ih

/-! ## The exits of one pod -/

/-- The command reports an exit of the pod. -/
def exitOf (podId : Uuid) : Command → Bool
  | .containerExited id _ => id = podId

/-- The event is the death of the pod's container. -/
def deathOf (D : Domain) (podId : Uuid) : RuntimeEvent → Bool
  | .containerDied containerId _ => extractPodId D containerId = some podId
  | _ => false

/-- The event says that the pod's container ran out of memory. -/
def oomOf (D : Domain) (podId : Uuid) : RuntimeEvent → Bool
  | .containerOom containerId => extractPodId D containerId = some podId
  | _ => false

/-- One event costs a report for the pod if it is one of the two. -/
theorem commandOf_exitOf (podId : Uuid) (event : RuntimeEvent) :
    (commandOf D event).toList.countP (exitOf podId) =
      [event].countP (deathOf D podId) + [event].countP (oomOf D podId) := by
  have hreport : ∀ (containerId : String) (code : Int64),
      ((extractPodId D containerId).map (Command.containerExited · code)).toList.countP
        (exitOf podId) = if extractPodId D containerId = some podId then 1 else 0 := by
    intro containerId code
    cases extractPodId D containerId with
    | none => rfl
    | some id => simp [List.countP_cons, exitOf]
  cases event with
  | containerDied containerId code =>
    rw [commandOf, hreport]
    simp [List.countP_cons, deathOf, oomOf]
  | containerOom containerId =>
    rw [commandOf, hreport]
    simp [List.countP_cons, deathOf, oomOf]
  | containerStarted containerId => rfl

/-- While commands are taken, a pod's exit is reported once for each death and
once for each lack of memory, so once for each death where there was no other. -/
theorem exits_reported {events : List RuntimeEvent}
    (h : (self.handleEventStream D events).Trace calls ()) (hopen : ChannelOpen calls)
    (podId : Uuid) :
    (sends calls).countP (exitOf podId) =
        events.countP (deathOf D podId) + events.countP (oomOf D podId) ∧
      ((sends calls).countP (exitOf podId) = events.countP (deathOf D podId) ↔
        ∀ event ∈ events, oomOf D podId event = false) := by
  have hcount : (sends calls).countP (exitOf podId) =
      events.countP (deathOf D podId) + events.countP (oomOf D podId) := by
    rw [handleEventStream_sends h hopen]
    clear h
    induction events with
    | nil => rfl
    | cons event events ih =>
      have hhead : (event :: events).filterMap (commandOf D) =
          (commandOf D event).toList ++ events.filterMap (commandOf D) := by
        rw [List.filterMap_cons]
        cases commandOf D event <;> rfl
      have hcons : ∀ p : RuntimeEvent → Bool,
          (event :: events).countP p = [event].countP p + events.countP p := by
        intro p
        rw [← List.countP_append, List.singleton_append]
      rw [hhead, List.countP_append, ih, commandOf_exitOf, hcons, hcons]
      omega
  refine ⟨hcount, ?_⟩
  rw [hcount, Nat.add_eq_left, List.countP_eq_zero]
  simp only [Bool.not_eq_true]

/-- What Docker reports when a pod's container is killed for its memory. -/
def oomKill : List RuntimeEvent :=
  [.containerOom (Domain.plain.uuid.print ⟨2⟩), .containerDied (Domain.plain.uuid.print ⟨2⟩) 137]

private theorem oomKill_runs : ∃ calls,
    ((Watcher.mk false false).handleEventStream Domain.plain oomKill).Trace calls () ∧
      ChannelOpen calls := handleEventStream_runs oomKill

/-- One death, and two reports. -/
theorem exits_reported_twice : ∃ calls,
    ((Watcher.mk false false).handleEventStream Domain.plain oomKill).Trace calls () ∧
    ChannelOpen calls ∧ (sends calls).countP (exitOf ⟨2⟩) = 2 ∧
    oomKill.countP (deathOf Domain.plain ⟨2⟩) = 1 := by
  obtain ⟨calls, h, hopen⟩ := oomKill_runs
  refine ⟨calls, h, hopen, ?_, rfl⟩
  rw [handleEventStream_sends h hopen]
  rfl

theorem exits_reported_oomKill : ∃ calls,
    ((Watcher.mk false false).handleEventStream Domain.plain oomKill).Trace calls () ∧
    (sends calls).countP (exitOf ⟨2⟩) = 1 + 1 := by
  obtain ⟨calls, h, hopen⟩ := oomKill_runs
  exact ⟨calls, h, (exits_reported h hopen ⟨2⟩).1⟩

end Watcher

end Nexad.Runtime
