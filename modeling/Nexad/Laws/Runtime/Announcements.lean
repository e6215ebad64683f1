import Nexad.Laws.Runtime.EventWatcher

/-!
# The three views of a stream

The daemon's watcher counts each event, announces it, and sends the command it
may cost, in this order. Wherever its reading of a stream is cut off, what is
counted, announced and commanded are the first events of the stream, and the
three differ by the one event in hand at most; it stops where the stream ends, or
at a command that is refused (`handleEventStream_views`).
-/

namespace Nexad.Runtime

open Interleave

/-- The watcher of the daemon, with metrics and a channel. -/
def daemonWatcher : Watcher := ⟨true, true⟩

/-- The kind that an event is counted as. -/
def kindOf : RuntimeEvent → String
  | .containerDied .. => "died"
  | .containerOom _ => "oom"
  | .containerStarted _ => "started"

/-- What is announced of an event. -/
def announcement (timestamp : DateTime) : RuntimeEvent → ClusterEvent
  | .containerDied containerId exitCode => ⟨timestamp, "pod", containerId,
      if exitCode = 137 then "OOMKilled" else "died", s!"Container exited with code {exitCode}"⟩
  | .containerOom containerId =>
    ⟨timestamp, "pod", containerId, "OOMKilled", "Container killed by OOM"⟩
  | .containerStarted containerId => ⟨timestamp, "pod", containerId, "started", "Container started"⟩

/-- The announcement is that of the event, at some time. -/
def Announces (event : RuntimeEvent) (announced : ClusterEvent) : Prop :=
  announced = announcement announced.timestamp event

/-- The kind that a call counts. -/
def WatchCall.recorded : WatchCall → Option String
  | ⟨.recordContainerEvent kind, _⟩ => some kind
  | _ => none

/-- What a call announces. -/
def WatchCall.announced : WatchCall → Option ClusterEvent
  | ⟨.broadcast event, _⟩ => some event
  | _ => none

/-- The kinds counted among the calls of a watcher. -/
def records (calls : List WatchCall) : List String := calls.filterMap WatchCall.recorded

/-- The announcements among the calls of a watcher. -/
def announcements (calls : List WatchCall) : List ClusterEvent := calls.filterMap WatchCall.announced

/-- How many of the events have been counted, announced and commanded. -/
structure Views (D : Domain) (events : List RuntimeEvent) (calls : List WatchCall)
    (counted announced commanded : Nat) : Prop where
  commanded_le : commanded ≤ announced
  announced_le : announced ≤ counted
  counted_le : counted ≤ commanded + 1
  within : counted ≤ events.length
  counts : records calls = (events.take counted).map kindOf
  announces : List.Forall₂ Announces (events.take announced) (announcements calls)
  commands : sends calls = (events.take commanded).filterMap (commandOf D)

variable {D : Domain} {event : RuntimeEvent} {events : List RuntimeEvent} {calls : List WatchCall}
  {q : Prog watchSig Unit}

theorem Views.nil (events : List RuntimeEvent) : Views D events [] 0 0 0 where
  commanded_le := Nat.le_refl 0
  announced_le := Nat.le_refl 0
  counted_le := Nat.zero_le 1
  within := Nat.zero_le _
  counts := rfl
  announces := .nil
  commands := rfl

/-- The calls that one event costs, as far as they concern the command. -/
def eventCalls (event : RuntimeEvent) (timestamp : DateTime) (commanding : List WatchCall) :
    List WatchCall :=
  ⟨.recordContainerEvent (kindOf event), ()⟩ :: ⟨.now, timestamp⟩ ::
    ⟨.broadcast (announcement timestamp event), ()⟩ :: commanding

theorem announces_announcement (timestamp : DateTime) (event : RuntimeEvent) :
    Announces event (announcement timestamp event) := by
  cases event <;> rfl

/-- The views of a stream whose first event is done with. -/
theorem Views.cons {counted announced commanded : Nat} (h : Views D events calls counted announced commanded)
    (timestamp : DateTime) {commanding : List WatchCall} (hrecords : records commanding = [])
    (hannounces : announcements commanding = []) (hsends : sends commanding = (commandOf D event).toList) :
    Views D (event :: events) (eventCalls event timestamp (commanding ++ calls)) (counted + 1)
      (announced + 1) (commanded + 1) where
  commanded_le := Nat.succ_le_succ h.commanded_le
  announced_le := Nat.succ_le_succ h.announced_le
  counted_le := Nat.succ_le_succ h.counted_le
  within := Nat.succ_le_succ h.within
  counts := by
    have hrest : records (commanding ++ calls) = (events.take counted).map kindOf := by
      rw [records, List.filterMap_append, ← records, ← records, hrecords, h.counts, List.nil_append]
    rw [List.take_succ_cons, List.map_cons, ← hrest]
    rfl
  announces := by
    have hrest : announcements (commanding ++ calls) = announcements calls := by
      rw [announcements, List.filterMap_append, ← announcements, ← announcements, hannounces,
        List.nil_append]
    refine List.Forall₂.cons (announces_announcement timestamp event) ?_
    exact (congrArg (List.Forall₂ Announces (events.take announced)) hrest).mpr h.announces
  commands := by
    have hrest : sends (commanding ++ calls) =
        (commandOf D event).toList ++ (events.take commanded).filterMap (commandOf D) := by
      rw [sends, List.filterMap_append, ← sends, ← sends, hsends, h.commands]
    refine hrest.trans ?_
    rw [List.take_succ_cons, List.filterMap_cons]
    cases commandOf D event <;> rfl

/-- An event with its command, and then the rest of the stream. -/
def command (D : Domain) (event : RuntimeEvent) (rest : Prog watchSig Unit) : Prog watchSig Unit :=
  match commandOf D event with
  | none => rest
  | some cmd => .call (.send cmd) fun (closed : Bool) => if closed then .ret () else rest

theorem report_eq (containerId : String) (exitCode : Int64) (rest : Prog watchSig Unit) :
    Watcher.report D containerId exitCode rest =
      command D (.containerDied containerId exitCode) rest := by
  unfold Watcher.report command
  rw [commandOf]
  cases Watcher.extractPodId D containerId <;> rfl

/-- One event of a stream: counted, announced, commanded. -/
theorem handleEventStream_eq (event : RuntimeEvent) (events : List RuntimeEvent) :
    daemonWatcher.handleEventStream D (event :: events) =
      .call (.recordContainerEvent (kindOf event)) fun _ => .call .now fun (timestamp : DateTime) =>
        .call (.broadcast (announcement timestamp event)) fun _ =>
          command D event (daemonWatcher.handleEventStream D events) := by
  cases event with
  | containerDied containerId exitCode =>
    rw [Watcher.handleEventStream, report_eq]
    rfl
  | containerOom containerId =>
    rw [Watcher.handleEventStream, report_eq]
    rfl
  | containerStarted => rfl

/-- The calls of one event come before those of its command and of the rest. -/
theorem event_path (timestamp : DateTime)
    (h : (command D event (daemonWatcher.handleEventStream D events)).Path calls q) :
    (daemonWatcher.handleEventStream D (event :: events)).Path (eventCalls event timestamp calls) q := by
  rw [handleEventStream_eq]
  exact .call _ (.call _ (.call _ h))

/-- The last call is a command that was refused. -/
def Refused (calls : List WatchCall) : Prop := ∃ cmd, calls.getLast? = some ⟨.send cmd, true⟩

theorem Refused.append (h : Refused calls) (before : List WatchCall) : Refused (before ++ calls) := by
  obtain ⟨cmd, hlast⟩ := h
  exact ⟨cmd, by rw [List.getLast?_append, hlast, Option.some_or]⟩

/-- The rest of a stream, begun after the command of an event. -/
inductive Commanded (D : Domain) (event : RuntimeEvent) (rest q : Prog watchSig Unit) :
    List WatchCall → Prop
  | waits {cmd : Command} {k : Bool → Prog watchSig Unit} (of_event : commandOf D event = some cmd)
      (at_send : q = .call (.send cmd) k) : Commanded D event rest q []
  | refused {cmd : Command} (of_event : commandOf D event = some cmd) (stopped : q = .ret ()) :
      Commanded D event rest q [⟨.send cmd, true⟩]
  | goes_on {commanding calls : List WatchCall} (hrecords : records commanding = [])
      (hannounces : announcements commanding = [])
      (hsends : sends commanding = (commandOf D event).toList) (path : rest.Path calls q) :
      Commanded D event rest q (commanding ++ calls)

theorem command_path {rest : Prog watchSig Unit} (h : (command D event rest).Path calls q) :
    Commanded D event rest q calls := by
  unfold command at h
  cases hcmd : commandOf D event with
  | none =>
    simp only [hcmd] at h
    have hnothing : sends [] = (commandOf D event).toList := by
      rw [hcmd]
      rfl
    exact .goes_on rfl rfl hnothing h
  | some cmd =>
    simp only [hcmd] at h
    cases h with
    | refl => exact .waits hcmd rfl
    | call ans hrest =>
      match ans with
      | true =>
        cases hrest
        exact .refused hcmd rfl
      | false =>
        have hsent : sends [⟨.send cmd, false⟩] = (commandOf D event).toList := by
          rw [hcmd]
          rfl
        exact .goes_on rfl rfl hsent hrest

/-- The events that have been counted, announced and commanded when the reading of a
stream is cut off anywhere; and when it has come to its end, all of them, or those
up to a command that was refused. -/
theorem handleEventStream_views (h : (daemonWatcher.handleEventStream D events).Path calls q) :
    ∃ counted announced commanded, Views D events calls counted announced commanded ∧
      (q = .ret () → counted = commanded ∧ (commanded = events.length ∨ Refused calls)) := by
  induction events generalizing calls with
  | nil =>
    cases h
    exact ⟨0, 0, 0, .nil [], fun _ => ⟨rfl, .inl rfl⟩⟩
  | cons event events ih =>
    rw [handleEventStream_eq] at h
    cases h with
    | refl => exact ⟨0, 0, 0, .nil _, fun hret => by cases hret⟩
    | call _ h =>
      cases h with
      | refl => exact ⟨1, 0, 0, ⟨le_rfl, Nat.zero_le 1, le_rfl, Nat.succ_pos _, rfl, .nil, rfl⟩,
        fun hret => by cases hret⟩
      | call timestamp h =>
        cases h with
        | refl => exact ⟨1, 0, 0, ⟨le_rfl, Nat.zero_le 1, le_rfl, Nat.succ_pos _, rfl, .nil, rfl⟩,
          fun hret => by cases hret⟩
        | call _ h =>
          cases command_path h with
          | waits hcmd hq =>
            refine ⟨1, 1, 0, ⟨Nat.zero_le 1, le_rfl, le_rfl, Nat.succ_pos _, rfl, ?_, rfl⟩,
              fun hret => by cases hq.symm.trans hret⟩
            exact .cons (announces_announcement timestamp event) .nil
          | @refused cmd hcmd _ =>
            have hsent : sends [⟨.send cmd, true⟩] = (commandOf D event).toList := by
              rw [hcmd]
              rfl
            exact ⟨1, 1, 1, (Views.nil events).cons timestamp rfl rfl hsent,
              fun _ => ⟨rfl, .inr ⟨cmd, rfl⟩⟩⟩
          | goes_on hrecords hannounces hsends hpath =>
            obtain ⟨counted, announced, commanded, hviews, hend⟩ := ih hpath
            refine ⟨_, _, _, hviews.cons timestamp hrecords hannounces hsends, fun hret => ?_⟩
            obtain ⟨heq, hall⟩ := hend hret
            exact ⟨congrArg (· + 1) heq, hall.imp (congrArg (· + 1)) fun hrefused =>
              hrefused.append (_ :: _ :: _ :: _)⟩

/-- A pod that starts, and one that is killed for its memory. -/
def startAndKill : List RuntimeEvent :=
  [.containerStarted (Domain.plain.uuid.print ⟨1⟩), .containerOom (Domain.plain.uuid.print ⟨2⟩),
    .containerDied (Domain.plain.uuid.print ⟨2⟩) 137]

/-- What the watcher does when the orchestrator takes no command any more. -/
def startAndKillCalls : List WatchCall :=
  eventCalls (.containerStarted (Domain.plain.uuid.print ⟨1⟩)) 0
    (eventCalls (.containerOom (Domain.plain.uuid.print ⟨2⟩)) 1 [⟨.send (.containerExited ⟨2⟩ 137), true⟩])

/-- The death after the lack of memory is not read: the command before it was refused. -/
theorem handleEventStream_views_refused :
    (daemonWatcher.handleEventStream Domain.plain startAndKill).Path startAndKillCalls (.ret ()) ∧
    ∃ counted announced commanded, Views Domain.plain startAndKill startAndKillCalls counted announced commanded ∧
      counted = commanded ∧ (commanded = startAndKill.length ∨ Refused startAndKillCalls) := by
  have hcommand : commandOf Domain.plain (.containerOom (Domain.plain.uuid.print ⟨2⟩)) =
      some (.containerExited ⟨2⟩ 137) := rfl
  have hrefused : ∀ rest, (command Domain.plain (.containerOom (Domain.plain.uuid.print ⟨2⟩)) rest).Path
      [⟨.send (.containerExited ⟨2⟩ 137), true⟩] (.ret ()) := by
    intro rest
    unfold command
    rw [hcommand]
    exact .call _ (.refl _)
  have hpath : (daemonWatcher.handleEventStream Domain.plain startAndKill).Path startAndKillCalls (.ret ()) :=
    event_path 0 (event_path 1 (hrefused _))
  obtain ⟨counted, announced, commanded, hviews, hend⟩ := handleEventStream_views hpath
  exact ⟨hpath, counted, announced, commanded, hviews, hend rfl⟩

end Nexad.Runtime
