import Nexad.Laws.Core.Uuid
import Nexad.Laws.Runtime.EventWatcher
import Nexad.Laws.Transport.AssignPod
import Nexad.Runtime.Containerd
import Nexad.Runtime.Docker

/-!
# How the end of a pod's container is reported

The watcher takes the `container_id` of an event for the id of a pod. Docker's
events carry the labels that the assignment gave the container, its pod's id
among them, and `DockerRuntime` reports that label. An event of containerd
carries the container's name, which `ContainerdRuntime` chose after the
configuration: no identifier, so the watcher drops the event
(`exit_reported_iff`).

`ContainerRuntime.ExitOf` says what a daemon tells about an exit. Docker copies labels
and exit code into the attributes of a `die` event; `ctr events` prints a line
with topic and payload, the container's id first under `container_id`, and an
exit status other than 0 under `exit_status`.
-/

namespace Nexad.Runtime

open Interleave

/-- The runtimes that a daemon is built with. -/
inductive ContainerRuntime where
  | docker
  | containerd (self : ContainerdRuntime)
  deriving DecidableEq, Repr

namespace ContainerRuntime

/-- What comes in over a runtime's event stream. -/
abbrev Raw : ContainerRuntime → Type
  | docker => Except String EventMessage
  | containerd _ => Except String String

/-- The event of one report. -/
def toEvent : (R : ContainerRuntime) → R.Raw → Option RuntimeEvent
  | docker, raw => DockerRuntime.toEvent raw
  | containerd _, raw => ContainerdRuntime.toEvent raw

/-- `events` opened a stream over which these reports come in as these events. -/
inductive Streams : (R : ContainerRuntime) → List R.Raw → List RuntimeEvent → Prop where
  | docker {options : EventsOptions} {stream : List (Except String EventMessage)}
      {events : List RuntimeEvent}
      (opened : DockerRuntime.events.Trace [⟨.events options, stream⟩] (.ok events)) :
      Streams .docker stream events
  | containerd {self : ContainerdRuntime} {args : List String}
      {lines : List (Except String String)} {events : List RuntimeEvent}
      (opened : self.events.Trace [⟨.spawn args, .ok (some lines)⟩] (.ok events)) :
      Streams (.containerd self) lines events

/-- A stream's events are those of its reports. -/
theorem Streams.events_eq {R : ContainerRuntime} {reports : List R.Raw} {events : List RuntimeEvent}
    (h : R.Streams reports events) : events = reports.filterMap R.toEvent := by
  cases h with
  | docker opened =>
    cases opened with
    | call _ rest =>
      cases rest
      rfl
  | containerd opened =>
    cases opened with
    | call _ rest =>
      cases rest
      rfl

/-- Any reports may come in over a stream. -/
theorem Streams.of_reports {R : ContainerRuntime} (reports : List R.Raw) :
    R.Streams reports (reports.filterMap R.toEvent) := by
  cases R with
  | docker =>
    have opened : DockerRuntime.events.Trace [⟨.events DockerRuntime.eventsOptions, reports⟩]
        (.ok (reports.filterMap DockerRuntime.toEvent)) := by
      unfold DockerRuntime.events
      exact .call _ (.ret _)
    exact .docker opened
  | containerd self =>
    have opened : self.events.Trace
        [⟨.spawn ["--namespace", self.nspace, "events"], .ok (some reports)⟩]
        (.ok (reports.filterMap ContainerdRuntime.toEvent)) := by
      unfold ContainerdRuntime.events
      exact .call _ (.ret _)
    exact .containerd opened

end ContainerRuntime

/-- A line of `ctr events` about the exit of a container. -/
structure ExitLine (containerId : String) (code : Int64) (line : String) : Prop where
  topic : Text.contains "/tasks/exit".toList line.toList = true
  container : ∃ head tail, line.toList =
    head ++ '"' :: ("container_id".toList ++ '"' :: (":".toList ++ '"' ::
      (containerId.toList ++ '"' :: tail))) ∧
    Text.contains "container_id".toList head = false
  status : code = 0 ∨ ∃ head tail, line.toList =
    head ++ ("\"exit_status\":".toList ++ (Text.decimal code.toInt ++ tail)) ∧
    tail.head? ∈ [some ',', some '}']

/-- A line as `ctr events` prints it: a time stamp, the namespace, the topic,
and the payload with `fields` between the container's id and the exit status. -/
def exitLine (stamp containerId fields : String) (code : Int64) (rest : String) : String :=
  stamp ++ " nexa /tasks/exit " ++ "\x7b\"container_id\":\"" ++ containerId ++ "\"," ++ fields ++
    "\"exit_status\":" ++ String.ofList (Text.decimal code.toInt) ++ "," ++ rest

/-- The printed line is one about the exit, whatever the container is called. -/
theorem exitLine_exit {stamp containerId fields rest : String} {code : Int64}
    (hstamp : Text.contains "container_id".toList
      (stamp.toList ++ " nexa /tasks/exit \x7b".toList) = false) :
    ExitLine containerId code (exitLine stamp containerId fields code rest) where
  topic := by
    have htopic : " nexa /tasks/exit ".toList = " nexa ".toList ++ ("/tasks/exit".toList ++ [' ']) :=
      by decide
    simp only [exitLine, String.toList_append, htopic, List.append_assoc]
    rw [← List.append_assoc]
    exact Text.contains_append _ _ _
  container := by
    refine ⟨stamp.toList ++ " nexa /tasks/exit \x7b".toList, ',' :: (fields.toList ++
      ("\"exit_status\":".toList ++ (Text.decimal code.toInt ++ ("," ++ rest).toList))), ?_, hstamp⟩
    simp [exitLine]
  status := by
    refine .inr ⟨stamp.toList ++ " nexa /tasks/exit \x7b\"container_id\":\"".toList ++
      containerId.toList ++ "\",".toList ++ fields.toList, ',' :: rest.toList, ?_, by simp⟩
    simp [exitLine]

/-- A report that the container with the id `id`, made from this configuration,
exited with this code. -/
inductive ContainerRuntime.ExitOf (config : ContainerConfig) (id : String) (code : Int64) :
    (R : ContainerRuntime) → R.Raw → Prop where
  | docker {calls : List ((op : dockerSig.Op) × dockerSig.Ans op)}
      {options : CreateContainerOptions} {request : DockerConfig} {event : EventMessage}
      {attributes : TextMap}
      (created : (DockerRuntime.createContainer config).Trace calls (.ok id))
      (requested : ⟨.createContainer options request, .ok id⟩ ∈ calls)
      (die : event.action = some "die")
      (actor : event.actor = some ⟨some attributes⟩)
      (labels : ∀ given, request.labels = some given → ∀ key value,
        given.lookup key = some value → attributes.lookup key = some value)
      (exitCode : attributes.lookup "exitCode" =
        some (String.ofList (Text.decimal code.toInt))) :
      ExitOf config id code .docker (.ok event)
  | containerd {self : ContainerdRuntime} {calls : List ((op : ctrSig.Op) × ctrSig.Ans op)}
      {nspace image containerId line : String} {flags : List String} {output : CtrOutput}
      (created : (self.createContainer config).Trace calls (.ok id))
      (requested : ⟨.output ("--namespace" :: nspace :: "containers" :: "create" :: image ::
        containerId :: flags), .ok output⟩ ∈ calls)
      (exited : ExitLine containerId code line) :
      ExitOf config id code (.containerd self) (.ok line)

/-! ## What the runtimes make of an exit -/

/-- Docker's message about an exit, with the label that names the pod. -/
theorem DockerRuntime.toEvent_die {event : EventMessage} {attributes : TextMap} {podId : String}
    {code : Int64} (die : event.action = some "die") (actor : event.actor = some ⟨some attributes⟩)
    (label : attributes.lookup "nexa.pod-id" = some podId)
    (exitCode : attributes.lookup "exitCode" =
      some (String.ofList (Text.decimal code.toInt))) :
    DockerRuntime.toEvent (.ok event) = some (.containerDied podId code) := by
  simp [DockerRuntime.toEvent, die, actor, label, exitCode, parseI64_decimal]

/-- The daemon is asked for a container with the labels of its configuration. -/
theorem DockerRuntime.requested_labels {config : ContainerConfig} {id : String}
    {calls : List ((op : dockerSig.Op) × dockerSig.Ans op)}
    {options : CreateContainerOptions} {request : DockerConfig} {ans : Except String String}
    (created : (DockerRuntime.createContainer config).Trace calls (.ok id))
    (requested : ⟨.createContainer options request, ans⟩ ∈ calls) :
    request.labels = some config.labels := by
  have hevery : (DockerRuntime.createContainer config).Every fun (op : DockerOp) =>
      ∀ options request, op = .createContainer options request →
        request.labels = some config.labels := by
    refine ⟨fun _ _ heq => ?_, fun _ => trivial⟩
    cases heq
    rfl
  exact created.every hevery _ requested options request rfl

/-- The command runs with the name of the configuration for the container's id. -/
theorem ContainerdRuntime.requested_name {self : ContainerdRuntime} {config : ContainerConfig}
    {id nspace image containerId : String} {flags : List String}
    {calls : List ((op : ctrSig.Op) × ctrSig.Ans op)} {ans : Except String CtrOutput}
    (created : (self.createContainer config).Trace calls (.ok id))
    (requested : ⟨.output ("--namespace" :: nspace :: "containers" :: "create" :: image ::
      containerId :: flags), ans⟩ ∈ calls) : containerId = config.name := by
  have hevery : (self.createContainer config).Every fun (op : CtrOp) =>
      ∀ nspace image containerId flags, op = .output ("--namespace" :: nspace ::
        "containers" :: "create" :: image :: containerId :: flags) →
          containerId = config.name := by
    refine createContainer_every (fun _ _ _ _ heq => ?_) (fun _ _ _ _ heq => by cases heq)
    injection heq with hargs
    injection hargs with _ hargs
    injection hargs with _ hargs
    simp only [ContainerdRuntime.createArgs, List.cons_append, List.cons.injEq] at hargs
    exact hargs.2.2.2.1.symm
  exact created.every hevery _ requested nspace image containerId flags rfl

/-- The id that is picked out of an exit line is the container's up to a quote,
without white space around it. -/
theorem extractContainerId_exitLine {containerId line : String} {code : Int64}
    (h : ExitLine containerId code line) :
    ∃ p ps, containerId.toList.splitOn '"' = p :: ps ∧
      extractContainerId line.toList = some (Text.trim p) := by
  obtain ⟨head, tail, hline, hhead⟩ := h.container
  have hfind : Text.findFrom "container_id".toList line.toList =
      some ("container_id".toList ++ '"' :: (":".toList ++ '"' ::
        (containerId.toList ++ '"' :: tail))) := by
    rw [hline, Text.findFrom_skip hhead (by decide), Text.findFrom_prefix]
  obtain ⟨p, ps, hp⟩ := List.exists_cons_of_ne_nil (List.splitOn_ne_nil '"' containerId.toList)
  refine ⟨p, ps, hp, ?_⟩
  have hkey : '"' ∉ "container_id".toList := by decide
  have hcolon : '"' ∉ ":".toList := by decide
  simp only [extractContainerId, hfind, Option.bind_some,
    List.splitOn_append_cons_self_of_not_mem hkey,
    List.splitOn_append_cons_self_of_not_mem hcolon, List.splitOn_append_cons_self, hp]
  rfl

/-- An exit line is read as the death of the container that is picked out of it. -/
theorem ContainerdRuntime.toEvent_exitLine {containerId line : String} {code : Int64}
    {text : List Char} (h : ExitLine containerId code line)
    (htext : extractContainerId line.toList = some text) :
    ContainerdRuntime.toEvent (.ok line) = some (.containerDied (String.ofList text)
      ((extractExitCode line.toList).getD (-1))) := by
  simp only [ContainerdRuntime.toEvent, h.topic, htext, Option.getD_some, ↓reduceIte]

/-- A name that begins with `nexa-` still holds its `x` when it was picked out of an exit line. -/
theorem mem_extractContainerId {name line : String} {code : Int64} (h : ExitLine name code line)
    (hname : "nexa-".toList <+: name.toList) :
    ∃ text, extractContainerId line.toList = some text ∧ 'x' ∈ text := by
  obtain ⟨rest, hrest⟩ := hname
  obtain ⟨p, ps, hp, htext⟩ := extractContainerId_exitLine h
  have hprefix : '"' ∉ "nexa-".toList := by decide
  obtain ⟨q, qs, hq⟩ := Text.splitOn_append (s := rest) hprefix
  rw [hrest, hp] at hq
  obtain ⟨rfl, -⟩ := List.cons.inj hq
  refine ⟨_, htext, Text.mem_trim (by decide) (List.mem_append_left _ ?_)⟩
  decide

/-! ## What the watcher makes of an exit -/

section Watched

variable (D : Domain) (w : Watcher)

/-- Over a stream of these reports, all of them taken, the watcher sent these commands. -/
def Watched (R : ContainerRuntime) (reports : List R.Raw) (sent : List Command) : Prop :=
  ∃ events calls, R.Streams reports events ∧ (w.handleEventStream D events).Trace calls () ∧
    ChannelOpen calls ∧ sends calls = sent

/-- Wherever it stands in a stream, the report of an exit makes the watcher
send the exit of this pod with this code, and nothing else. -/
def ExitReported (podId : Uuid) (code : Int64) (R : ContainerRuntime) (exit : R.Raw) : Prop :=
  ∀ before after sent₁ sent₂ sent, Watched D w R before sent₁ → Watched D w R after sent₂ →
    Watched D w R (before ++ exit :: after) sent →
    sent = sent₁ ++ .containerExited podId code :: sent₂

end Watched

section Reported

variable {D : Domain} {w : Watcher} {R : ContainerRuntime}

/-- The watcher sends the commands of the events that the reports are read as. -/
theorem Watched.sent_eq {reports : List R.Raw} {sent : List Command}
    (h : Watched D w R reports sent) :
    sent = (reports.filterMap R.toEvent).filterMap (commandOf D) := by
  obtain ⟨events, calls, hstreams, htrace, hopen, rfl⟩ := h
  rw [Watcher.handleEventStream_sends htrace hopen, hstreams.events_eq]

/-- Every stream can be watched to its end. -/
theorem Watched.exists (reports : List R.Raw) : ∃ sent, Watched D w R reports sent := by
  obtain ⟨calls, htrace, hopen⟩ :=
    w.handleEventStream_runs (D := D) (reports.filterMap R.toEvent)
  exact ⟨sends calls, _, calls, .of_reports reports, htrace, hopen, rfl⟩

/-- A report is answered with the pod's exit exactly when the event it is read
as has that command. -/
theorem exitReported_iff {podId : Uuid} {code : Int64} {exit : R.Raw} :
    ExitReported D w podId code R exit ↔
      (R.toEvent exit).bind (commandOf D) = some (.containerExited podId code) := by
  constructor
  · intro h
    obtain ⟨sent₀, h₀⟩ := Watched.exists (D := D) (w := w) (R := R) []
    obtain ⟨sent, hsent⟩ := Watched.exists (D := D) (w := w) (R := R) [exit]
    have hcmds := h [] [] sent₀ sent₀ sent h₀ h₀ hsent
    rw [h₀.sent_eq, hsent.sent_eq] at hcmds
    cases hevent : R.toEvent exit with
    | none => simp [hevent] at hcmds
    | some event =>
      cases hcmd : commandOf D event with
      | none => simp [hevent, hcmd] at hcmds
      | some cmd => simpa [hevent, hcmd] using hcmds
  · intro h before after sent₁ sent₂ sent h₁ h₂ hsent
    obtain ⟨event, hevent, hcmd⟩ := Option.bind_eq_some_iff.mp h
    rw [h₁.sent_eq, h₂.sent_eq, hsent.sent_eq]
    simp [List.filterMap_append, hevent, hcmd]

end Reported

section Assigned

variable {D : Domain} {W : Workload D} {w : Watcher} {pod : Pod D} {spec : D.DeploymentSpec}
  {id : String} {code : Int64}

/-- Docker reports the exit of the container of a pod as the exit of that pod. -/
theorem docker_reports (uuid : UuidText D.uuid) {exit : Except String EventMessage}
    (exited : ContainerRuntime.ExitOf (W.containerConfig pod spec) id code .docker exit) :
    ExitReported D w pod.id code .docker exit := by
  cases exited with
  | docker created requested die actor labels exitCode =>
    have hlabels := labels _ (DockerRuntime.requested_labels created requested)
    have hpod : (Workload.labels pod spec).lookup "nexa.pod-id" = some (D.uuid.print pod.id) :=
      AList.lookup_insert _
    have hevent := DockerRuntime.toEvent_die die actor (hlabels _ _ hpod) exitCode
    have hid : Watcher.extractPodId D (D.uuid.print pod.id) = some pod.id := by
      simp [Watcher.extractPodId, uuid.parse_print, Except.toOption]
    refine exitReported_iff.mpr ?_
    simp [ContainerRuntime.toEvent, hevent, commandOf, hid]

/-- The watcher drops what containerd reports about the exit of a container
whose name begins with `nexa-`. -/
theorem containerd_drops (uuid : UuidText D.uuid) {config : ContainerConfig}
    {self : ContainerdRuntime} {exit : Except String String}
    (hname : "nexa-".toList <+: config.name.toList)
    (exited : ContainerRuntime.ExitOf config id code (.containerd self) exit) :
    ((ContainerRuntime.containerd self).toEvent exit).bind (commandOf D) = none := by
  cases exited with
  | containerd created requested exited =>
    rw [ContainerdRuntime.requested_name created requested] at exited
    obtain ⟨text, htext, hx⟩ := mem_extractContainerId exited hname
    have hid : Watcher.extractPodId D (String.ofList text) = none := by
      cases hparse : D.uuid.parse (String.ofList text) with
      | error e => simp [Watcher.extractPodId, hparse, Except.toOption]
      | ok podId =>
        have hx' : 'x' ∈ (String.ofList text).toList := by
          rw [String.toList_ofList]
          exact hx
        exact absurd (uuid.spelled hparse hx') (by decide)
    simp only [ContainerRuntime.toEvent, ContainerdRuntime.toEvent_exitLine exited htext,
      Option.bind_some, commandOf, hid, Option.map_none]

end Assigned

/-! ## One pod on both runtimes -/

section Web

/-- A pod, and the spec of its deployment. -/
def webPod : Pod Domain.plain where
  id := ⟨2⟩
  deploymentId := ⟨1⟩
  project := "shop"
  deploymentName := "web"
  replicaIndex := 0
  nodeId := none
  containerId := none
  containerIp := none
  status := "pending"
  image := "nginx:1.25"
  restartCount := 0
  createdAt := 0

def webConfig : ContainerConfig := Workload.plain.containerConfig webPod ("shop", "web")

/-- The calls of an assignment where nothing is in the way and nothing fails. -/
def webCalls (id : String) : List RuntimeCall :=
  [⟨.pullImage "nginx:1.25", .ok ()⟩, ⟨.containerExists "nexa-shop-web-0", .ok false⟩,
    ⟨.containerExists "nexa-shop", .ok true⟩, ⟨.createContainer webConfig, .ok id⟩,
    ⟨.startContainer id, .ok ()⟩]

private theorem web_assigned (id : String) :
    AssignRun Workload.plain webPod ("shop", "web") (webCalls id) :=
  .localTransport (.call _ (.call _ (.call _ (.call _ (.call _ (.ret _))))))

/-- What Docker tells about the pod's container when it fails. -/
def webDied : EventMessage where
  action := some "die"
  actor := some ⟨some (webConfig.labels.insert "exitCode" "1")⟩

/-- What `ctr events` prints when the pod's container fails on containerd. -/
def webExitLine : String :=
  exitLine "2026-05-21 10:00:00.000000001 +0000 UTC" "nexa-shop-web-0"
    "\"id\":\"nexa-shop-web-0\",\"pid\":4242," 1 "\"exited_at\":\"2026-05-21T10:00:00Z\"\x7d"

end Web

variable {D : Domain} {W : Workload D} {w : Watcher} {pod : Pod D} {spec : D.DeploymentSpec}
  {id : String} {code : Int64}

/-- The end of a pod's container is reported as the pod's exit, with its code,
exactly when the container runs on Docker. -/
theorem exit_reported_iff (uuid : UuidText D.uuid)
    (named : "nexa-".toList <+: (W.containerName pod).toList) {calls : List RuntimeCall}
    (assigned : AssignRun W pod spec calls) {config : ContainerConfig}
    (made : ⟨.createContainer config, .ok id⟩ ∈ calls) {R : ContainerRuntime} {exit : R.Raw}
    (exited : R.ExitOf config id code exit) :
    ExitReported D w pod.id code R exit ↔ R = .docker := by
  obtain rfl := assigned.config made
  cases R with
  | docker => exact iff_of_true (docker_reports uuid exited) rfl
  | containerd self =>
    refine iff_of_false (fun h => ?_) (fun h => by cases h)
    rw [exitReported_iff, containerd_drops uuid named exited] at h
    cases h

/-- The pod's container on Docker, from its making to its failure. -/
theorem exit_reported_web :
    ExitReported Domain.plain ⟨true, true⟩ ⟨2⟩ 1 .docker (.ok webDied) := by
  have made : (⟨.createContainer webConfig, .ok "4f1d"⟩ : RuntimeCall) ∈ webCalls "4f1d" := by
    simp [webCalls]
  have exited : ContainerRuntime.ExitOf webConfig "4f1d" 1 .docker (.ok webDied) := by
    have created : (DockerRuntime.createContainer webConfig).Trace
        [⟨.createContainer ⟨"nexa-shop-web-0", none⟩ (DockerRuntime.createConfig webConfig),
          .ok "4f1d"⟩] (.ok "4f1d") := .call _ (.ret _)
    refine .docker created (List.mem_singleton_self _) rfl rfl ?_ ?_
    · intro given hgiven key value hlookup
      cases hgiven
      have hkey : key ≠ "exitCode" := by
        rintro rfl
        have hnone : webConfig.labels.lookup "exitCode" = none := by decide
        rw [hnone] at hlookup
        cases hlookup
      rw [AList.lookup_insert_ne hkey]
      exact hlookup
    · decide
  exact (exit_reported_iff (W := Workload.plain) (w := ⟨true, true⟩) Domain.plain_uuid
    (by decide) (web_assigned "4f1d") made exited).mpr rfl

/-- The same pod on containerd: its container fails, and the watcher sends nothing. -/
theorem containerd_exit_dropped :
    let self := ContainerdRuntime.new "/var/lib/nexa"
    AssignRun Workload.plain webPod ("shop", "web") (webCalls "nexa-shop-web-0") ∧
      (⟨.createContainer webConfig, .ok "nexa-shop-web-0"⟩ : RuntimeCall) ∈
        webCalls "nexa-shop-web-0" ∧
      ContainerRuntime.ExitOf webConfig "nexa-shop-web-0" 1 (.containerd self) (.ok webExitLine) ∧
      ¬ ExitReported Domain.plain ⟨true, true⟩ webPod.id 1 (.containerd self)
        (.ok webExitLine) := by
  intro self
  have exited : ContainerRuntime.ExitOf webConfig "nexa-shop-web-0" 1 (.containerd self)
      (.ok webExitLine) := by
    have created : (self.createContainer webConfig).Trace
        [⟨.output ("--namespace" :: "nexa" :: ContainerdRuntime.createArgs webConfig),
            .ok ⟨true, "", ""⟩⟩,
          ⟨.createDirAll (self.logDir webConfig.name), .ok ()⟩]
        (.ok "nexa-shop-web-0") := .call _ (.call _ (.ret _))
    exact .containerd created List.mem_cons_self (exitLine_exit (by decide))
  refine ⟨web_assigned _, by simp [webCalls], exited, fun h => ?_⟩
  rw [exitReported_iff, containerd_drops Domain.plain_uuid (by decide) exited] at h
  cases h

end Nexad.Runtime
