import Nexad.Api.NodeStats
import Nexad.Laws.Cluster.Registration

/-!
# When the statistics do not underflow

`node_stats` subtracts what a node has free from what it has, and nothing checks
that the one fits in the other: a worker reports both, when it registers and in
every ping. So a state has sound statistics exactly when every row of another
machine fits (`statsSound_iff`), and a run keeps to such states exactly when
every registration and every ping that it writes does (`stats_sound_iff`).
-/

namespace Nexad.Api

open Interleave Nexad.Cluster

variable {D : Domain} {sha256 : List UInt8 → List UInt8} {server : ClusterServer}
  {arrives : Request → Prop} {overflowChecks : Bool} {measured : Measured} {form : StatsForm D}

/-- What is free is part of what there is. -/
def Fits (resources : NodeResources) : Prop := resources.memoryAvailable ≤ resources.memoryBytes

/-- The node is this machine, or what it has free fits. -/
def FitsUnlessLocal (measured : Measured) (node : Node) : Prop :=
  isLocal measured.hostname node.name node.address = true ∨ Fits node.resources

/-- What is told of a node is what it uses, without going below zero. -/
structure TellsUse (node : Node) (stat : NodeStat) : Prop where
  within : stat.memoryUsedBytes ≤ stat.memoryTotalBytes
  exact : stat.memoryUsedBytes.toNat + node.resources.memoryAvailable.toNat =
    stat.memoryTotalBytes.toNat

variable (measured form) in
/-- With overflow checks or without, the handler answers, and tells of every
node that is not this machine what it uses. -/
def StatsSound (s : Shared D) : Prop := ∀ overflowChecks answer s',
  (nodeStats overflowChecks measured form).Exec Answered s answer s' → ∃ stats, answer = some stats ∧
    ∀ node ∈ s.nodes.rows, isLocal measured.hostname node.name node.address = false →
      ∀ stat ∈ stats, stat.name = node.name → TellsUse node stat

/-! ## One state -/

theorem subU64_of_le {a b : UInt64} (h : b ≤ a) : subU64 overflowChecks a b = some (a - b) :=
  if_neg fun hlt => absurd hlt.2 (UInt64.not_lt.mpr h)

/-- The statistics of a row that fits. -/
theorem nodeStat_of_fits {node : Node} (h : FitsUnlessLocal measured node) :
    ∃ stat, nodeStat overflowChecks measured form node = some stat ∧ stat.name = node.name ∧
      (isLocal measured.hostname node.name node.address = false → TellsUse node stat) := by
  unfold nodeStat
  by_cases hlocal : isLocal measured.hostname node.name node.address = true
  · rw [if_pos hlocal]
    exact ⟨_, rfl, rfl, fun hother => absurd (hother.symm.trans hlocal) Bool.false_ne_true⟩
  · have hfits : node.resources.memoryAvailable ≤ node.resources.memoryBytes := h.resolve_left hlocal
    rw [if_neg hlocal, subU64_of_le hfits]
    refine ⟨_, rfl, rfl, fun _ => ⟨UInt64.sub_le hfits, ?_⟩⟩
    show (node.resources.memoryBytes - node.resources.memoryAvailable).toNat +
      node.resources.memoryAvailable.toNat = node.resources.memoryBytes.toNat
    rw [UInt64.toNat_sub_of_le _ _ hfits]
    exact Nat.sub_add_cancel (UInt64.le_iff_toNat_le.mp hfits)

/-- Of another machine's row that does not fit, a build with checks tells nothing. -/
theorem nodeStat_eq_none {node : Node} (h : ¬ FitsUnlessLocal measured node) :
    nodeStat true measured form node = none := by
  obtain ⟨hlocal, hfits⟩ := not_or.mp h
  rw [nodeStat, if_neg hlocal, subU64, if_pos ⟨rfl, UInt64.not_le.mp hfits⟩]
  rfl

/-- Over rows that all fit, every object is one row's. -/
theorem mapM_nodeStat {nodes : List Node} (h : ∀ node ∈ nodes, FitsUnlessLocal measured node) :
    ∃ stats, nodes.mapM (nodeStat overflowChecks measured form) = some stats ∧
      ∀ stat ∈ stats, ∃ node ∈ nodes, stat.name = node.name ∧
        (isLocal measured.hostname node.name node.address = false → TellsUse node stat) := by
  induction nodes with
  | nil => exact ⟨[], rfl, fun stat hstat => absurd hstat List.not_mem_nil⟩
  | cons node nodes ih =>
    obtain ⟨stat, hstat, hname, htells⟩ := nodeStat_of_fits (h node List.mem_cons_self)
    obtain ⟨stats, hstats, hmem⟩ := ih fun node' hnode' => h node' (List.mem_cons_of_mem _ hnode')
    refine ⟨stat :: stats, by rw [List.mapM_cons, hstat, hstats]; rfl, fun stat' hstat' => ?_⟩
    rcases List.mem_cons.mp hstat' with rfl | hstat'
    · exact ⟨node, List.mem_cons_self, hname, htells⟩
    · obtain ⟨node', hnode', htold⟩ := hmem stat' hstat'
      exact ⟨node', List.mem_cons_of_mem _ hnode', htold⟩

/-- One row that does not fit takes the whole answer with it. -/
theorem mapM_nodeStat_eq_none {nodes : List Node} {node : Node} (hnode : node ∈ nodes)
    (h : ¬ FitsUnlessLocal measured node) : nodes.mapM (nodeStat true measured form) = none := by
  induction nodes with
  | nil => cases hnode
  | cons first rest ih =>
    rw [List.mapM_cons]
    rcases List.mem_cons.mp hnode with rfl | hnode
    · rw [nodeStat_eq_none h]
      rfl
    · rw [ih hnode]
      cases nodeStat true measured form first <;> rfl

/-- What the handler answers with is made of the rows, or of none. -/
theorem nodeStats_exec {s s' : Shared D} {answer : Option (List NodeStat)}
    (h : (nodeStats overflowChecks measured form).Exec Answered s answer s') :
    ∃ podCount nodes, answer = statsOf overflowChecks measured form podCount nodes ∧
      (nodes = s.nodes.list ∨ nodes = []) := by
  cases h with
  | @call _ _ _ s₁ _ pods _ hpods hrest =>
    cases hrest with
    | @call _ _ _ s₂ _ nodes _ hnodes hret =>
      cases hret with
      | ret =>
        have hsame : s₁.nodes = s.nodes := by
          cases hpods with
          | store run =>
            cases run
            rfl
          | fault => rfl
        refine ⟨_, _, rfl, ?_⟩
        cases nodes with
        | error e => exact .inr rfl
        | ok found => exact .inl (by rw [← hsame]; exact Answered.listNodes hnodes)

/-- A state has sound statistics exactly when every row of another machine fits. -/
theorem statsSound_iff {s : Shared D} :
    StatsSound measured form s ↔ ∀ node ∈ s.nodes.rows, FitsUnlessLocal measured node := by
  constructor
  · intro h node hnode
    by_contra hbad
    have hexec : (nodeStats true measured form).Exec Answered s
        (statsOf true measured form
          (UInt32.ofNat (s.pods.filter fun pod => form.isRunning pod.status).length) s.nodes.list) s :=
      .call (.store rfl) (.call (.store rfl) (.ret _ s))
    obtain ⟨stats, hstats, -⟩ := h true _ _ hexec
    have hlisted : node ∈ s.nodes.list := List.mem_mergeSort.mpr hnode
    have hne : s.nodes.list.isEmpty = false := by
      rw [List.isEmpty_eq_false_iff_exists_mem]
      exact ⟨node, hlisted⟩
    rw [statsOf, hne, if_neg Bool.false_ne_true, mapM_nodeStat_eq_none hlisted hbad] at hstats
    cases hstats
  · intro h overflowChecks answer s' hexec
    obtain ⟨podCount, nodes, rfl, hnodes⟩ := nodeStats_exec hexec
    unfold statsOf
    by_cases hempty : nodes.isEmpty = true
    · rw [if_pos hempty]
      refine ⟨_, rfl, fun node _ hother stat hstat hname => ?_⟩
      -- the one object is this machine's
      rw [List.mem_singleton.mp hstat] at hname
      have hlocal : isLocal measured.hostname node.name node.address = true := by
        rw [isLocal, ← hname, Bool.or_eq_true]
        exact .inl (beq_self_eq_true _)
      exact absurd (hother.symm.trans hlocal) Bool.false_ne_true
    · rw [if_neg hempty]
      have hlist : nodes = s.nodes.list := by
        rcases hnodes with rfl | rfl
        · rfl
        · exact absurd rfl hempty
      have hrow : ∀ node ∈ nodes, node ∈ s.nodes.rows := by
        rw [hlist]
        exact fun node hnode => List.mem_mergeSort.mp hnode
      obtain ⟨stats, hstats, hmem⟩ := mapM_nodeStat fun node hnode => h node (hrow node hnode)
      refine ⟨stats, hstats, fun node hnode hother stat hstat hname => ?_⟩
      obtain ⟨node', hnode', hname', htells⟩ := hmem stat hstat
      have hsame : node' = node := NodeTable.eq_of_name (hrow node' hnode') hnode (hname'.symm.trans hname)
      exact hsame ▸ htells (hsame ▸ hother)

/-! ## What the requests write -/

section Writes

/-- The nodes that an answer tells of are good, and a new one is as asked for. -/
def Told (Good : Node → Prop) : (op : Op D) → op.Ans D → Prop
  | .store (.getNode _), ans => ∀ n, ans = .ok (some n) → Good n
  | .store (.getNodeByName _), ans => ∀ n, ans = .ok (some n) → Good n
  | .store .listNodes, ans => ∀ nodes, ans = .ok nodes → ∀ n ∈ nodes, Good n
  | .newNode name address role resources, n =>
    n.role = role ∧ n.name = name ∧ n.address = address ∧ n.resources = resources
  | _, _ => True

/-- A node that is inserted is as requested, and one that is written is good, or
what a ping makes of a good one. -/
def Writes (Good : Node → Prop) (req : Request) : Op D → Prop
  | .store (.insertNode n) => ∃ reg, req = .register reg ∧ AsRequested D reg n
  | .store (.updateNode n) => Good n ∨ ∃ pings ping now m,
    req = .heartbeat pings ∧ ping ∈ pings ∧ Good m ∧ n = pinged ping now m
  | _ => True

variable {Good : Node → Prop}

theorem register_writes (reg : RegisterRequest) :
    (server.register D sha256 reg).Given (Told Good) (Writes Good (.register reg)) := by
  have hnew : (admitNode D reg).Given (Told Good) (Writes Good (.register reg)) := by
    refine ⟨trivial, fun node hnode => ⟨⟨reg, rfl, ?_⟩, fun inserted _ => ?_⟩⟩
    · obtain ⟨hrole, hname, haddress, hresources⟩ := hnode
      exact ⟨hrole, hname, haddress, hresources⟩
    · match inserted with
      | .error _ => exact trivial
      | .ok () => exact trivial
  unfold ClusterServer.register
  split
  · exact trivial
  · refine ⟨trivial, fun found _ => ?_⟩
    match found with
    | .ok (some _) => exact trivial
    | .ok none => exact hnew
    | .error _ => exact hnew

theorem heartbeat_writes (pings : List HeartbeatPing) :
    (ClusterServer.heartbeat D pings).Given (Told Good) (Writes Good (.heartbeat pings)) := by
  refine heartbeat_rule trivial fun ping hping id rest hrest => ⟨trivial, fun found hfound => ?_⟩
  have hpong : (sendPong D rest).Given (Told Good) (Writes Good (.heartbeat pings)) := by
    refine ⟨trivial, fun closed _ => ?_⟩
    match closed with
    | true => exact trivial
    | false => exact hrest
  match found with
  | .ok (some node) =>
    exact ⟨trivial, fun now _ => ⟨.inr ⟨pings, ping, now, node, rfl, hping, hfound node rfl, rfl⟩,
      fun _ _ => hpong⟩⟩
  | .ok none => exact hpong
  | .error _ => exact hpong

theorem collectPods_writes (node : Node) {rest : Code D}
    (hrest : rest.Given (Told Good) (Writes Good .checkNodes)) :
    (collectPods D node rest).Given (Told Good) (Writes Good .checkNodes) := by
  refine ⟨trivial, fun found _ => ?_⟩
  match found with
  | .error _ => exact trivial
  | .ok pods =>
    dsimp only
    split
    · exact hrest
    · exact ⟨trivial, fun _ _ => hrest⟩

theorem removeNode_writes (name : String) :
    (removeNode D name).Given (Told Good) (Writes Good (.removeNode name)) := by
  refine ⟨trivial, fun found _ => ?_⟩
  match found with
  | .ok (some node) =>
    dsimp only
    split
    · exact trivial
    · refine ⟨trivial, fun deleted _ => ?_⟩
      match deleted with
      | .ok () => exact trivial
      | .error _ => exact trivial
  | .ok none => exact trivial
  | .error _ => exact trivial

theorem issueToken_writes (req : Request) :
    (issueToken D sha256).Given (Told Good) (Writes Good req) := by
  refine ⟨trivial, fun bytes _ => ⟨trivial, fun stored _ => ?_⟩⟩
  match stored with
  | .ok () => exact ⟨trivial, fun _ _ => trivial⟩
  | .error _ => exact trivial

theorem clusterTokenShow_writes :
    (clusterTokenShow D).Given (Told Good) (Writes Good .clusterTokenShow) := by
  refine ⟨trivial, fun found _ => ?_⟩
  match found with
  | .ok (some _) => exact trivial
  | .ok none => exact trivial
  | .error _ => exact trivial

section Status

variable (hstatus : ∀ n status, Good n → Good { n with status })

include hstatus

theorem checkEach_writes (now : DateTime) {nodes : List Node} (hnodes : ∀ n ∈ nodes, Good n) :
    (checkEach D now nodes).Given (Told Good) (Writes Good .checkNodes) := by
  refine checkEach_rule trivial (fun node hnode _ rest hrest => ?_) fun node _ _ rest hrest => ?_
  · exact ⟨.inl (hstatus node .notReady (hnodes node hnode)), fun _ _ => hrest⟩
  · exact collectPods_writes node hrest

theorem checkNodes_writes :
    (checkNodes D).Given (Told Good) (Writes Good .checkNodes) := by
  refine ⟨trivial, fun found hfound => ?_⟩
  match found with
  | .error _ => exact trivial
  | .ok nodes => exact ⟨trivial, fun now _ => checkEach_writes hstatus now (hfound nodes rfl)⟩

theorem drainNode_writes (name : String) :
    (drainNode D name).Given (Told Good) (Writes Good (.drainNode name)) := by
  refine ⟨trivial, fun found hfound => ?_⟩
  match found with
  | .ok (some node) =>
    refine ⟨.inl (hstatus node .draining (hfound node rfl)), fun written _ => ?_⟩
    match written with
    | .ok () => exact trivial
    | .error _ => exact trivial
  | .ok none => exact trivial
  | .error _ => exact trivial

theorem code_writes (req : Request) :
    (req.code D sha256 server).Given (Told Good) (Writes Good req) := by
  cases req with
  | register reg => exact register_writes reg
  | heartbeat pings => exact heartbeat_writes pings
  | checkNodes => exact checkNodes_writes hstatus
  | drainNode name => exact drainNode_writes hstatus name
  | removeNode name => exact removeNode_writes name
  | clusterInit => exact issueToken_writes _
  | clusterTokenShow => exact clusterTokenShow_writes
  | clusterTokenRotate => exact issueToken_writes _

end Status

/-- An answer tells of rows that are there. -/
theorem told_of_answered {s s' : Shared D} {op : Op D} {ans : op.Ans D} (h : Answered s op ans s')
    (hrows : ∀ n ∈ s.nodes.rows, Good n) : Told Good op ans := by
  cases op with
  | store c =>
    cases c with
    | getNode id =>
      rintro n rfl
      exact hrows n (Answered.getNode h).1
    | getNodeByName name =>
      rintro n rfl
      exact hrows n (Answered.getNodeByName h).1
    | listNodes =>
      rintro nodes rfl n hn
      rw [Answered.listNodes h] at hn
      exact hrows n (List.mem_mergeSort.mp hn)
    | _ => exact trivial
  | newNode name address role resources =>
    obtain ⟨hname, haddress, hrole, hresources⟩ := Answered.newNode_fields h
    exact ⟨hrole, hname, haddress, hresources⟩
  | _ => exact trivial

end Writes

/-! ## Runs -/

/-- What a registration or a ping reports fits, if its node is written and is not
this machine. -/
structure ReportFits (measured : Measured) (e : Event (clusterSig D) Request) : Prop where
  registered : ∀ k reg n, e = .call k (.register reg) (.store (.insertNode n)) (.ok ()) →
    isLocal measured.hostname reg.nodeName reg.nodeAddress = true ∨
      Fits (reg.resources.getD D.zeroResources)
  pinged : ∀ k pings ping now n, ping ∈ pings →
    e = .call k (.heartbeat pings) (.store (.updateNode (pinged ping now n))) (.ok ()) →
    ∀ resources ∈ ping.resources,
      isLocal measured.hostname n.name n.address = true ∨ Fits resources

/-- A step whose report fits leaves rows that fit. -/
theorem fits_of_answered {s s' : Shared D} {k : Nat} {req : Request} {op : Op D} {ans : op.Ans D}
    (hrows : ∀ n ∈ s.nodes.rows, FitsUnlessLocal measured n)
    (hwrites : Writes (FitsUnlessLocal measured) req op)
    (hreport : ReportFits measured (.call k req op ans : Event (clusterSig D) Request))
    (h : Answered s op ans s') : ∀ n ∈ s'.nodes.rows, FitsUnlessLocal measured n := by
  cases h.nodes with
  | same kept => rwa [kept]
  | @insert n done =>
    obtain ⟨reg, rfl, hn⟩ := hwrites
    rw [(NodeTable.insert_ok done).1]
    intro m hm
    rcases List.mem_append.mp hm with hm | hm
    · exact hrows m hm
    · rw [List.mem_singleton.mp hm, FitsUnlessLocal, hn.name, hn.address, hn.resources]
      exact hreport.registered k reg n rfl
  | @update n done =>
    have hn : FitsUnlessLocal measured n := by
      rcases hwrites with hn | ⟨pings, ping, now, m, rfl, hping, hm, rfl⟩
      · exact hn
      · cases hresources : ping.resources with
        | none =>
          simp only [FitsUnlessLocal, pinged, hresources, Option.getD_none]
          exact hm
        | some resources =>
          simp only [FitsUnlessLocal, pinged, hresources, Option.getD_some]
          exact hreport.pinged k pings ping now m hping rfl resources hresources
    intro m hm
    rcases NodeTable.mem_update done hm with ⟨-, hm⟩ | ⟨r, -, -, rfl⟩
    · exact hrows m hm
    · exact hn
  | delete done =>
    rw [done]
    exact fun n hn => hrows n (List.mem_of_mem_filter hn)

/-- In a run from rows that fit, as no rows and this machine's own do, the
statistics are sound in every state exactly when every report that is written
fits. -/
theorem stats_sound_iff {s₀ : Shared D} (h₀ : ∀ n ∈ s₀.nodes.rows, FitsUnlessLocal measured n)
    {l : MasterHistory D} {p : MasterPool D}
    (h : Run (master D sha256 server arrives) (.idle s₀) l p) :
    (∀ s, Run.Visited l p s → StatsSound measured form s) ↔
      ∀ s e, (s, e) ∈ l → ReportFits measured e := by
  constructor
  · intro hsound s e hmem
    have hwritten := (Run.given (A := Told fun _ => True) (P := Writes fun _ => True)
      (I := fun _ => True) (fun req _ => code_writes (fun _ _ hn => hn) req)
      (fun s k req op ans s' _ _ _ hanswer => ⟨told_of_answered hanswer fun _ _ => trivial, trivial⟩)
      (fun _ _ _ _ => trivial) trivial h fun _ _ _ => trivial).2
    obtain ⟨q, q', rfl, hstep, hvisited⟩ := h.visited_after hmem
    have hrows := statsSound_iff.mp (hsound _ hvisited)
    refine ⟨fun k reg n he => ?_, fun k pings ping now n _ he resources hresources => ?_⟩
    · subst he
      cases hstep with
      | call _ answered =>
        obtain ⟨reg', hreg, hn⟩ := hwritten _ _ _ _ _ hmem
        cases hreg
        have hfits := hrows n (by
          rw [Pool.set, (NodeTable.insert_ok (Answered.insert answered)).1]
          exact List.mem_append_right _ (List.mem_singleton_self n))
        rwa [FitsUnlessLocal, hn.name, hn.address, hn.resources] at hfits
    · subst he
      cases hstep with
      | call _ answered =>
        obtain ⟨j, hj⟩ := NodeTable.exists_written (Answered.update answered)
        have hfits := hrows _ hj
        simp only [FitsUnlessLocal, pinged, Option.mem_def.mp hresources, Option.getD_some] at hfits
        exact hfits
  · intro hreports s hs
    refine statsSound_iff.mpr ((Run.given (A := Told (FitsUnlessLocal measured))
      (P := Writes (FitsUnlessLocal measured))
      (I := fun s => ∀ n ∈ s.nodes.rows, FitsUnlessLocal measured n)
      (fun req _ => code_writes (fun n status hn => hn) req)
      (fun s k req op ans s' hrows hwrites hreport hanswer =>
        ⟨told_of_answered hanswer hrows, fits_of_answered hrows hwrites hreport hanswer⟩)
      (fun s s' hrows hticks => ?_) h₀ h hreports).1 s hs)
    cases hticks
    exact hrows

section Join

/-- The machine of the handler. -/
def masterHost : Measured := ⟨"master", ⟨0x4010000000000000⟩, ⟨0⟩, 8589934592, 1073741824⟩

/-- Every pod runs, and no core is in use. -/
def plainForm : StatsForm .plain where
  role := fun role => match role with
    | .master => "master"
    | .worker => "worker"
  status := Domain.plain.nodeStatusText
  cpuUsagePercent := fun _ _ => ⟨0⟩
  isRunning := fun _ => true

/-- Eight cores and 16 GiB, of which 12 GiB are free at first, and 6 GiB later. -/
def idleResources : NodeResources := ⟨⟨0x4020000000000000⟩, 17179869184, ⟨0x401C000000000000⟩, 12884901888, 0⟩

def busyResources : NodeResources := ⟨⟨0x4020000000000000⟩, 17179869184, ⟨0x4008000000000000⟩, 6442450944, 5⟩

/-- The worker that registers with the first, and its ping with the second. -/
def reporting : RegisterRequest := { joining with resources := some idleResources }

def idleWorker : Node := { worker with resources := idleResources }

def busyPing : HeartbeatPing := ⟨Uuid.hyphenated ⟨2⟩, "ready", some busyResources⟩

def busyWorker : Node := { worker with resources := busyResources, lastHeartbeat := 10_000_000_000 }

/-- The store with a worker that was made with the id `2`. -/
def withWorker (node : Node) (clock : DateTime) : Shared .plain where
  nodes := ⟨[node], by simp, by simp⟩
  config := fun _ => none
  pods := []
  clock := clock
  drawn := [⟨2⟩]

/-- A worker registers, and ten seconds later a ping of it is served. -/
def joinAndPing : MasterHistory .plain :=
  [(withWorker idleWorker 10_000_000_000, .call 1 (.heartbeat [busyPing])
      (.store (.updateNode (pinged busyPing 10_000_000_000 idleWorker))) (.ok ())),
    (withWorker idleWorker 10_000_000_000, .call 1 (.heartbeat [busyPing]) .now
      (10_000_000_000 : Int)),
    (withWorker idleWorker 10_000_000_000, .call 1 (.heartbeat [busyPing]) (.store (.getNode ⟨2⟩))
      (.ok (some idleWorker))),
    (withWorker idleWorker 10_000_000_000, .arrive 1 (.heartbeat [busyPing])),
    (withWorker idleWorker 0, .env),
    ({ vacant with drawn := [⟨2⟩] }, .call 0 (.register reporting) (.store (.insertNode idleWorker))
      (.ok ())),
    (vacant, .call 0 (.register reporting) (.newNode "w1" "10.0.0.2:6444" .worker idleResources)
      idleWorker),
    (vacant, .call 0 (.register reporting) (.store (.getNodeByName "w1")) (.ok none)),
    (vacant, .arrive 0 (.register reporting))]

private theorem joinAndPing_run : ∃ p, Run openMaster (.idle vacant) joinAndPing p ∧
    p.state = withWorker busyWorker 10_000_000_000 := by
  have hfind : (StoreCall.getNodeByName "w1").run vacant = (.ok none, vacant) := rfl
  have hinsert : (StoreCall.insertNode idleWorker).run { vacant with drawn := [⟨2⟩] } =
      (.ok (), withWorker idleWorker 0) := rfl
  have hfresh : (⟨2⟩ : Uuid) ∉ vacant.drawn := List.not_mem_nil
  have hread : (StoreCall.getNode ⟨2⟩).run (withWorker idleWorker 10_000_000_000) =
      (.ok (some idleWorker), withWorker idleWorker 10_000_000_000) := rfl
  have hwrite : (StoreCall.updateNode (pinged busyPing 10_000_000_000 idleWorker)).run
      (withWorker idleWorker 10_000_000_000) = (.ok (), withWorker busyWorker 10_000_000_000) := rfl
  have hparse : Domain.plain.uuid.parse busyPing.nodeId = .ok ⟨2⟩ := by decide
  have hcode : openMaster.code (.heartbeat [busyPing]) =
      ask (.getNode ⟨2⟩) (servePing .plain busyPing (.ret .streamEnd)) := heartbeat_cons hparse
  have hlater : (0 : DateTime) ≤ 10_000_000_000 := by decide
  have hjoin := (((Run.start openMaster (.idle vacant)).arrive 0 (.register reporting) rfl trivial
    |>.call 0 rfl (.store hfind) |>.call 0 rfl (.newNode hfresh 0 0)
    |>.call 0 rfl (.store hinsert)).cons (.env (.tick hlater))).arrive 1 (.heartbeat [busyPing])
      rfl trivial
  rw [hcode] at hjoin
  have hrun := hjoin.call 1 rfl (.store hread) |>.call 1 rfl .now |>.call 1 rfl (.store hwrite)
  exact ⟨_, hrun, rfl⟩

theorem stats_sound_join : ∃ p : MasterPool .plain,
    Run openMaster (.idle vacant) joinAndPing p ∧ p.state.nodes.rows = [busyWorker] ∧
    ∀ s, Run.Visited joinAndPing p s → StatsSound masterHost plainForm s := by
  obtain ⟨p, hrun, hstate⟩ := joinAndPing_run
  refine ⟨p, hrun, by rw [hstate]; rfl, (stats_sound_iff (fun n hn => ?_) hrun).mpr ?_⟩
  · exact absurd hn List.not_mem_nil
  · intro s e hmem
    simp only [joinAndPing, List.mem_cons, Prod.mk.injEq, List.not_mem_nil, or_false] at hmem
    refine ⟨fun k reg n he => ?_, fun k pings ping now n hping he resources hresources => ?_⟩
    · subst he
      have hreg : reg = reporting := by
        rcases hmem with ⟨-, he⟩ | ⟨-, he⟩ | ⟨-, he⟩ | ⟨-, he⟩ | ⟨-, he⟩ | ⟨-, he⟩ | ⟨-, he⟩ |
          ⟨-, he⟩ | ⟨-, he⟩ <;> cases he
        rfl
      subst hreg
      exact .inr (by decide : (12884901888 : UInt64) ≤ 17179869184)
    · subst he
      have hpings : pings = [busyPing] := by
        rcases hmem with ⟨-, he⟩ | ⟨-, he⟩ | ⟨-, he⟩ | ⟨-, he⟩ | ⟨-, he⟩ | ⟨-, he⟩ | ⟨-, he⟩ |
          ⟨-, he⟩ | ⟨-, he⟩
        · injection he with _ hreq
          exact Request.heartbeat.inj hreq
        all_goals cases he
      subst hpings
      cases List.mem_singleton.mp hping
      cases hresources
      exact .inr (by decide : (6442450944 : UInt64) ≤ 17179869184)

/-- A worker with one byte of memory registers with two of them free. -/
def boasting : RegisterRequest := { joining with resources := some ⟨⟨0⟩, 1, ⟨0⟩, 2, 0⟩ }

/-- Its node. -/
def boaster : Node := { worker with resources := ⟨⟨0⟩, 1, ⟨0⟩, 2, 0⟩ }

theorem stats_underflow : ¬ ∀ (l : MasterHistory .plain) (p : MasterPool .plain),
    Run openMaster (.idle vacant) l p →
    ∀ s, Run.Visited l p s → StatsSound masterHost plainForm s := by
  intro hsound
  have hfind : (StoreCall.getNodeByName "w1").run vacant = (.ok none, vacant) := rfl
  have hinsert : (StoreCall.insertNode boaster).run { vacant with drawn := [⟨2⟩] } =
      (.ok (), { vacant with nodes := ⟨[boaster], by simp, by simp⟩, drawn := [⟨2⟩] }) := rfl
  have hfresh : (⟨2⟩ : Uuid) ∉ vacant.drawn := List.not_mem_nil
  have hrun := (Run.start openMaster (.idle vacant)).arrive 0 (.register boasting) rfl trivial
    |>.call 0 rfl (.store hfind) |>.call 0 rfl (.newNode hfresh 0 0) |>.call 0 rfl (.store hinsert)
  rcases statsSound_iff.mp (hsound _ _ hrun _ (.inl rfl)) boaster (List.mem_singleton_self _) with
    hlocal | hfits
  · exact absurd hlocal (by decide)
  · have hover : ¬ (2 : UInt64) ≤ 1 := by decide
    exact hover hfits

end Join

end Nexad.Api
