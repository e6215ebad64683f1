import Nexad.Cluster.System

/-!
# What each request can do

`Makes` lists, request by request, the operations its code can come to;
`Request.code_makes` checks the list against the code. So what a call in a
history says about the request behind it is a case analysis of `Makes`, and no
later proof opens the code for it. What the two loops keep to is proved of one
round each (`heartbeat_rule`, `checkEach_rule`).
-/

namespace Nexad.Cluster

open Interleave

variable {D : Domain} {sha256 : List UInt8 → List UInt8}

/-- The operations a request can make. -/
inductive Makes (sha256 : List UInt8 → List UInt8) : Request → Op D → Prop
  | registerRead (req : RegisterRequest) :
      Makes sha256 (.register req) (.store (.getNodeByName req.nodeName))
  | registerNew (req : RegisterRequest) (resources : NodeResources) : Makes sha256 (.register req)
      (.newNode req.nodeName req.nodeAddress .worker resources)
  | registerInsert (req : RegisterRequest) (n : Node) :
      Makes sha256 (.register req) (.store (.insertNode n))
  | pingRead (pings : List HeartbeatPing) (id : Uuid) :
      Makes sha256 (.heartbeat pings) (.store (.getNode id))
  | pingNow (pings : List HeartbeatPing) : Makes sha256 (.heartbeat pings) .now
  | pingWrite {pings : List HeartbeatPing} {ping : HeartbeatPing} (sent : ping ∈ pings)
      (now : DateTime) (n : Node) :
      Makes sha256 (.heartbeat pings) (.store (.updateNode (pinged ping now n)))
  | pingPong (pings : List HeartbeatPing) : Makes sha256 (.heartbeat pings) .sendPong
  | monitorRead : Makes sha256 .checkNodes (.store .listNodes)
  | monitorNow : Makes sha256 .checkNodes .now
  | monitorWrite (n : Node) :
      Makes sha256 .checkNodes (.store (.updateNode { n with status := .notReady }))
  | monitorPods : Makes sha256 .checkNodes (.store (.listPods none))
  | monitorReschedule (id : Uuid) (pods : List (Pod D)) :
      Makes sha256 .checkNodes (.reschedule id pods)
  | drainRead (name : String) : Makes sha256 (.drainNode name) (.store (.getNodeByName name))
  | drainWrite (name : String) (n : Node) :
      Makes sha256 (.drainNode name) (.store (.updateNode { n with status := .draining }))
  | removeRead (name : String) : Makes sha256 (.removeNode name) (.store (.getNodeByName name))
  | removeDelete (name : String) (id : Uuid) :
      Makes sha256 (.removeNode name) (.store (.deleteNode id))
  | show : Makes sha256 .clusterTokenShow (.store (.getClusterConfig "join_token"))
  | issueBytes {req : Request} (issues : req = .clusterInit ∨ req = .clusterTokenRotate) :
      Makes sha256 req .fillBytes
  | issueHash {req : Request} (issues : req = .clusterInit ∨ req = .clusterTokenRotate)
      (token : String) : Makes sha256 req
        (.store (.setClusterConfig "join_token_hash" (hashToken sha256 token)))
  | issueToken {req : Request} (issues : req = .clusterInit ∨ req = .clusterTokenRotate)
      (token : String) : Makes sha256 req (.store (.setClusterConfig "join_token" token))

section Code

theorem register_makes (server : ClusterServer) (req : RegisterRequest) :
    (server.register D sha256 req).Every (Makes sha256 (.register req)) := by
  have hnew : (admitNode D req).Every (Makes sha256 (.register req)) := by
    refine ⟨.registerNew req _, fun node => ⟨.registerInsert req node, fun inserted => ?_⟩⟩
    match inserted with
    | .error _ => exact trivial
    | .ok () => exact trivial
  unfold ClusterServer.register
  split
  · exact trivial
  · refine ⟨.registerRead req, fun found => ?_⟩
    match found with
    | .ok (some _) => exact trivial
    | .ok none => exact hnew
    | .error _ => exact hnew

/-- The loop over a stream keeps to what its end does, and what serving a ping keeps to. -/
theorem heartbeat_rule {C : Code D → Prop} {pings : List HeartbeatPing} (hend : C (.ret .streamEnd))
    (hserve : ∀ ping ∈ pings, ∀ id rest, C rest →
      C (ask (.getNode id) (servePing D ping rest))) : C (ClusterServer.heartbeat D pings) := by
  induction pings with
  | nil => exact hend
  | cons ping rest ih =>
    have hrest : C (ClusterServer.heartbeat D rest) :=
      ih fun ping hping => hserve ping (List.mem_cons_of_mem _ hping)
    unfold ClusterServer.heartbeat
    split
    · exact hrest
    · exact hserve ping List.mem_cons_self _ _ hrest

theorem heartbeat_makes (pings : List HeartbeatPing) :
    (ClusterServer.heartbeat D pings).Every (Makes sha256 (.heartbeat pings)) := by
  refine heartbeat_rule trivial fun ping hping id rest hrest => ⟨.pingRead pings id, fun found => ?_⟩
  have hpong : (sendPong D rest).Every (Makes sha256 (.heartbeat pings)) := by
    refine ⟨.pingPong pings, fun closed => ?_⟩
    match closed with
    | true => exact trivial
    | false => exact hrest
  match found with
  | .ok (some node) =>
    exact ⟨.pingNow pings, fun now => ⟨.pingWrite hping now node, fun _ => hpong⟩⟩
  | .ok none => exact hpong
  | .error _ => exact hpong

theorem collectPods_makes (node : Node) {rest : Code D}
    (hrest : rest.Every (Makes sha256 .checkNodes)) :
    (collectPods D node rest).Every (Makes sha256 .checkNodes) := by
  refine ⟨.monitorPods, fun found => ?_⟩
  match found with
  | .error _ => exact trivial
  | .ok pods =>
    dsimp only
    split
    · exact hrest
    · exact ⟨.monitorReschedule _ _, fun _ => hrest⟩

/-- The loop of a pass keeps to what its end does, and what marking a late node
and collecting the pods of a dead one keep to. -/
theorem checkEach_rule {C : Code D → Prop} {now : DateTime} {left : List Node}
    (hend : C (.ret (.pass (.ok ()))))
    (hmark : ∀ node ∈ left, notReadyThreshold ≤ elapsed now node → ∀ rest, C rest →
      C (ask (.updateNode { node with status := .notReady }) fun _ => rest))
    (hcollect : ∀ node ∈ left, deadThreshold ≤ elapsed now node → ∀ rest, C rest →
      C (collectPods D node rest)) : C (checkEach D now left) := by
  induction left with
  | nil => exact hend
  | cons node rest ih =>
    have hrest : C (checkEach D now rest) :=
      ih (fun n hn => hmark n (List.mem_cons_of_mem _ hn))
        fun n hn => hcollect n (List.mem_cons_of_mem _ hn)
    have hmark := hmark node List.mem_cons_self
    have hcollect := hcollect node List.mem_cons_self
    unfold checkEach
    split
    · exact hrest
    · split
      · next hdead =>
        have hlate : notReadyThreshold ≤ elapsed now node := Int.le_trans (by decide) hdead
        split
        · exact hmark hlate _ (hcollect hdead _ hrest)
        · exact hcollect hdead _ hrest
      · split
        · next hlate => exact hmark hlate.1 _ hrest
        · exact hrest

theorem checkEach_makes (now : DateTime) (nodes : List Node) :
    (checkEach D now nodes).Every (Makes sha256 .checkNodes) := by
  refine checkEach_rule trivial (fun node _ _ rest hrest => ?_) fun node _ _ rest hrest => ?_
  · exact ⟨.monitorWrite node, fun _ => hrest⟩
  · exact collectPods_makes node hrest

theorem checkNodes_makes : (checkNodes D).Every (Makes sha256 .checkNodes) := by
  refine ⟨.monitorRead, fun found => ?_⟩
  match found with
  | .error _ => exact trivial
  | .ok nodes => exact ⟨.monitorNow, fun now => checkEach_makes now nodes⟩

theorem drainNode_makes (name : String) :
    (Api.drainNode D name).Every (Makes sha256 (.drainNode name)) := by
  refine ⟨.drainRead name, fun found => ?_⟩
  match found with
  | .ok (some node) =>
    refine ⟨.drainWrite name node, fun written => ?_⟩
    match written with
    | .ok () => exact trivial
    | .error _ => exact trivial
  | .ok none => exact trivial
  | .error _ => exact trivial

theorem removeNode_makes (name : String) :
    (Api.removeNode D name).Every (Makes sha256 (.removeNode name)) := by
  refine ⟨.removeRead name, fun found => ?_⟩
  match found with
  | .ok (some node) =>
    dsimp only
    split
    · exact trivial
    · refine ⟨.removeDelete name node.id, fun deleted => ?_⟩
      match deleted with
      | .ok () => exact trivial
      | .error _ => exact trivial
  | .ok none => exact trivial
  | .error _ => exact trivial

theorem issueToken_makes {req : Request} (hreq : req = .clusterInit ∨ req = .clusterTokenRotate) :
    (Api.issueToken D sha256).Every (Makes sha256 req) := by
  refine ⟨.issueBytes hreq, fun bytes => ⟨.issueHash hreq _, fun stored => ?_⟩⟩
  match stored with
  | .ok () => exact ⟨.issueToken hreq _, fun _ => trivial⟩
  | .error _ => exact trivial

theorem clusterTokenShow_makes :
    (Api.clusterTokenShow D).Every (Makes sha256 .clusterTokenShow) := by
  refine ⟨.show, fun found => ?_⟩
  match found with
  | .ok (some _) => exact trivial
  | .ok none => exact trivial
  | .error _ => exact trivial

end Code

/-- The list is complete. -/
theorem Request.code_makes (server : ClusterServer) (req : Request) :
    (req.code D sha256 server).Every (Makes sha256 req) := by
  cases req with
  | register req => exact register_makes server req
  | heartbeat pings => exact heartbeat_makes pings
  | checkNodes => exact checkNodes_makes
  | drainNode name => exact drainNode_makes name
  | removeNode name => exact removeNode_makes name
  | clusterInit => exact issueToken_makes (.inl rfl)
  | clusterTokenShow => exact clusterTokenShow_makes
  | clusterTokenRotate => exact issueToken_makes (.inr rfl)

/-- Every call of every run is one that a request which arrives makes. -/
theorem Run.makes {server : ClusterServer} {arrives : Request → Prop} {s₀ : Shared D}
    {l : MasterHistory D} {p : MasterPool D}
    (h : Run (master D sha256 server arrives) (.idle s₀) l p) {s : Shared D} {k : Nat}
    {req : Request} {op : Op D} {ans : op.Ans D} (hcall : (s, Event.call k req op ans) ∈ l) :
    arrives req ∧ Makes sha256 req op := by
  have hcode : ∀ req, arrives req → (req.code D sha256 server).Every
      fun op => arrives req ∧ Makes sha256 req op :=
    fun req harrives => (req.code_makes server).imp fun _ hmakes => ⟨harrives, hmakes⟩
  exact (Interleave.Run.every hcode (Pool.idle_every _ _) h).2 s k req op ans hcall

/-! ## What an answer changes -/

/-- A call of the store changes rows and configuration at most, and the
configuration only when it writes it. -/
theorem StoreCall.run_frame (s : Shared D) (c : StoreCall) : ∃ nodes config,
    (c.run s).2 = { s with nodes := nodes, config := config } ∧
      ((∀ key value, c ≠ .setClusterConfig key value) → config = s.config) := by
  cases c with
  | setClusterConfig key value => exact ⟨s.nodes, _, rfl, fun hc => absurd rfl (hc key value)⟩
  | insertNode n =>
    simp only [StoreCall.run]
    split <;> exact ⟨_, s.config, rfl, fun _ => rfl⟩
  | updateNode n =>
    simp only [StoreCall.run]
    split <;> exact ⟨_, s.config, rfl, fun _ => rfl⟩
  | _ => exact ⟨_, s.config, rfl, fun _ => rfl⟩

/-- A configuration entry changes only when it is written. -/
theorem Answered.config {s s' : Shared D} {op : Op D} {ans : op.Ans D} (h : Answered s op ans s')
    (key : String) : s'.config key = s.config key ∨ ∃ value,
      (⟨op, ans⟩ : (op : Op D) × op.Ans D) = ⟨.store (.setClusterConfig key value), .ok ()⟩ ∧
        s'.config key = some value := by
  cases h with
  | @store c answer _ run =>
    by_cases hc : ∃ key' value, c = .setClusterConfig key' value
    · obtain ⟨key', value, rfl⟩ := hc
      cases run
      by_cases hkey : key = key'
      · subst hkey
        exact .inr ⟨value, rfl, Function.update_self ..⟩
      · exact .inl (Function.update_of_ne hkey ..)
    · obtain ⟨nodes, config, hframe, hconfig⟩ := c.run_frame s
      rw [run] at hframe
      subst hframe
      exact .inl (congrFun (hconfig fun key' value he => hc ⟨key', value, he⟩) key)
  | _ => exact .inl rfl

/-- A step changes a configuration entry only by a write that succeeds. -/
theorem Step.config {server : ClusterServer} {arrives : Request → Prop}
    {p p' : MasterPool D} {e : Event (clusterSig D) Request}
    (h : Step (master D sha256 server arrives) p e p') (key : String) :
    p'.state.config key = p.state.config key ∨ ∃ k req value,
      e = .call k req (.store (.setClusterConfig key value)) (.ok ()) ∧
        p'.state.config key = some value := by
  cases h with
  | arrive => exact .inl rfl
  | env moves =>
    cases moves
    exact .inl rfl
  | @call k req op cont ans s' at_call answered =>
    rcases Answered.config answered key with hsame | hwritten
    · exact .inl hsame
    · obtain ⟨value, heq, hvalue⟩ := hwritten
      cases heq
      exact .inr ⟨k, req, value, rfl, hvalue⟩

/-- What a call may do to the nodes. -/
inductive NodesStep (s s' : Shared D) : (op : Op D) → op.Ans D → Prop
  | same {op : Op D} {ans : op.Ans D} (kept : s'.nodes = s.nodes) : NodesStep s s' op ans
  | insert {n : Node} (done : s.nodes.insert n = .ok s'.nodes) :
      NodesStep s s' (.store (.insertNode n)) (.ok ())
  | update {n : Node} (done : s.nodes.update n = .ok (some s'.nodes)) :
      NodesStep s s' (.store (.updateNode n)) (.ok ())
  | delete {id : Uuid} (done : s'.nodes = s.nodes.delete id) :
      NodesStep s s' (.store (.deleteNode id)) (.ok ())

theorem StoreCall.run_nodes (s : Shared D) (c : StoreCall) :
    NodesStep s (c.run s).2 (.store c) (c.run s).1 := by
  cases c with
  | insertNode n =>
    cases hinsert : s.nodes.insert n with
    | ok t =>
      have hrun : (StoreCall.insertNode n).run s = (.ok (), { s with nodes := t }) := by
        simp only [StoreCall.run, hinsert]
      rw [hrun]
      exact .insert hinsert
    | error e =>
      refine .same ?_
      cases e <;> simp only [StoreCall.run, hinsert]
  | updateNode n =>
    cases hupdate : s.nodes.update n with
    | ok found =>
      cases found with
      | some t =>
        have hrun : (StoreCall.updateNode n).run s = (.ok (), { s with nodes := t }) := by
          simp only [StoreCall.run, hupdate]
        rw [hrun]
        exact .update hupdate
      | none =>
        refine .same ?_
        simp only [StoreCall.run, hupdate]
    | error e =>
      refine .same ?_
      simp only [StoreCall.run, hupdate]
  | deleteNode id => exact .delete rfl
  | _ => exact .same rfl

/-- The nodes change only by an insertion, an update or a deletion. -/
theorem Answered.nodes {s s' : Shared D} {op : Op D} {ans : op.Ans D} (h : Answered s op ans s') :
    NodesStep s s' op ans := by
  cases h with
  | @store c answer _ run =>
    have hstep := c.run_nodes s
    rw [run] at hstep
    exact hstep
  | _ => exact .same rfl

/-- An update that answers well has written its row. -/
theorem Answered.update {s s' : Shared D} {n : Node}
    (h : Answered s (.store (.updateNode n)) (.ok ()) s') :
    s.nodes.update n = .ok (some s'.nodes) := by
  cases h with
  | store run =>
    simp only [StoreCall.run] at run
    split at run
    · next hupdate =>
      cases run
      exact hupdate
    · cases run
    · cases run

/-- An insertion that answers well has added its row. -/
theorem Answered.insert {s s' : Shared D} {n : Node}
    (h : Answered s (.store (.insertNode n)) (.ok ()) s') : s.nodes.insert n = .ok s'.nodes := by
  cases h with
  | store run =>
    simp only [StoreCall.run] at run
    split at run
    · next hinsert =>
      cases run
      exact hinsert
    · cases run
    · cases run

/-- A deletion that answers well has deleted. -/
theorem Answered.delete {s s' : Shared D} {id : Uuid}
    (h : Answered s (.store (.deleteNode id)) (.ok ()) s') : s'.nodes = s.nodes.delete id := by
  cases h with
  | store run =>
    cases run
    rfl

/-- The event writes a ping of this node. -/
def WritesPing (id : Uuid) (e : Event (clusterSig D) Request) : Prop :=
  ∃ k pings n, e = .call k (.heartbeat pings) (.store (.updateNode n)) (.ok ()) ∧ n.id = id

/-- No answer moves the clock. -/
theorem Answered.clock {s s' : Shared D} {op : Op D} {ans : op.Ans D} (h : Answered s op ans s') :
    s'.clock = s.clock := by
  cases h with
  | @store c answer _ run =>
    obtain ⟨nodes, config, hframe, -⟩ := c.run_frame s
    rw [run] at hframe
    exact (congrArg Shared.clock hframe :)
  | _ => rfl

/-- No call of the store draws an id. -/
theorem StoreCall.run_drawn (s : Shared D) (c : StoreCall) : (c.run s).2.drawn = s.drawn := by
  obtain ⟨nodes, config, hframe, -⟩ := c.run_frame s
  rw [hframe]

/-- No call changes the pods. -/
theorem Answered.pods {s s' : Shared D} {op : Op D} {ans : op.Ans D} (h : Answered s op ans s') :
    s'.pods = s.pods := by
  cases h with
  | @store c answer _ run =>
    obtain ⟨nodes, config, hframe, -⟩ := c.run_frame s
    rw [run] at hframe
    exact (congrArg Shared.pods hframe :)
  | _ => rfl

/-- What a new node is made of. -/
theorem Answered.newNode_fields {s s' : Shared D} {name address : String} {role : NodeRole}
    {resources : NodeResources} {n : Node}
    (h : Answered s (.newNode name address role resources) n s') :
    n.name = name ∧ n.address = address ∧ n.role = role ∧ n.resources = resources := by
  cases h
  exact ⟨rfl, rfl, rfl, rfl⟩

/-! ## Rows -/

namespace NodeTable

variable {t t' : NodeTable} {n r : Node}

/-- What was inserted is the last row, and its id and name were free. -/
theorem insert_ok (h : t.insert n = .ok t') : t'.rows = t.rows ++ [n] ∧
    n.id ∉ t.rows.map Node.id ∧ n.name ∉ t.rows.map Node.name := by
  unfold insert at h
  split at h
  · cases h
  · split at h
    · next hfree =>
      cases h
      exact ⟨rfl, hfree⟩
    · cases h

theorem update_ok (h : t.update n = .ok (some t')) :
    n.id ∈ t.rows.map Node.id ∧ t'.rows = t.rows.map (written n) := by
  unfold update at h
  split at h
  · cases h
  · next hmem =>
    split at h
    · cases h
    · split at h
      · cases h
        exact ⟨not_not.mp hmem, rfl⟩
      · cases h

/-- A row after an update: another node's, as it was, or what was written. -/
theorem mem_update (h : t.update n = .ok (some t')) (hr : r ∈ t'.rows) :
    (r.id ≠ n.id ∧ r ∈ t.rows) ∨ ∃ r' ∈ t.rows, r'.id = n.id ∧ r = { n with joinedAt := r'.joinedAt } := by
  rw [(update_ok h).2] at hr
  obtain ⟨r', hr', rfl⟩ := List.mem_map.mp hr
  unfold written
  split
  · next hid => exact .inr ⟨r', hr', hid, rfl⟩
  · next hid => exact .inl ⟨hid, hr'⟩

/-- The row that was written is there. -/
theorem exists_written (h : t.update n = .ok (some t')) :
    ∃ j, { n with joinedAt := j } ∈ t'.rows := by
  obtain ⟨hmem, hrows⟩ := update_ok h
  obtain ⟨r, hr, hid⟩ := List.mem_map.mp hmem
  refine ⟨r.joinedAt, ?_⟩
  rw [hrows]
  exact List.mem_map.mpr ⟨r, hr, if_pos hid⟩

/-- Two rows with one id are one row. -/
theorem eq_of_id {r r' : Node} (hr : r ∈ t.rows) (hr' : r' ∈ t.rows) (hid : r.id = r'.id) : r = r' :=
  List.inj_on_of_nodup_map t.ids hr hr' hid

/-- Two rows with one name are one row. -/
theorem eq_of_name {r r' : Node} (hr : r ∈ t.rows) (hr' : r' ∈ t.rows) (hname : r.name = r'.name) :
    r = r' := List.inj_on_of_nodup_map t.names hr hr' hname

/-- What is found under an id is a row that has it. -/
theorem mem_of_get {id : Uuid} (h : t.get id = some r) : r ∈ t.rows ∧ r.id = id := by
  have hid := List.find?_some (p := fun r : Node => decide (r.id = id)) h
  exact ⟨List.mem_of_find?_eq_some h, of_decide_eq_true hid⟩

/-- A row is found under its id. -/
theorem get_of_mem (hr : r ∈ t.rows) : t.get r.id = some r := by
  have hsome : (t.get r.id).isSome := List.find?_isSome.mpr ⟨r, hr, decide_eq_true rfl⟩
  obtain ⟨r', hfound⟩ := Option.isSome_iff_exists.mp hsome
  obtain ⟨hr', hid⟩ := mem_of_get hfound
  rw [hfound, eq_of_id hr' hr hid]

/-- What an update leaves under an id: the node it wrote, or what was there. -/
theorem get_update (h : t.update n = .ok (some t')) (id : Uuid) :
    ∃ j, t'.get id = if id = n.id then some { n with joinedAt := j } else t.get id := by
  obtain ⟨j, hj⟩ := exists_written h
  refine ⟨j, ?_⟩
  by_cases hid : id = n.id
  · rw [if_pos hid, hid]
    exact get_of_mem hj
  · rw [if_neg hid]
    have hkeep : ∀ r, r.id = id → (r ∈ t'.rows ↔ r ∈ t.rows) := by
      intro r hr
      have hne : r.id ≠ n.id := fun heq => hid (hr.symm.trans heq)
      constructor
      · intro hmem
        rcases mem_update h hmem with ⟨-, hold⟩ | ⟨r', -, -, rfl⟩
        · exact hold
        · exact absurd rfl hne
      · intro hmem
        rw [(update_ok h).2]
        exact List.mem_map.mpr ⟨r, hmem, if_neg hne⟩
    apply Option.ext
    intro r
    constructor
    · intro hget
      obtain ⟨hmem, rfl⟩ := mem_of_get hget
      exact get_of_mem ((hkeep r rfl).mp hmem)
    · intro hget
      obtain ⟨hmem, rfl⟩ := mem_of_get hget
      exact get_of_mem ((hkeep r rfl).mpr hmem)

end NodeTable

/-- What a reading by id answers with is a row that has the id. -/
theorem Answered.getNode {s s' : Shared D} {id : Uuid} {n : Node}
    (h : Answered s (.store (.getNode id)) (.ok (some n)) s') : n ∈ s.nodes.rows ∧ n.id = id := by
  cases h with
  | store run => exact NodeTable.mem_of_get (Except.ok.inj (Prod.mk.inj run).1)

/-- What a reading by name answers with is a row that has the name. -/
theorem Answered.getNodeByName {s s' : Shared D} {name : String} {n : Node}
    (h : Answered s (.store (.getNodeByName name)) (.ok (some n)) s') :
    n ∈ s.nodes.rows ∧ n.name = name := by
  cases h with
  | store run =>
    have hfound : s.nodes.getByName name = some n := Except.ok.inj (Prod.mk.inj run).1
    have hname := List.find?_some (p := fun r : Node => decide (r.name = name)) hfound
    exact ⟨List.mem_of_find?_eq_some hfound, of_decide_eq_true hname⟩

/-- The list answers with the rows. -/
theorem Answered.listNodes {s s' : Shared D} {nodes : List Node}
    (h : Answered s (.store .listNodes) (.ok nodes) s') : nodes = s.nodes.list := by
  cases h with
  | store run => exact (Except.ok.inj (Prod.mk.inj run).1).symm

/-- The list of all pods answers with the pods. -/
theorem Answered.listPods {s s' : Shared D} {pods : List (Pod D)}
    (h : Answered s (.store (.listPods none)) (.ok pods) s') : pods = s.pods := by
  cases h with
  | store run => exact (Except.ok.inj (Prod.mk.inj run).1).symm

/-! ## A ping with nothing in between -/

theorem heartbeat_cons {ping : HeartbeatPing} {rest : List HeartbeatPing} {id : Uuid}
    (h : D.uuid.parse ping.nodeId = .ok id) : ClusterServer.heartbeat D (ping :: rest) =
      ask (.getNode id) (servePing D ping (ClusterServer.heartbeat D rest)) := by
  simp only [ClusterServer.heartbeat, h]

/-- A task that serves one ping of a stored node, with no other step between
its calls, writes the node it read with the clock and what the ping reports. -/
theorem ping_run {server : ClusterServer} {arrives : Request → Prop} {p : MasterPool D} {k : Nat}
    {ping : HeartbeatPing} {id : Uuid} {node : Node} {t : NodeTable} (hfree : p.thread k = none)
    (harrives : arrives (.heartbeat [ping])) (hparse : D.uuid.parse ping.nodeId = .ok id)
    (hget : p.state.nodes.get id = some node)
    (hupdate : p.state.nodes.update (pinged ping p.state.clock node) = .ok (some t)) :
    ∃ l p', Run (master D sha256 server arrives) p ((p.state, .call k (.heartbeat [ping])
        (.store (.updateNode (pinged ping p.state.clock node))) (.ok ())) :: l) p' ∧
      p'.state = { p.state with nodes := t } ∧ ∀ j, j ≠ k → p'.thread j = p.thread j := by
  have hread : (StoreCall.getNode id).run p.state = (.ok (some node), p.state) := by
    rw [StoreCall.run, hget]
  have hwrite : (StoreCall.updateNode (pinged ping p.state.clock node)).run p.state =
      (.ok (), { p.state with nodes := t }) := by
    simp only [StoreCall.run, hupdate]
  have hcode : (master D sha256 server arrives).code (.heartbeat [ping]) =
      ask (.getNode id) (servePing D ping (ClusterServer.heartbeat D [])) := heartbeat_cons hparse
  have harrive := (Run.nil (M := master D sha256 server arrives)).arrive k (.heartbeat [ping]) hfree
    harrives
  rw [hcode] at harrive
  have hrun := harrive.call k (Pool.set_thread_self ..) (.store hread)
    |>.call k (Pool.set_thread_self ..) .now |>.call k (Pool.set_thread_self ..) (.store hwrite)
  refine ⟨_, _, hrun, rfl, fun j hj => ?_⟩
  simp only [Pool.set_thread_ne _ _ _ hj]

/-- A worker. -/
def worker : Node :=
  ⟨⟨2⟩, "w1", "10.0.0.2:6444", .worker, .ready, Domain.plain.zeroResources, 0, 0⟩

end Nexad.Cluster
