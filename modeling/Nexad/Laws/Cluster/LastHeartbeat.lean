import Nexad.Laws.Cluster.System

/-!
# Heartbeats that are kept

A heartbeat task, a monitor pass and a drain each read a row, and later write
it back whole. A later ping that is written in between is lost: the row goes
back to an older heartbeat, and the monitor may declare a live worker stale.
A ping, too, is written some time after it reads the clock, and so is the
verdict of a pass. The stored heartbeats never decrease, and the monitor is
just, exactly when no write is overtaken by a later ping (`Current`) and no
ping lies half a minute before a pass by its reading but not by its write
(`Punctual`); this is `heartbeats_kept_iff`.

The proof of the one direction is an outline: each thread carries, from its
reading to its write, that the row is as it was read or a later ping has been
written since.
-/

namespace Nexad.Cluster

open Interleave

variable {D : Domain} {sha256 : List UInt8 → List UInt8} {server : ClusterServer}

/-- Heartbeat streams, monitor passes and drains. -/
def HeartbeatTraffic : Request → Prop
  | .heartbeat _ | .checkNodes | .drainNode _ => True
  | _ => False

/-- The reading a later write of thread `k` goes back to: the row, or for a
ping the clock. -/
def Reads (k : Nat) (e : Event (clusterSig D) Request) : Prop :=
  (∃ ans, e = .call k .checkNodes (.store .listNodes) ans) ∨
    (∃ name ans, e = .call k (.drainNode name) (.store (.getNodeByName name)) ans) ∨
    ∃ pings ans, e = .call k (.heartbeat pings) .now ans

/-- The event writes a ping of this node that carries a later time. -/
def LaterPing (id : Uuid) (time : DateTime) (e : Event (clusterSig D) Request) : Prop :=
  ∃ k pings n, e = .call k (.heartbeat pings) (.store (.updateNode n)) (.ok ()) ∧ n.id = id ∧
    time < n.lastHeartbeat

/-- Such a ping was written after the last reading of thread `k`. -/
def PingedSince (k : Nat) (id : Uuid) (time : DateTime) : MasterHistory D → Prop
  | [] => False
  | (_, e) :: l => ¬ Reads k e ∧ (LaterPing id time e ∨ PingedSince k id time l)

/-- A write comes with no later ping of its node between its reading and itself. -/
def Current (l : MasterHistory D) (_ : Shared D) (e : Event (clusterSig D) Request) : Prop :=
  ∀ k req n, e = .call k req (.store (.updateNode n)) (.ok ()) →
    ¬ PingedSince k n.id n.lastHeartbeat l

/-- The last ping of this node that was written: when, and the time it carries. -/
def LastPing (id : Uuid) : MasterHistory D → (written carried : DateTime) → Prop
  | [], _, _ => False
  | (s, e) :: l, written, carried =>
    (∃ k pings n, e = .call k (.heartbeat pings) (.store (.updateNode n)) (.ok ()) ∧ n.id = id ∧
      written = s.clock ∧ carried = n.lastHeartbeat) ∨
    (¬ WritesPing id e ∧ LastPing id l written carried)

/-- When a pass writes a node whose last ping carries a time 30 s before the
pass's reading of the clock, that ping was also written 30 s before. -/
def Punctual (l : MasterHistory D) (s : Shared D) (e : Event (clusterSig D) Request) : Prop :=
  ∀ k n, e = .call k .checkNodes (.store (.updateNode n)) (.ok ()) →
    ∀ s' (now : DateTime), (s', .call k .checkNodes .now now) ∈ l →
      ∀ written carried, LastPing n.id l written carried →
        30_000_000_000 ≤ now - carried → 30_000_000_000 ≤ s.clock - written

/-- The stored heartbeat of a node. -/
def beat (s : Shared D) (id : Uuid) : Option DateTime := (s.nodes.get id).map Node.lastHeartbeat

/-- No stored heartbeat decreases. -/
def KeepsBeats (_ : MasterHistory D) (s : Shared D) (_ : Event (clusterSig D) Request)
    (s' : Shared D) : Prop :=
  ∀ id t, beat s id = some t → ∃ t', beat s' id = some t' ∧ t ≤ t'

/-- A monitor pass writes NotReady only for a node whose last ping was written
at least 30 s ago. -/
def JustMonitor (l : MasterHistory D) (s : Shared D) (e : Event (clusterSig D) Request)
    (_ : Shared D) : Prop :=
  ∀ k n, e = .call k .checkNodes (.store (.updateNode n)) (.ok ()) →
    ∀ written carried, LastPing n.id l written carried → 30_000_000_000 ≤ s.clock - written

/-! ## The contract -/

/-- What holds before every step. -/
structure BeatInv (l : MasterHistory D) (s : Shared D) : Prop where
  past : ∀ id t, beat s id = some t → t ≤ s.clock
  last : ∀ id t written carried, beat s id = some t → LastPing id l written carried → t = carried

/-- What every step that is current guarantees. -/
structure BeatGuar (l : MasterHistory D) (s : Shared D) (e : Event (clusterSig D) Request)
    (s' : Shared D) : Prop where
  clock : s.clock ≤ s'.clock
  beats : ∀ id, ¬ WritesPing id e → beat s' id = beat s id
  pinged : ∀ k pings n, e = .call k (.heartbeat pings) (.store (.updateNode n)) (.ok ()) →
    beat s' n.id = some n.lastHeartbeat
  kept : KeepsBeats l s e s'
  just : Punctual l s e → JustMonitor l s e s'

/-- The contract of current runs. -/
def beatContract : Contract (clusterSig D) (Shared D) Request where
  inv := BeatInv
  allowed := Current
  guar := BeatGuar

/-- A step that writes no ping keeps the invariant by what it guarantees. -/
theorem BeatInv.step {l : MasterHistory D} {s s' : Shared D} {e : Event (clusterSig D) Request}
    (h : BeatInv l s) (hguar : BeatGuar l s e s') (hping : ∀ id, ¬ WritesPing id e) :
    BeatInv ((s, e) :: l) s' := by
  refine ⟨fun id t ht => ?_, fun id t written carried ht hlast => ?_⟩
  · rw [hguar.beats id (hping id)] at ht
    exact (h.past id t ht).trans hguar.clock
  · rw [hguar.beats id (hping id)] at ht
    rcases hlast with ⟨k, pings, n, he, hn, -⟩ | ⟨-, hlast⟩
    · exact absurd ⟨k, pings, n, he, hn⟩ (hping id)
    · exact h.last id t written carried ht hlast

/-- A step that leaves the nodes alone. -/
theorem BeatGuar.quiet {l : MasterHistory D} {s s' : Shared D} {e : Event (clusterSig D) Request}
    (hclock : s.clock ≤ s'.clock) (hnodes : s'.nodes = s.nodes)
    (hquiet : ∀ k req n, e ≠ .call k req (.store (.updateNode n)) (.ok ())) : BeatGuar l s e s' where
  clock := hclock
  beats := fun id _ => by rw [beat, beat, hnodes]
  pinged := fun k pings n he => absurd he (hquiet k _ n)
  kept := fun id t ht => ⟨t, by rwa [beat, hnodes], le_rfl⟩
  just := fun _ k n he => absurd he (hquiet k .checkNodes n)

/-- An update that failed left the nodes alone. -/
theorem BeatGuar.failed {l : MasterHistory D} {s s' : Shared D} {k : Nat} {req : Request} {n : Node}
    {e : NexaError} (h : Answered s (.store (.updateNode n)) (.error e : Except NexaError Unit) s') :
    BeatGuar l s (.call k req (.store (.updateNode n)) (.error e : Except NexaError Unit)) s' := by
  refine .quiet (Answered.clock h).ge ?_ fun j r m he => by cases he
  cases Answered.nodes h with
  | same kept => exact kept

theorem not_writesPing {e : Event (clusterSig D) Request}
    (hquiet : ∀ k req n, e ≠ .call k req (.store (.updateNode n)) (.ok ())) (id : Uuid) :
    ¬ WritesPing id e := by
  rintro ⟨k, pings, n, he, -⟩
  exact hquiet k _ n he

/-- The stored heartbeats after an update. -/
theorem beat_update {s s' : Shared D} {n : Node} (h : s.nodes.update n = .ok (some s'.nodes))
    (id : Uuid) : beat s' id = if id = n.id then some n.lastHeartbeat else beat s id := by
  obtain ⟨j, hget⟩ := NodeTable.get_update h id
  rw [beat, hget]
  split
  · rfl
  · rfl

/-! ## Assertions -/

theorem not_reads_of_foreign {k : Nat} {e : Event (clusterSig D) Request} (h : e.Foreign k) :
    ¬ Reads k e := by
  rintro (⟨ans, he⟩ | ⟨name, ans, he⟩ | ⟨pings, ans, he⟩)
  · exact h _ _ _ he
  · exact h _ _ _ he
  · exact h _ _ _ he

/-- The node's heartbeat is as thread `k` read it, or a later ping came in between. -/
def AsRead (k : Nat) (n : Node) (l : MasterHistory D) (s : Shared D) : Prop :=
  beat s n.id = some n.lastHeartbeat ∨ PingedSince k n.id n.lastHeartbeat l

theorem AsRead.step {k : Nat} {n : Node} {l : MasterHistory D} {s s' : Shared D}
    {e : Event (clusterSig D) Request} (h : AsRead k n l s) (hreads : ¬ Reads k e)
    (hguar : BeatGuar l s e s') : AsRead k n ((s, e) :: l) s' := by
  rcases h with hbeat | hpinged
  · by_cases hping : WritesPing n.id e
    · obtain ⟨j, pings, m, he, hid⟩ := hping
      have hwritten : beat s' n.id = some m.lastHeartbeat := hid ▸ hguar.pinged j pings m he
      obtain ⟨t, ht, hle⟩ := hguar.kept n.id _ hbeat
      rw [hwritten, Option.some.injEq] at ht
      rcases lt_or_eq_of_le (ht ▸ hle) with hlt | heq
      · exact .inr ⟨hreads, .inl ⟨j, pings, m, he, hid, hlt⟩⟩
      · exact .inl (heq ▸ hwritten)
    · exact .inl ((hguar.beats n.id hping).trans hbeat)
  · exact .inr ⟨hreads, .inr hpinged⟩

/-- What a monitor pass knows of the nodes it listed, and of its reading of the clock. -/
structure Listed (k : Nat) (now : DateTime) (nodes : List Node) (l : MasterHistory D)
    (s : Shared D) : Prop where
  clock : ∃ s', (s', .call k .checkNodes .now now) ∈ l
  asRead : ∀ n ∈ nodes, AsRead k n l s

theorem Listed.step {k : Nat} {now : DateTime} {nodes : List Node} {l : MasterHistory D}
    {s s' : Shared D} {e : Event (clusterSig D) Request} (h : Listed k now nodes l s)
    (hreads : ¬ Reads k e) (hguar : BeatGuar l s e s') : Listed k now nodes ((s, e) :: l) s' :=
  ⟨h.clock.imp fun _ hread => List.mem_cons_of_mem _ hread,
    fun n hn => (h.asRead n hn).step hreads hguar⟩

/-- What a heartbeat task knows from its reading of the clock on. -/
structure Clocked (k : Nat) (id : Uuid) (now : DateTime) (l : MasterHistory D) (s : Shared D) :
    Prop where
  clock : now ≤ s.clock
  newest : (∀ t, beat s id = some t → t ≤ now) ∨ PingedSince k id now l

theorem Clocked.step {k : Nat} {id : Uuid} {now : DateTime} {l : MasterHistory D}
    {s s' : Shared D} {e : Event (clusterSig D) Request} (h : Clocked k id now l s)
    (hreads : ¬ Reads k e) (hguar : BeatGuar l s e s') : Clocked k id now ((s, e) :: l) s' := by
  refine ⟨h.clock.trans hguar.clock, ?_⟩
  rcases h.newest with hnewest | hpinged
  · by_cases hping : WritesPing id e
    · obtain ⟨j, pings, m, he, hid⟩ := hping
      have hwritten : beat s' id = some m.lastHeartbeat := hid ▸ hguar.pinged j pings m he
      rcases lt_or_ge now m.lastHeartbeat with hlt | hge
      · exact .inr ⟨hreads, .inl ⟨j, pings, m, he, hid, hlt⟩⟩
      · refine .inl fun t ht => ?_
        rw [hwritten, Option.some.injEq] at ht
        exact ht ▸ hge
    · exact .inl (hguar.beats id hping ▸ hnewest)
  · exact .inr ⟨hreads, .inr hpinged⟩

/-! ## Outlines -/

section Outline

variable {M : Machine (clusterSig D) (Shared D) Request Reply} {k : Nat} {req : Request}
  {P : MasterHistory D → Shared D → Prop}

/-- Nothing is assumed. -/
def Anything (_ : MasterHistory D) (_ : Shared D) : Prop := True

theorem stable_anything : Stable beatContract k (Anything (D := D)) :=
  fun _ _ _ _ _ _ _ _ _ => trivial

/-- An assertion that its thread's own readings apart every step keeps is stable. -/
theorem stable_of_step (h : ∀ l s e s', ¬ Reads k e → BeatGuar l s e s' → P l s →
    P ((s, e) :: l) s') : Stable beatContract k P :=
  fun l s e s' hforeign _ hP _ hguar => h l s e s' (not_reads_of_foreign hforeign) hguar hP

/-- Operations that leave the nodes alone. -/
def Quiet (op : Op D) : Prop :=
  (∀ n, op ≠ .store (.insertNode n)) ∧ (∀ n, op ≠ .store (.updateNode n)) ∧
    ∀ id, op ≠ .store (.deleteNode id)

theorem Quiet.nodes {op : Op D} (hop : Quiet op) {s s' : Shared D} {ans : op.Ans D}
    (h : Answered s op ans s') : s'.nodes = s.nodes := by
  cases Answered.nodes h with
  | same kept => exact kept
  | insert => exact absurd rfl (hop.1 _)
  | update => exact absurd rfl (hop.2.1 _)
  | delete => exact absurd rfl (hop.2.2 _)

/-- A call that leaves the nodes alone. -/
theorem valid_quiet (hM : M.answer = Answered) {op : Op D} {cont : op.Ans D → Code D}
    (hop : Quiet op) (hstable : Stable beatContract k P)
    (hcont : ∀ l s ans s', BeatInv l s → P l s → Answered s op ans s' →
      BeatGuar l s (.call k req op ans) s' →
        ∃ Q, Q ((s, .call k req op ans) :: l) s' ∧ Valid M beatContract k req (cont ans) Q) :
    Valid M beatContract k req (.call op cont) P := by
  refine ⟨hstable, fun l s ans s' hinv hP _ hanswer => ?_⟩
  rw [hM] at hanswer
  have hquiet : ∀ j r n, (Event.call k req op ans : Event (clusterSig D) Request) ≠
      .call j r (.store (.updateNode n)) (.ok ()) := by
    intro j r n he
    cases he
    exact hop.2.1 n rfl
  have hguar : BeatGuar l s (.call k req op ans) s' :=
    .quiet (Answered.clock hanswer).ge (hop.nodes hanswer) hquiet
  exact ⟨hguar, BeatInv.step hinv hguar (not_writesPing hquiet), hcont l s ans s' hinv hP hanswer hguar⟩

/-- A row that is written back as it was read but for other columns. -/
theorem valid_writeBack (hM : M.answer = Answered) {n : Node}
    {cont : Except NexaError Unit → Code D} (hreq : ∀ pings, req ≠ .heartbeat pings)
    (hstable : Stable beatContract k P) (hread : ∀ l s, P l s → AsRead k n l s)
    (hjust : ∀ l s s', BeatInv l s → P l s →
      Punctual l s (.call k req (.store (.updateNode n)) (.ok ())) →
        beat s n.id = some n.lastHeartbeat →
          JustMonitor l s (.call k req (.store (.updateNode n)) (.ok ())) s')
    (hcont : ∀ l s ans s', P l s → BeatGuar l s (.call k req (.store (.updateNode n)) ans) s' →
      ∃ Q, Q ((s, .call k req (.store (.updateNode n)) ans) :: l) s' ∧
        Valid M beatContract k req (cont ans) Q) :
    Valid M beatContract k req (ask (.updateNode n) cont) P := by
  refine ⟨hstable, fun l s ans s' hinv hP hallowed hanswer => ?_⟩
  rw [hM] at hanswer
  have hping : ∀ id, ¬ WritesPing id
      (.call k req (.store (.updateNode n)) ans : Event (clusterSig D) Request) := by
    rintro id ⟨j, pings, m, he, -⟩
    cases he
    exact hreq pings rfl
  have hguar : BeatGuar l s (.call k req (.store (.updateNode n)) ans) s' := by
    match ans with
    | .error e => exact .failed hanswer
    | .ok () =>
      have hbeat : beat s n.id = some n.lastHeartbeat :=
        (hread l s hP).resolve_right (hallowed k req n rfl)
      have hbeats : ∀ id, beat s' id = beat s id := by
        intro id
        rw [beat_update (Answered.update hanswer)]
        split
        · next hid => rw [hid, hbeat]
        · rfl
      refine ⟨(Answered.clock hanswer).ge, fun id _ => hbeats id, fun j pings m he => ?_,
        fun id t ht => ⟨t, (hbeats id).trans ht, le_rfl⟩,
        fun hpunctual => hjust l s s' hinv hP hpunctual hbeat⟩
      exact absurd ⟨j, pings, m, he, rfl⟩ (hping m.id)
  exact ⟨hguar, BeatInv.step hinv hguar hping, hcont l s ans s' hP hguar⟩

/-- A ping that is written. -/
theorem valid_pinged (hM : M.answer = Answered) {pings : List HeartbeatPing} {ping : HeartbeatPing}
    {node : Node} {now : DateTime} {cont : Except NexaError Unit → Code D}
    (hcont : ∀ ans, Valid M beatContract k (.heartbeat pings) (cont ans) Anything) :
    Valid M beatContract k (.heartbeat pings) (ask (.updateNode (pinged ping now node)) cont)
      (Clocked k node.id now) := by
  refine ⟨stable_of_step fun l s e s' hreads hguar hP => hP.step hreads hguar,
    fun l s ans s' hinv hP hallowed hanswer => ?_⟩
  rw [hM] at hanswer
  match ans with
  | .error e =>
    have hquiet : ∀ j r n, (Event.call k (.heartbeat pings) (.store (.updateNode
        (pinged ping now node))) (.error e : Except NexaError Unit) :
          Event (clusterSig D) Request) ≠ .call j r (.store (.updateNode n)) (.ok ()) :=
      fun j r n he => by cases he
    have hguar : BeatGuar l s (.call k (.heartbeat pings) _ _) s' := .failed hanswer
    exact ⟨hguar, BeatInv.step hinv hguar (not_writesPing hquiet), _, trivial, hcont _⟩
  | .ok () =>
    have hclock : s'.clock = s.clock := Answered.clock hanswer
    have hbeats : ∀ id, beat s' id = if id = node.id then some now else beat s id :=
      beat_update (Answered.update hanswer)
    have hnewest : ∀ t, beat s node.id = some t → t ≤ now :=
      hP.newest.resolve_right (hallowed k _ (pinged ping now node) rfl)
    have hwrites : WritesPing node.id (.call k (.heartbeat pings) (.store (.updateNode
        (pinged ping now node))) (.ok () : Except NexaError Unit) :
          Event (clusterSig D) Request) := ⟨k, pings, _, rfl, rfl⟩
    refine ⟨⟨hclock.ge, fun id hid => ?_, fun j pings' n he => ?_, fun id t ht => ?_,
      fun _ j n he => by cases he⟩,
      ⟨fun id t ht => ?_, fun id t written carried ht hlast => ?_⟩, _, trivial, hcont _⟩
    · rw [hbeats, if_neg fun heq : id = node.id => hid (heq ▸ hwrites)]
    · cases he
      exact (hbeats node.id).trans (if_pos rfl)
    · by_cases hid : id = node.id
      · subst hid
        exact ⟨now, by rw [hbeats, if_pos rfl], hnewest t ht⟩
      · exact ⟨t, by rw [hbeats, if_neg hid, ht], le_rfl⟩
    · rw [hclock]
      by_cases hid : id = node.id
      · rw [hbeats, if_pos hid, Option.some.injEq] at ht
        exact ht ▸ hP.clock
      · rw [hbeats, if_neg hid] at ht
        exact hinv.past id t ht
    · by_cases hid : id = node.id
      · rw [hbeats, if_pos hid, Option.some.injEq] at ht
        rcases hlast with ⟨j, pings', n, he, -, -, rfl⟩ | ⟨hnot, -⟩
        · cases he
          exact ht.symm
        · exact absurd (hid ▸ hwrites) hnot
      · rw [hbeats, if_neg hid] at ht
        rcases hlast with ⟨j, pings', n, he, hn, -⟩ | ⟨-, hlast⟩
        · cases he
          exact absurd hn.symm hid
        · exact hinv.last id t written carried ht hlast

/-- The task of a heartbeat stream. -/
theorem valid_heartbeat (hM : M.answer = Answered) (sent pings : List HeartbeatPing) :
    Valid M beatContract k (.heartbeat sent) (ClusterServer.heartbeat D pings) Anything := by
  refine heartbeat_rule (C := fun p => Valid M beatContract k (.heartbeat sent) p Anything) trivial
    fun ping _ id rest hrest => ?_
  have hpong : Valid M beatContract k (.heartbeat sent) (sendPong D rest) Anything := by
    refine valid_quiet hM (by simp [Quiet]) stable_anything fun l s closed s' _ _ _ _ => ?_
    match closed with
    | true => exact ⟨Anything, trivial, trivial⟩
    | false => exact ⟨Anything, trivial, hrest⟩
  refine valid_quiet hM (by simp [Quiet]) stable_anything fun l s found s' _ _ _ _ => ?_
  match found with
  | .ok none => exact ⟨Anything, trivial, hpong⟩
  | .error _ => exact ⟨Anything, trivial, hpong⟩
  | .ok (some node) =>
    refine ⟨Anything, trivial, valid_quiet hM (by simp [Quiet]) stable_anything
      fun l s now s' hinv _ hanswer _ => ?_⟩
    cases hanswer
    exact ⟨Clocked k node.id s.clock, ⟨le_rfl, .inl (hinv.past node.id)⟩,
      valid_pinged hM fun _ => hpong⟩

/-- What was read by name is as it is stored. -/
theorem beat_of_mem {s : Shared D} {n : Node} (h : n ∈ s.nodes.rows) :
    beat s n.id = some n.lastHeartbeat := by
  rw [beat, NodeTable.get_of_mem h]
  rfl

/-- A drain. -/
theorem valid_drainNode (hM : M.answer = Answered) (name : String) :
    Valid M beatContract k (.drainNode name) (Api.drainNode D name) Anything := by
  refine valid_quiet hM (by simp [Quiet]) stable_anything fun l s found s' _ _ hanswer _ => ?_
  match found with
  | .ok none => exact ⟨Anything, trivial, trivial⟩
  | .error _ => exact ⟨Anything, trivial, trivial⟩
  | .ok (some node) =>
    have hread : beat s' node.id = some node.lastHeartbeat := by
      cases hanswer with
      | store run =>
        obtain ⟨hfound, rfl⟩ := Prod.mk.inj run
        exact beat_of_mem (List.mem_of_find?_eq_some (Except.ok.inj hfound))
    refine ⟨AsRead k node, .inl hread, ?_⟩
    refine valid_writeBack hM (fun _ h => by cases h)
      (stable_of_step fun l s e s' hreads hguar hP => AsRead.step hP hreads hguar)
      (fun l s hP => hP) (fun l s s' _ _ _ _ j n he => by cases he) fun l s ans s' _ _ => ?_
    match ans with
    | .ok () => exact ⟨Anything, trivial, trivial⟩
    | .error _ => exact ⟨Anything, trivial, trivial⟩

section Monitor

variable {now : DateTime} {nodes : List Node}

theorem stable_listed : Stable beatContract k (Listed (D := D) k now nodes) :=
  stable_of_step fun _ _ _ _ hreads hguar hP => hP.step hreads hguar

/-- A monitor's own calls after its reading of the nodes read nothing anew. -/
theorem not_reads_checkNodes {op : Op D} {ans : op.Ans D} (hop : op ≠ .store .listNodes) :
    ¬ Reads k (.call k .checkNodes op ans : Event (clusterSig D) Request) := by
  rintro (⟨ans, he⟩ | ⟨name, ans, he⟩ | ⟨pings, ans, he⟩)
  · cases he
    exact hop rfl
  · cases he
  · cases he

/-- The write of a stale node. -/
theorem valid_markNotReady (hM : M.answer = Answered) {node : Node} {rest : Code D}
    (hnode : node ∈ nodes) (hstale : notReadyThreshold ≤ elapsed now node)
    (hrest : Valid M beatContract k .checkNodes rest (Listed k now nodes)) :
    Valid M beatContract k .checkNodes
      (ask (.updateNode { node with status := .notReady }) fun _ => rest) (Listed k now nodes) := by
  refine valid_writeBack hM (fun _ h => by cases h) stable_listed
    (fun l s hP => hP.asRead node hnode)
    (fun l s s' hinv hP hpunctual hbeat j n he written carried hlast => ?_)
    fun l s ans s' hP hguar =>
      ⟨Listed k now nodes, hP.step (not_reads_checkNodes (by simp)) hguar, hrest⟩
  cases he
  obtain ⟨s₁, hread⟩ := hP.clock
  have hcarried : @Eq Int node.lastHeartbeat carried :=
    hinv.last node.id _ written carried hbeat hlast
  refine hpunctual k _ rfl s₁ now hread written carried hlast ?_
  show @LE.le Int _ _ (@HSub.hSub Int Int Int _ now carried)
  unfold elapsed notReadyThreshold at hstale
  omega

theorem valid_collectPods (hM : M.answer = Answered) {node : Node} {rest : Code D}
    (hrest : Valid M beatContract k .checkNodes rest (Listed k now nodes)) :
    Valid M beatContract k .checkNodes (collectPods D node rest) (Listed k now nodes) := by
  refine valid_quiet hM (by simp [Quiet]) stable_listed fun l s found s' _ hP _ hguar => ?_
  have hlisted := hP.step (not_reads_checkNodes (by simp)) hguar
  match found with
  | .error _ => exact ⟨_, hlisted, trivial⟩
  | .ok pods =>
    refine ⟨_, hlisted, ?_⟩
    dsimp only
    split
    · exact hrest
    · exact valid_quiet hM (by simp [Quiet]) stable_listed fun l s ans s' _ hP _ hguar =>
        ⟨_, hP.step (not_reads_checkNodes (by simp)) hguar, hrest⟩

theorem valid_checkEach (hM : M.answer = Answered) {left : List Node}
    (hleft : ∀ n ∈ left, n ∈ nodes) :
    Valid M beatContract k .checkNodes (checkEach D now left) (Listed k now nodes) := by
  refine checkEach_rule (C := fun p => Valid M beatContract k .checkNodes p (Listed k now nodes))
    trivial (fun node hnode hlate rest hrest => ?_) fun node _ _ rest hrest => ?_
  · exact valid_markNotReady hM (hleft node hnode) hlate hrest
  · exact valid_collectPods hM hrest

/-- A monitor pass. -/
theorem valid_checkNodes (hM : M.answer = Answered) :
    Valid M beatContract k .checkNodes (checkNodes D) Anything := by
  refine valid_quiet hM (by simp [Quiet]) stable_anything fun l s found s' _ _ hanswer _ => ?_
  match found with
  | .error _ => exact ⟨Anything, trivial, trivial⟩
  | .ok nodes =>
    have hread : ∀ n ∈ nodes, beat s' n.id = some n.lastHeartbeat := by
      intro n hn
      cases hanswer with
      | store run =>
        obtain ⟨hnodes, rfl⟩ := Prod.mk.inj run
        cases hnodes
        exact beat_of_mem (List.mem_mergeSort.mp hn)
    refine ⟨fun l s => ∀ n ∈ nodes, AsRead k n l s, fun n hn => .inl (hread n hn), ?_⟩
    refine valid_quiet hM (by simp [Quiet]) (stable_of_step fun l s e s' hreads hguar hP n hn =>
      (hP n hn).step hreads hguar) fun l s now s' _ hP hanswer hguar => ?_
    have hasRead : ∀ n ∈ nodes, AsRead k n ((s, .call k .checkNodes .now now) :: l) s' :=
      fun n hn => (hP n hn).step (not_reads_checkNodes (by simp)) hguar
    exact ⟨Listed k now nodes, ⟨⟨s, List.mem_cons_self⟩, hasRead⟩, valid_checkEach hM fun _ h => h⟩

end Monitor

end Outline

/-! ## Runs -/

/-- What the steps of a current run guarantee. -/
theorem beat_steps {s₀ : Shared D} {l : MasterHistory D} {p : MasterPool D}
    (hstart : ∀ n ∈ s₀.nodes.rows, n.lastHeartbeat ≤ s₀.clock)
    (hrun : Run (master D sha256 server HeartbeatTraffic) (.idle s₀) l p)
    (hcurrent : l.All Current) : l.Steps BeatGuar p.state := by
  have hinv₀ : BeatInv [] s₀ := by
    refine ⟨fun id t ht => ?_, fun id t written carried _ hlast => hlast.elim⟩
    obtain ⟨n, hget, rfl⟩ := Option.map_eq_some_iff.mp ht
    exact hstart n (NodeTable.mem_of_get hget).1
  have harrive : ∀ (l : MasterHistory D) (s : Shared D) k req, HeartbeatTraffic req → BeatInv l s →
      Current l s (.arrive k req) → BeatGuar l s (.arrive k req) s ∧
        BeatInv ((s, .arrive k req) :: l) s ∧ ∃ P, P ((s, .arrive k req) :: l) s ∧
          Valid (master D sha256 server HeartbeatTraffic) beatContract k req
            (req.code D sha256 server) P := by
    intro l s k req htraffic hinv _
    have hquiet : ∀ j r n, (Event.arrive k req : Event (clusterSig D) Request) ≠
        .call j r (.store (.updateNode n)) (.ok ()) := fun j r n he => by cases he
    have hguar : BeatGuar l s (.arrive k req) s := .quiet le_rfl rfl hquiet
    refine ⟨hguar, hinv.step hguar (not_writesPing hquiet), Anything, trivial, ?_⟩
    cases req with
    | heartbeat pings => exact valid_heartbeat rfl pings pings
    | checkNodes => exact valid_checkNodes rfl
    | drainNode name => exact valid_drainNode rfl name
    | _ => exact htraffic.elim
  have henv : ∀ (l : MasterHistory D) (s s' : Shared D), Ticks D s s' → BeatInv l s →
      Current l s .env → BeatGuar l s .env s' ∧ BeatInv ((s, .env) :: l) s' := by
    intro l s s' hticks hinv _
    have hquiet : ∀ j r n, (Event.env : Event (clusterSig D) Request) ≠
        .call j r (.store (.updateNode n)) (.ok ()) := fun j r n he => by cases he
    have hguar : BeatGuar l s .env s' := by
      cases hticks with
      | tick forward => exact .quiet forward rfl hquiet
    exact ⟨hguar, hinv.step hguar (not_writesPing hquiet)⟩
  exact (Run.outline (C := beatContract) harrive henv hinv₀ hrun hcurrent).2

section Kept

variable {p₀ p : MasterPool D} {l : MasterHistory D} {arrives : Request → Prop}

/-- While no heartbeat decreases, a later ping is not forgotten. -/
theorem beat_of_pingedSince {k : Nat} {id : Uuid} {time : DateTime}
    (hrun : Run (master D sha256 server arrives) p₀ l p) (hkept : l.Steps KeepsBeats p.state)
    (hpinged : PingedSince k id time l) : ∃ t, beat p.state id = some t ∧ time < t := by
  induction hrun with
  | nil => exact hpinged.elim
  | @cons l q q' e _ hstep ih =>
    obtain ⟨-, hlater | hsince⟩ := hpinged
    · obtain ⟨j, pings, n, rfl, rfl, hlt⟩ := hlater
      cases hstep with
      | call _ answered =>
        exact ⟨_, (beat_update (Answered.update answered) n.id).trans (if_pos rfl), hlt⟩
    · obtain ⟨t, ht, hlt⟩ := ih hkept.2 hsince
      obtain ⟨t', ht', hle⟩ := hkept.1 id t ht
      exact ⟨t', ht', lt_of_lt_of_le hlt hle⟩

/-- A write that a later ping overtook takes the heartbeat back. -/
theorem current_of_kept (hrun : Run (master D sha256 server arrives) p₀ l p)
    (hkept : l.Steps KeepsBeats p.state) : l.All Current := by
  induction hrun with
  | nil => exact trivial
  | @cons l q q' e hrun hstep ih =>
    refine ⟨fun k req n he hpinged => ?_, ih hkept.2⟩
    subst he
    obtain ⟨t, ht, hlt⟩ := beat_of_pingedSince hrun hkept.2 hpinged
    obtain ⟨t', ht', hle⟩ := hkept.1 n.id t ht
    cases hstep with
    | @call _ _ _ _ _ s' _ answered =>
      have hbeat : beat s' n.id = some n.lastHeartbeat :=
        (beat_update (Answered.update answered) n.id).trans (if_pos rfl)
      cases hbeat.symm.trans ht'
      exact lt_irrefl _ (lt_of_lt_of_le hlt hle)

end Kept

/-- No stored heartbeat of a run ever decreases, and its monitor passes mark
only nodes whose last ping was written at least 30 s ago, exactly when every
write is current and every pass punctual. -/
theorem heartbeats_kept_iff {s₀ : Shared D} {l : MasterHistory D} {p : MasterPool D}
    (hstart : ∀ n ∈ s₀.nodes.rows, n.lastHeartbeat ≤ s₀.clock)
    (hrun : Run (master D sha256 server HeartbeatTraffic) (.idle s₀) l p) :
    (l.Steps KeepsBeats p.state ∧ l.Steps JustMonitor p.state) ↔
      (l.All Current ∧ l.All Punctual) := by
  constructor
  · intro h
    refine ⟨current_of_kept hrun h.1, h.2.all fun l s e s' hjust => ?_⟩
    exact fun k n he _ _ _ written carried hlast _ => hjust k n he written carried hlast
  · intro h
    have hsteps := beat_steps hstart hrun h.1
    have hkept : l.Steps KeepsBeats p.state :=
      hsteps.imp (A := Current) (fun l s e s' _ hguar => BeatGuar.kept hguar) h.1
    have hjust : l.Steps JustMonitor p.state :=
      hsteps.imp (A := Punctual) (fun l s e s' hpunctual hguar => BeatGuar.just hguar hpunctual) h.2
    exact ⟨hkept, hjust⟩

section Stale

/-- A number of seconds. -/
def seconds (n : Int) : DateTime := n * 1_000_000_000

/-- A worker that is stored with this heartbeat and status, at this clock. -/
def storedWorker (beat clock : Int) (status : NodeStatus) : Shared .plain where
  nodes := ⟨[{ worker with lastHeartbeat := seconds beat, status }], by simp, by simp⟩
  config := fun _ => none
  pods := []
  clock := seconds clock
  drawn := [⟨2⟩]

/-- The master that serves it; no token is ever hashed. -/
abbrev beatMaster : Machine (clusterSig .plain) (Shared .plain) Request Reply :=
  master .plain (fun _ => []) ⟨""⟩ HeartbeatTraffic

/-- The worker's ping. -/
def workerPing : HeartbeatPing := ⟨Uuid.hyphenated ⟨2⟩, "ready", none⟩

private theorem list_stored (beat clock : Int) (status : NodeStatus) :
    StoreCall.listNodes.run (storedWorker beat clock status) =
      (.ok (storedWorker beat clock status).nodes.rows, storedWorker beat clock status) := by
  have hlist : (storedWorker beat clock status).nodes.list =
      (storedWorker beat clock status).nodes.rows := List.mergeSort_singleton ..
  rw [StoreCall.run, hlist]

/-- A ping that takes a second from its reading of the clock to its write, a pass
half a minute later, another ping, and a drain. -/
def beatHistory : MasterHistory .plain :=
  [(storedWorker 35 35 .ready, .call 3 (.drainNode "w1") (.store (.updateNode
      { worker with lastHeartbeat := seconds 35, status := .draining })) (.ok ())),
    (storedWorker 35 35 .ready, .call 3 (.drainNode "w1") (.store (.getNodeByName "w1"))
      (.ok (some { worker with lastHeartbeat := seconds 35 }))),
    (storedWorker 35 35 .ready, .arrive 3 (.drainNode "w1")),
    (storedWorker 1 35 .notReady, .call 2 (.heartbeat [workerPing]) (.store (.updateNode
      { worker with lastHeartbeat := seconds 35 })) (.ok ())),
    (storedWorker 1 35 .notReady, .call 2 (.heartbeat [workerPing]) .now (seconds 35)),
    (storedWorker 1 35 .notReady, .call 2 (.heartbeat [workerPing]) (.store (.getNode ⟨2⟩))
      (.ok (some { worker with lastHeartbeat := seconds 1, status := .notReady }))),
    (storedWorker 1 35 .notReady, .arrive 2 (.heartbeat [workerPing])),
    (storedWorker 1 35 .ready, .call 0 .checkNodes (.store (.updateNode
      { worker with lastHeartbeat := seconds 1, status := .notReady })) (.ok ())),
    (storedWorker 1 35 .ready, .call 0 .checkNodes .now (seconds 35)),
    (storedWorker 1 35 .ready, .call 0 .checkNodes (.store .listNodes)
      (.ok [{ worker with lastHeartbeat := seconds 1 }])),
    (storedWorker 1 35 .ready, .arrive 0 .checkNodes),
    (storedWorker 1 2 .ready, .env),
    (storedWorker 0 2 .ready, .call 1 (.heartbeat [workerPing]) (.store (.updateNode
      { worker with lastHeartbeat := seconds 1 })) (.ok ())),
    (storedWorker 0 1 .ready, .env),
    (storedWorker 0 1 .ready, .call 1 (.heartbeat [workerPing]) .now (seconds 1)),
    (storedWorker 0 1 .ready, .call 1 (.heartbeat [workerPing]) (.store (.getNode ⟨2⟩))
      (.ok (some worker))),
    (storedWorker 0 1 .ready, .arrive 1 (.heartbeat [workerPing]))]

private theorem workerPing_code : beatMaster.code (.heartbeat [workerPing]) =
    ask (.getNode ⟨2⟩) (servePing .plain workerPing (.ret .streamEnd)) := by
  have hparse : Domain.plain.uuid.parse workerPing.nodeId = .ok ⟨2⟩ := by decide
  exact heartbeat_cons hparse

private theorem beatHistory_run : ∃ p, Run beatMaster (.idle (storedWorker 0 1 .ready)) beatHistory p ∧
    p.state = storedWorker 35 35 .draining := by
  have hread₁ : (StoreCall.getNode ⟨2⟩).run (storedWorker 0 1 .ready) =
      (.ok (some worker), storedWorker 0 1 .ready) := rfl
  have hping₁ : (StoreCall.updateNode { worker with lastHeartbeat := seconds 1 }).run
      (storedWorker 0 2 .ready) = (.ok (), storedWorker 1 2 .ready) := rfl
  have hmark : (StoreCall.updateNode
      { worker with lastHeartbeat := seconds 1, status := .notReady }).run (storedWorker 1 35 .ready) =
        (.ok (), storedWorker 1 35 .notReady) := rfl
  have hread₂ : (StoreCall.getNode ⟨2⟩).run (storedWorker 1 35 .notReady) =
      (.ok (some { worker with lastHeartbeat := seconds 1, status := .notReady }),
        storedWorker 1 35 .notReady) := rfl
  have hping₂ : (StoreCall.updateNode { worker with lastHeartbeat := seconds 35 }).run
      (storedWorker 1 35 .notReady) = (.ok (), storedWorker 35 35 .ready) := rfl
  have hread₃ : (StoreCall.getNodeByName "w1").run (storedWorker 35 35 .ready) =
      (.ok (some { worker with lastHeartbeat := seconds 35 }), storedWorker 35 35 .ready) := rfl
  have hdrain : (StoreCall.updateNode
      { worker with lastHeartbeat := seconds 35, status := .draining }).run (storedWorker 35 35 .ready) =
        (.ok (), storedWorker 35 35 .draining) := rfl
  have hlater : ∀ n m : Int, n ≤ m → seconds n ≤ seconds m := fun n m h =>
    Int.mul_le_mul_of_nonneg_right h (by decide)
  have harrive := (Run.start beatMaster (.idle (storedWorker 0 1 .ready))).arrive 1
    (.heartbeat [workerPing]) rfl trivial
  rw [workerPing_code] at harrive
  have hping := ((harrive.call 1 rfl (.store hread₁) |>.call 1 rfl .now).cons
    (.env (.tick (hlater 1 2 (by decide))))).call 1 rfl (.store hping₁)
  have hpass := (hping.cons (.env (.tick (hlater 2 35 (by decide))))).arrive 0 .checkNodes rfl trivial
    |>.call 0 rfl (.store (list_stored 1 35 .ready)) |>.call 0 rfl .now
    |>.call 0 rfl (.store hmark) |>.arrive 2 (.heartbeat [workerPing]) rfl trivial
  rw [workerPing_code] at hpass
  have hrun := hpass.call 2 rfl (.store hread₂) |>.call 2 rfl .now |>.call 2 rfl (.store hping₂)
    |>.arrive 3 (.drainNode "w1") rfl trivial |>.call 3 rfl (.store hread₃)
    |>.call 3 rfl (.store hdrain)
  exact ⟨_, hrun, rfl⟩

/-- An event that writes no row is current and punctual. -/
private theorem quiet_event {l : MasterHistory .plain} {s : Shared .plain}
    {e : Event (clusterSig .plain) Request}
    (hquiet : ∀ k req n, e ≠ .call k req (.store (.updateNode n)) (.ok ())) :
    Current l s e ∧ Punctual l s e :=
  ⟨fun k req n he => absurd he (hquiet k req n), fun k n he => absurd he (hquiet k .checkNodes n)⟩

/-- So is a write that no pass makes, if its reading is the call before it. -/
private theorem fresh_write {l : MasterHistory .plain} {s s' : Shared .plain} {k : Nat}
    {req : Request} {n : Node} {e : Event (clusterSig .plain) Request} (hreads : Reads k e)
    (hpass : req ≠ .checkNodes) :
    Current ((s', e) :: l) s (.call k req (.store (.updateNode n)) (.ok ())) ∧
      Punctual ((s', e) :: l) s (.call k req (.store (.updateNode n)) (.ok ())) := by
  refine ⟨fun j r m he hpinged => ?_, fun j m he => ?_⟩
  · cases he
    exact hpinged.1 hreads
  · cases he
    exact absurd rfl hpass

/-- Only a write of a ping changes which was the last. -/
private theorem LastPing.earlier {id : Uuid} {l : MasterHistory .plain} {s : Shared .plain}
    {e : Event (clusterSig .plain) Request} {written carried : DateTime}
    (h : LastPing id ((s, e) :: l) written carried) (hping : ¬ WritesPing id e) :
    LastPing id l written carried := by
  rcases h with ⟨k, pings, n, he, hid, -⟩ | ⟨-, hlast⟩
  · exact absurd ⟨k, pings, n, he, hid⟩ hping
  · exact hlast

private theorem beatHistory_ok : beatHistory.All fun l s e => Current l s e ∧ Punctual l s e := by
  refine ⟨fresh_write (.inr (.inl ⟨_, _, rfl⟩)) (fun h => by cases h), quiet_event ?_,
    quiet_event ?_, fresh_write (.inr (.inr ⟨_, _, rfl⟩)) (fun h => by cases h), quiet_event ?_,
    quiet_event ?_, quiet_event ?_, ⟨fun k req n he hpinged => ?_,
      fun k n he _ _ _ written carried hlast _ => ?_⟩, quiet_event ?_, quiet_event ?_,
    quiet_event ?_, quiet_event ?_, ⟨fun k req n he hpinged => ?_, fun k n he => by cases he⟩,
    quiet_event ?_, quiet_event ?_, quiet_event ?_, quiet_event ?_, trivial⟩
  case refine_6 =>
    -- the pass reads the clock right before it writes
    cases he
    obtain ⟨-, ⟨_, _, _, hwrites, -⟩ | ⟨hreads, -⟩⟩ := hpinged
    · cases hwrites
    · exact hreads (.inl ⟨_, rfl⟩)
  case refine_7 =>
    cases he
    have hping := (((hlast.earlier ?_).earlier ?_).earlier ?_).earlier ?_
    · obtain ⟨_, _, _, -, -, rfl, -⟩ | ⟨hnot, -⟩ := hping
      · decide
      · exact absurd ⟨1, _, _, rfl, rfl⟩ hnot
    all_goals
      rintro ⟨_, _, _, hwrites, -⟩
      cases hwrites
  case refine_12 =>
    -- only the clock moves between the ping's reading and its write
    cases he
    obtain ⟨-, ⟨_, _, _, hwrites, -⟩ | ⟨hreads, -⟩⟩ := hpinged
    · cases hwrites
    · exact hreads (.inr (.inr ⟨_, _, rfl⟩))
  all_goals
    intro k req n he
    cases he

theorem heartbeats_kept_worker : ∃ p,
    Run beatMaster (.idle (storedWorker 0 1 .ready)) beatHistory p ∧
    p.state = storedWorker 35 35 .draining ∧
    beatHistory.Steps KeepsBeats p.state ∧ beatHistory.Steps JustMonitor p.state := by
  obtain ⟨p, hrun, hstate⟩ := beatHistory_run
  have hstart : ∀ n ∈ (storedWorker 0 1 .ready).nodes.rows, n.lastHeartbeat ≤ seconds 1 := by
    intro n hn
    cases List.mem_singleton.mp hn
    decide
  have hcurrent : beatHistory.All Current := beatHistory_ok.imp fun _ _ _ h => h.1
  have hpunctual : beatHistory.All Punctual := beatHistory_ok.imp fun _ _ _ h => h.2
  exact ⟨p, hrun, hstate, (heartbeats_kept_iff hstart hrun).mpr ⟨hcurrent, hpunctual⟩⟩

/-- A ping between the pass's reading and its write: the stored heartbeat goes
back to the older one, and the worker is marked in the moment of its ping. -/
theorem stale_pass_undoes_ping : ∃ l p, Run beatMaster (.idle (storedWorker 0 35 .ready)) l p ∧
    ¬ l.Steps KeepsBeats p.state ∧ ¬ l.Steps JustMonitor p.state := by
  have hread : (StoreCall.getNode ⟨2⟩).run (storedWorker 0 35 .ready) =
      (.ok (some worker), storedWorker 0 35 .ready) := rfl
  have hping : (StoreCall.updateNode { worker with lastHeartbeat := seconds 35 }).run
      (storedWorker 0 35 .ready) = (.ok (), storedWorker 35 35 .ready) := rfl
  have hmark : (StoreCall.updateNode { worker with status := .notReady }).run
      (storedWorker 35 35 .ready) = (.ok (), storedWorker 0 35 .notReady) := rfl
  have hpass := (Run.start beatMaster (.idle (storedWorker 0 35 .ready))).arrive 0 .checkNodes rfl
    trivial |>.call 0 rfl (.store (list_stored 0 35 .ready)) |>.call 0 rfl .now
    |>.arrive 1 (.heartbeat [workerPing]) rfl trivial
  rw [workerPing_code] at hpass
  have hrun := hpass.call 1 rfl (.store hread) |>.call 1 rfl .now |>.call 1 rfl (.store hping)
    |>.call 0 rfl (.store hmark)
  refine ⟨_, _, hrun, fun hsteps => ?_, fun hsteps => ?_⟩
  · obtain ⟨t, ht, hle⟩ := hsteps.1 ⟨2⟩ (seconds 35) rfl
    cases ht
    exact absurd hle (by decide)
  · have hlate := hsteps.1 0 _ rfl (seconds 35) (seconds 35)
      (.inl ⟨1, _, _, rfl, rfl, rfl, rfl⟩)
    exact absurd hlate (by decide)

end Stale

end Nexad.Cluster
