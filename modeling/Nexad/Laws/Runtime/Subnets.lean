import Nexad.Laws.Runtime.Cni

/-!
# Subnets in one daemon

The allocator counts the octets it gives out and never takes one back: what a
name held goes to no other name, and when the count has come round no name
gets a new subnet. So the pool is at its end once 255 subnets were given out,
however many of them are still held (`exhausted_iff`).
-/

namespace Nexad.Runtime

open Interleave

/-- A call of the allocator. -/
inductive SubnetCall where
  | allocate (name : String)
  | release (name : String)
  deriving DecidableEq, Repr

/-- The allocator after a call. -/
def SubnetCall.next (allocator : SubnetAllocator) : SubnetCall → SubnetAllocator
  | allocate name => (allocator.allocate name).2
  | release name => allocator.release name

/-- A call in a run. -/
inductive SubnetStep (allocator : SubnetAllocator) : SubnetCall → SubnetAllocator → Prop
  | call (c : SubnetCall) : SubnetStep allocator c (c.next allocator)

/-- The calls of a run, newest first, each with the allocator it was made on. -/
abbrev SubnetHistory := List (SubnetAllocator × SubnetCall)

/-- The error of a pool at its end. -/
def poolExhausted : NexaError := .runtime "subnet pool exhausted (255 /24 networks allocated)"

namespace SubnetAllocator

variable {allocator next : SubnetAllocator} {l : SubnetHistory}

/-- What `allocate` can do. -/
inductive Allocated (allocator : SubnetAllocator) (name : String) :
    Except NexaError String → SubnetAllocator → Prop
  | again {octet : UInt8} (held : allocator.allocations.lookup name = some octet) :
      Allocated allocator name (.ok (subnetText octet)) allocator
  | exhausted (new : allocator.allocations.lookup name = none) (none_left : allocator.nextOctet = 0) :
      Allocated allocator name (.error poolExhausted) allocator
  | fresh (new : allocator.allocations.lookup name = none) (left : allocator.nextOctet ≠ 0) :
      Allocated allocator name (.ok (subnetText allocator.nextOctet)) (allocator.give name)

theorem allocate_allocated (allocator : SubnetAllocator) (name : String) :
    Allocated allocator name (allocator.allocate name).1 (allocator.allocate name).2 := by
  unfold allocate
  cases hlookup : allocator.allocations.lookup name with
  | some octet => exact .again hlookup
  | none =>
    by_cases hleft : allocator.nextOctet = 0
    · simp only [if_pos hleft]
      exact .exhausted hlookup hleft
    · simp only [if_neg hleft]
      exact .fresh hlookup hleft

/-! ## What was given out -/

/-- The call gave the name a subnet, or told it the one it has. -/
def Gives (subnet : String) (e : SubnetAllocator × SubnetCall) (name : String) : Prop :=
  e.2 = .allocate name ∧ (e.1.allocate name).1 = .ok subnet

/-- A subnet that was given out is nobody else's, and none that is still to come. -/
structure Remembers (l : SubnetHistory) (allocator : SubnetAllocator) : Prop where
  sound : allocator.Sound
  given : ∀ octet, ∀ e ∈ l, ∀ name, Gives (subnetText octet) e name →
    allocator.nextOctet = 0 ∨ octet < allocator.nextOctet
  held : ∀ octet, ∀ e ∈ l, ∀ name, Gives (subnetText octet) e name →
    ∀ other, allocator.allocations.lookup other = some octet → other = name
  once : ∀ octet, ∀ e ∈ l, ∀ e' ∈ l, ∀ name name', Gives (subnetText octet) e name →
    Gives (subnetText octet) e' name' → name = name'

/-- What a call gives is the octet that the name has afterwards. -/
theorem lookup_of_gives {subnet : String} {call : SubnetCall} {name : String}
    (h : Gives subnet (allocator, call) name) :
    ∃ octet, subnet = subnetText octet ∧ (call.next allocator).allocations.lookup name = some octet := by
  obtain ⟨rfl, hok⟩ := h
  have hcases := allocate_allocated allocator name
  unfold SubnetCall.next
  dsimp only at hok ⊢
  generalize (allocator.allocate name).2 = next at hcases ⊢
  rw [hok] at hcases
  cases hcases with
  | again held => exact ⟨_, rfl, held⟩
  | fresh => exact ⟨_, rfl, AList.lookup_insert _⟩

/-- No call gives out what is already given to somebody else. -/
theorem Remembers.step (h : Remembers l allocator) (call : SubnetCall) :
    Remembers ((allocator, call) :: l) (call.next allocator) := by
  -- the octets that are held afterwards, and those still to come
  obtain ⟨hsound, hless, hheld⟩ : (call.next allocator).Sound ∧
      (∀ octet, (allocator.nextOctet = 0 ∨ octet < allocator.nextOctet) →
        (call.next allocator).nextOctet = 0 ∨ octet < (call.next allocator).nextOctet) ∧
      ∀ octet other, (call.next allocator).allocations.lookup other = some octet →
        allocator.allocations.lookup other = some octet ∨
          octet = allocator.nextOctet ∧ allocator.nextOctet ≠ 0 := by
    cases call with
    | release name =>
      exact ⟨h.sound.release name, fun _ hlt => hlt, fun _ _ hother => .inl (lookup_release hother)⟩
    | allocate name =>
      have hcases := allocate_allocated allocator name
      unfold SubnetCall.next
      dsimp only
      generalize (allocator.allocate name).1 = result, (allocator.allocate name).2 = next at hcases ⊢
      cases hcases with
      | again => exact ⟨h.sound, fun _ hlt => hlt, fun _ _ hother => .inl hother⟩
      | exhausted => exact ⟨h.sound, fun _ hlt => hlt, fun _ _ hother => .inl hother⟩
      | fresh new left =>
        refine ⟨h.sound.give left name, fun octet hlt => ?_, fun octet other hother => ?_⟩
        · exact lt_next_or (UInt8.le_of_lt (hlt.resolve_left left))
        · rcases lookup_give hother with ⟨-, rfl⟩ | ⟨-, hbefore⟩
          · exact .inr ⟨rfl, left⟩
          · exact .inl hbefore
  -- what was given out before goes to nobody else
  have hpast : ∀ octet, ∀ e ∈ l, ∀ name, Gives (subnetText octet) e name →
      ∀ other, (call.next allocator).allocations.lookup other = some octet → other = name := by
    intro octet e he name hgives other hother
    rcases hheld octet other hother with hbefore | ⟨rfl, hleft⟩
    · exact h.held octet e he name hgives other hbefore
    · exact absurd ((h.given _ e he name hgives).resolve_left hleft) (UInt8.lt_irrefl _)
  have hnow : ∀ octet name, Gives (subnetText octet) (allocator, call) name →
      (call.next allocator).allocations.lookup name = some octet := by
    intro octet name hgives
    obtain ⟨octet', htext, hlookup⟩ := lookup_of_gives hgives
    rw [subnetText_injective htext]
    exact hlookup
  refine ⟨hsound, ?_, ?_, ?_⟩
  · intro octet e he name hgives
    rcases List.mem_cons.mp he with rfl | he
    · exact (hsound.given name octet (hnow octet name hgives)).2
    · exact hless octet (h.given octet e he name hgives)
  · intro octet e he name hgives other hother
    rcases List.mem_cons.mp he with rfl | he
    · exact hsound.distinct other name octet hother (hnow octet name hgives)
    · exact hpast octet e he name hgives other hother
  · intro octet e he e' he' name name' hgives hgives'
    rcases List.mem_cons.mp he with rfl | he
    · rcases List.mem_cons.mp he' with rfl | he'
      · exact hsound.distinct name name' octet (hnow octet name hgives) (hnow octet name' hgives')
      · exact hpast octet e' he' name' hgives' name (hnow octet name hgives)
    · rcases List.mem_cons.mp he' with rfl | he'
      · exact (hpast octet e he name hgives name' (hnow octet name' hgives')).symm
      · exact h.once octet e he e' he' name name' hgives hgives'

theorem allocate_eq_error_iff {name : String} {e : NexaError} :
    (allocator.allocate name).1 = .error e ↔
      allocator.allocations.lookup name = none ∧ allocator.nextOctet = 0 ∧ e = poolExhausted := by
  have hcases := allocate_allocated allocator name
  generalize (allocator.allocate name).1 = result, (allocator.allocate name).2 = next at hcases ⊢
  cases hcases with
  | again held => simp [held]
  | exhausted new none_left => simp [new, none_left, eq_comm]
  | fresh _ left => simp [left]

end SubnetAllocator

/-- The call gave a subnet to a name that had none. -/
def GivesNew (e : SubnetAllocator × SubnetCall) : Bool :=
  match e.2 with
  | .allocate name => (e.1.allocations.lookup name).isNone && (e.1.allocate name).1.isOk
  | .release _ => false

/-- How many subnets a run gave out, whether or not they are still held. -/
def given (l : SubnetHistory) : Nat := l.countP GivesNew

namespace SubnetAllocator

variable {allocator : SubnetAllocator} {l : SubnetHistory}

/-- The next octet counts what was given out, and the count ends at 255. -/
def Counts (l : SubnetHistory) (allocator : SubnetAllocator) : Prop :=
  given l ≤ 255 ∧ allocator.nextOctet.toNat = (given l + 1) % 256

theorem toNat_add_one (octet : UInt8) : (octet + 1).toNat = (octet.toNat + 1) % 256 := by
  rw [UInt8.toNat_add]
  rfl

theorem Counts.step (h : Counts l allocator) (call : SubnetCall) :
    Counts ((allocator, call) :: l) (call.next allocator) := by
  obtain ⟨hle, hcount⟩ := h
  cases call with
  | release name =>
    have hgiven : given ((allocator, .release name) :: l) = given l :=
      List.countP_cons_of_neg (by simp [GivesNew])
    rw [Counts, hgiven]
    exact ⟨hle, hcount⟩
  | allocate name =>
    have hcases := allocate_allocated allocator name
    generalize hresult : (allocator.allocate name).1 = result at hcases
    have hsame : allocator.allocations.lookup name ≠ none ∨ result.isOk = false →
        given ((allocator, .allocate name) :: l) = given l := by
      intro hnot
      refine List.countP_cons_of_neg ?_
      rcases hnot with hheld | herror
      · simp [GivesNew, hheld]
      · simp [GivesNew, hresult, herror]
    unfold Counts SubnetCall.next
    dsimp only
    generalize (allocator.allocate name).2 = next at hcases ⊢
    cases hcases with
    | again held =>
      rw [hsame (.inl (by simp [held]))]
      exact ⟨hle, hcount⟩
    | exhausted =>
      rw [hsame (.inr rfl)]
      exact ⟨hle, hcount⟩
    | fresh new left =>
      have hgiven : given ((allocator, .allocate name) :: l) = given l + 1 :=
        List.countP_cons_of_pos (by simp [GivesNew, new, hresult, Except.isOk, Except.toBool])
      have hleft : allocator.nextOctet.toNat ≠ 0 := fun hzero => left (UInt8.toNat_inj.mp hzero)
      rw [hgiven, give, toNat_add_one, hcount]
      rw [hcount] at hleft
      omega

theorem counts_of_run (hrun : Runs.Run SubnetStep new l allocator) : Counts l allocator := by
  induction hrun with
  | nil => exact ⟨Nat.zero_le _, rfl⟩
  | cons _ hstep ih =>
    cases hstep
    exact ih.step _

/-- No octet is left once 255 subnets were given out. -/
theorem nextOctet_eq_zero_iff (hrun : Runs.Run SubnetStep new l allocator) :
    allocator.nextOctet = 0 ↔ given l = 255 := by
  obtain ⟨hle, hcount⟩ := counts_of_run hrun
  rw [← UInt8.toNat_inj, hcount, show (0 : UInt8).toNat = 0 from rfl]
  omega

end SubnetAllocator

/-! ## Networks of one daemon -/

section Daemon

variable {κ : Type} [DecidableEq κ] {toStringPretty : CniConfig → Except String String}
  {dataDir : String} {place : String → κ}

/-- The call of the allocator that an event comes to. -/
def callOf (place : String → κ) (host : CniHost κ) : CniEvent → Option SubnetCall
  | .ensure name =>
    if (host.files (place (host.manager.confPath name))).isSome then none else some (.allocate name)
  | .remove name => some (.release name)
  | .restart => none

/-- The calls of the allocator in a daemon's run. -/
def callsOf (place : String → κ) (l : List (CniHost κ × CniEvent)) : SubnetHistory :=
  l.filterMap fun e => (callOf place e.1 e.2).map fun call => (e.1.manager.subnetAllocator, call)

/-- `ensure_network` calls the allocator where there is no file, and passes its error on. -/
theorem ensureNetwork_allocates {self manager : CniManager} {name : String}
    {files files' : PlacedFiles κ} {result : Except CniError Unit}
    (h : (self.ensureNetwork toStringPretty name).Exec (Succeeds place) files (result, manager) files') :
    (files (place (self.confPath name)) = none →
      manager.subnetAllocator = (self.subnetAllocator.allocate name).2) ∧
    ((files (place (self.confPath name))).isSome → manager = self) ∧
    ∀ e, result = .error (.pool e) ↔ files (place (self.confPath name)) = none ∧
      (self.subnetAllocator.allocate name).1 = .error e := by
  unfold CniManager.ensureNetwork at h
  cases h with
  | call answered h =>
  cases answered
  cases h with
  | call answered h =>
  cases answered
  cases hfound : files (place (self.confPath name)) with
  | some text =>
    rw [hfound] at h
    cases h
    simp
  | none =>
    rw [hfound] at h
    cases hallocated : self.subnetAllocator.allocate name with
    | mk subnet allocator =>
      simp only [Option.isSome_none, hallocated] at h
      cases subnet with
      | error e =>
        cases h
        simp [eq_comm]
      | ok subnet =>
        cases hjson : toStringPretty (CniManager.networkConfig name subnet) with
        | error e =>
          simp only [hjson] at h
          cases h
          simp
        | ok json =>
          simp only [hjson] at h
          cases h with
          | call answered h =>
          cases answered
          cases h
          simp

/-- The allocator of a daemon runs as one that is called by itself. -/
theorem run_callsOf {host₀ host : CniHost κ} {l : List (CniHost κ × CniEvent)}
    (hnew : host₀.manager = .new dataDir)
    (hrun : Runs.Run (CniStep toStringPretty dataDir place) host₀ l host)
    (hone : ∀ e ∈ l, e.2 ≠ .restart) :
    Runs.Run SubnetStep SubnetAllocator.new (callsOf place l) host.manager.subnetAllocator := by
  induction hrun with
  | nil =>
    rw [hnew]
    exact .nil
  | @cons l host host' e hrun hstep ih =>
    have hbefore := ih fun e he => hone e (List.mem_cons_of_mem _ he)
    cases hstep with
    | restart => exact absurd rfl (hone _ List.mem_cons_self)
    | @remove name result manager files run =>
      obtain ⟨rfl, -⟩ := removeNetwork_removed run
      exact hbefore.cons (.call _)
    | @ensure name result manager files run =>
      obtain ⟨hmissing, hpresent, -⟩ := ensureNetwork_allocates run
      unfold callsOf
      cases hfound : host.files (place (host.manager.confPath name)) with
      | some text =>
        rw [List.filterMap_cons_none (by simp [callOf, hfound]), hpresent (by rw [hfound]; rfl)]
        exact hbefore
      | none =>
        rw [List.filterMap_cons_some (b := (host.manager.subnetAllocator, .allocate name))
          (by simp [callOf, hfound]), hmissing hfound]
        exact hbefore.cons (.call _)

/-- The pool is at its end for a name without a subnet exactly when 255 subnets
were given out, those included that are released: of an allocator, and of the
networks of one daemon. -/
theorem exhausted_iff :
    (∀ {l allocator}, Runs.Run SubnetStep SubnetAllocator.new l allocator →
      ∀ name, (allocator.allocate name).1 = .error poolExhausted ↔
        allocator.allocations.lookup name = none ∧ given l = 255) ∧
    ∀ {host₀ host : CniHost κ} {l : List (CniHost κ × CniEvent)}, host₀.manager = .new dataDir →
      Runs.Run (CniStep toStringPretty dataDir place) host₀ l host → (∀ e ∈ l, e.2 ≠ .restart) →
      ∀ {name result manager files}, (host.manager.ensureNetwork toStringPretty name).Exec
        (Succeeds place) host.files (result, manager) files →
        (result = .error (.pool poolExhausted) ↔
          host.files (place (host.manager.confPath name)) = none ∧
          host.manager.subnetAllocator.allocations.lookup name = none ∧
          given (callsOf place l) = 255) := by
  have halone : ∀ {l allocator}, Runs.Run SubnetStep SubnetAllocator.new l allocator →
      ∀ name, (allocator.allocate name).1 = .error poolExhausted ↔
        allocator.allocations.lookup name = none ∧ given l = 255 := by
    intro l allocator hrun name
    rw [SubnetAllocator.allocate_eq_error_iff, SubnetAllocator.nextOctet_eq_zero_iff hrun]
    simp
  refine ⟨halone, fun hnew hrun hone name result manager files hexec => ?_⟩
  rw [(ensureNetwork_allocates hexec).2.2, halone (run_callsOf hnew hrun hone)]

end Daemon

section Churn

/-- One network, made and removed again and again. -/
def churn (name : String) (n : Nat) : List SubnetCall :=
  (List.replicate n [SubnetCall.release name, .allocate name]).flatten

/-- The allocator that nothing holds a subnet of, after `n` were given out. -/
def emptied (n : Nat) : SubnetAllocator := ⟨∅, UInt8.ofNat (n + 1)⟩

private theorem emptied_step {n : Nat} (h : n < 255) (name : String) :
    SubnetCall.next (SubnetCall.next (emptied n) (.allocate name)) (.release name) = emptied (n + 1) := by
  have hleft : (emptied n).nextOctet ≠ 0 := by
    intro hzero
    have hvalue := congrArg UInt8.toNat hzero
    rw [emptied, UInt8.toNat_ofNat_of_lt' (Nat.succ_lt_succ h)] at hvalue
    exact absurd hvalue (Nat.succ_ne_zero n)
  have hallocated : (emptied n).allocate name = (.ok (subnetText (emptied n).nextOctet),
      (emptied n).give name) := by
    unfold SubnetAllocator.allocate
    exact if_neg hleft
  have herased : ((∅ : AList fun _ : String => UInt8).insert name (emptied n).nextOctet).erase name =
      ∅ := by
    refine AList.ext ?_
    exact List.kerase_cons_eq rfl
  unfold SubnetCall.next
  simp only [hallocated]
  rw [SubnetAllocator.release, SubnetAllocator.give]
  dsimp only [emptied] at herased ⊢
  rw [herased]
  simp

theorem churn_run (name : String) {n : Nat} (h : n ≤ 255) :
    ∃ l, Runs.Run SubnetStep SubnetAllocator.new l (emptied n) ∧ l.map Prod.snd = churn name n := by
  induction n with
  | zero => exact ⟨[], .nil, rfl⟩
  | succ n ih =>
    obtain ⟨l, hrun, hcalls⟩ := ih (Nat.le_of_succ_le h)
    have hmore := (hrun.cons (.call (.allocate name))).cons (.call (.release name))
    rw [emptied_step (Nat.lt_of_succ_le h)] at hmore
    refine ⟨_, hmore, ?_⟩
    rw [List.map_cons, List.map_cons, hcalls, churn, churn, List.replicate_succ, List.flatten_cons]
    rfl

/-- After 255 networks that were all removed again there is no subnet for another. -/
theorem exhausted_when_empty : ∃ l allocator, Runs.Run SubnetStep SubnetAllocator.new l allocator ∧
    l.map Prod.snd = churn "nexa-shop" 255 ∧
    (∀ name, allocator.allocations.lookup name = none) ∧
    (allocator.allocate "nexa-blog").1 = .error poolExhausted := by
  obtain ⟨l, hrun, hcalls⟩ := churn_run "nexa-shop" (Nat.le_refl 255)
  exact ⟨l, emptied 255, hrun, hcalls, fun name => AList.lookup_empty name, rfl⟩

/-- A host whose network has its file. -/
def servedHost : CniHost String :=
  ⟨.new "/var/lib/nexa", fun path =>
    if path = "/var/lib/nexa/cni/conf/nexa-shop.conflist" then some "" else none⟩

/-- The pool after 255 networks, and a network that is there. -/
theorem exhausted_iff_shop : (∃ l, Runs.Run SubnetStep SubnetAllocator.new l (emptied 255) ∧
      given l = 255) ∧
    ∃ files, (servedHost.manager.ensureNetwork prettyJson "nexa-shop").Exec (Succeeds id)
      servedHost.files (.ok (), servedHost.manager) files ∧
      ¬ (Except.ok () : Except CniError Unit) = .error (.pool poolExhausted) := by
  constructor
  · obtain ⟨l, hrun, -⟩ := churn_run "nexa-shop" (Nat.le_refl 255)
    have hend := (@exhausted_iff String _ prettyJson "/var/lib/nexa" id).1 hrun "nexa-blog"
    exact ⟨l, hrun, (hend.mp rfl).2⟩
  · have hexists : Succeeds id servedHost.files
        (.exists (servedHost.manager.confPath "nexa-shop")) true servedHost.files := .exists _
    have hexec : (servedHost.manager.ensureNetwork prettyJson "nexa-shop").Exec (Succeeds id)
        servedHost.files (.ok (), servedHost.manager) servedHost.files :=
      .call (.createDirAll _) (.call hexists (.ret _ _))
    refine ⟨servedHost.files, hexec, fun herror => ?_⟩
    have hend := (@exhausted_iff String _ prettyJson "/var/lib/nexa" id).2 rfl .nil (by simp) hexec
    have hmissing : servedHost.files (servedHost.manager.confPath "nexa-shop") = none :=
      (hend.mp herror).1
    exact absurd hmissing (by decide)

end Churn

end Nexad.Runtime
