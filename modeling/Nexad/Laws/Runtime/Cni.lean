import Nexad.Base.Runs
import Nexad.Runtime.Cni

/-!
# Subnets on disk

Within one daemon the allocator gives no octet twice. The files outlive the
daemon and the allocator does not, and a new one counts from 1 again without
looking at them: the networks on disk have different subnets exactly as long
as no allocation comes to an octet that a file from before still carries
(`subnets_distinct_iff`).
-/

namespace Nexad.Runtime

open Interleave

/-! ## The allocator -/

/-- Different octets have different texts. -/
theorem subnetText_injective {octet octet' : UInt8} (h : subnetText octet = subnetText octet') :
    octet = octet' := by
  have hlist := congrArg String.toList h
  simp only [subnetText, String.toList_append, String.toList_ofList, List.append_assoc] at hlist
  have hdigits := List.append_cancel_right (List.append_cancel_left hlist)
  exact UInt8.toNat_inj.mp (Text.toDigits_injective hdigits)

namespace SubnetAllocator

/-- No two names share an octet, and none has one that is still to come. -/
structure Sound (allocator : SubnetAllocator) : Prop where
  given : ∀ name octet, allocator.allocations.lookup name = some octet →
    octet ≠ 0 ∧ (allocator.nextOctet = 0 ∨ octet < allocator.nextOctet)
  distinct : ∀ name name' octet, allocator.allocations.lookup name = some octet →
    allocator.allocations.lookup name' = some octet → name = name'

theorem sound_new : new.Sound where
  given := nofun
  distinct := nofun

variable {allocator : SubnetAllocator}

/-- The allocator once it has given its next octet to a name. -/
def give (allocator : SubnetAllocator) (name : String) : SubnetAllocator :=
  ⟨allocator.allocations.insert name allocator.nextOctet, allocator.nextOctet + 1⟩

theorem lookup_give {name other : String} {octet : UInt8}
    (h : (allocator.give name).allocations.lookup other = some octet) :
    other = name ∧ octet = allocator.nextOctet ∨
      other ≠ name ∧ allocator.allocations.lookup other = some octet := by
  unfold give at h
  by_cases heq : other = name
  · subst heq
    rw [AList.lookup_insert] at h
    cases h
    exact .inl ⟨rfl, rfl⟩
  · rw [AList.lookup_insert_ne heq] at h
    exact .inr ⟨heq, h⟩

/-- The next octet is nobody's. -/
theorem Sound.next_free (h : allocator.Sound) (hleft : allocator.nextOctet ≠ 0) (name : String) :
    allocator.allocations.lookup name ≠ some allocator.nextOctet := by
  intro hgiven
  rcases (h.given _ _ hgiven).2 with hnone | hlt
  · exact hleft hnone
  · exact absurd hlt (UInt8.lt_irrefl _)

/-- An octet is below the next one after it, unless there is none. -/
theorem lt_next_or {octet next : UInt8} (h : octet ≤ next) : next + 1 = 0 ∨ octet < next + 1 := by
  rw [UInt8.le_iff_toNat_le] at h
  rw [UInt8.lt_iff_toNat_lt, ← UInt8.toNat_inj, UInt8.toNat_add]
  have := next.toNat_lt
  rw [show (1 : UInt8).toNat = 1 from rfl, show (0 : UInt8).toNat = 0 from rfl]
  omega

theorem Sound.give (h : allocator.Sound) (hleft : allocator.nextOctet ≠ 0) (name : String) :
    (allocator.give name).Sound where
  given := by
    intro other octet hother
    rcases lookup_give hother with ⟨-, rfl⟩ | ⟨-, hbefore⟩
    · exact ⟨hleft, lt_next_or (UInt8.le_refl _)⟩
    · obtain ⟨hne, hlt⟩ := h.given other octet hbefore
      exact ⟨hne, lt_next_or (UInt8.le_of_lt (hlt.resolve_left hleft))⟩
  distinct := by
    intro a b octet ha hb
    rcases lookup_give ha with ⟨rfl, rfl⟩ | ⟨-, ha'⟩
    · rcases lookup_give hb with ⟨rfl, -⟩ | ⟨-, hb'⟩
      · rfl
      · exact absurd hb' (h.next_free hleft b)
    · rcases lookup_give hb with ⟨rfl, rfl⟩ | ⟨-, hb'⟩
      · exact absurd ha' (h.next_free hleft a)
      · exact h.distinct a b octet ha' hb'

theorem lookup_release {name other : String} {octet : UInt8}
    (h : (allocator.release name).allocations.lookup other = some octet) :
    allocator.allocations.lookup other = some octet := by
  unfold release at h
  by_cases heq : other = name
  · subst heq
    rw [AList.lookup_erase] at h
    cases h
  · rwa [AList.lookup_erase_ne heq] at h

theorem Sound.release (h : allocator.Sound) (name : String) : (allocator.release name).Sound where
  given := fun other octet hother => h.given other octet (lookup_release hother)
  distinct := fun a b octet ha hb => h.distinct a b octet (lookup_release ha) (lookup_release hb)

end SubnetAllocator

/-! ## One event -/

variable {κ : Type} [DecidableEq κ] {toStringPretty : CniConfig → Except String String}
  {subnetOf : String → Option String} {dataDir : String} {place : String → κ} {conf : κ → Prop}

/-- The file at a place carries a subnet. -/
def Carries (subnetOf : String → Option String) (files : PlacedFiles κ) (k : κ) (subnet : String) :
    Prop :=
  ∃ text, files k = some text ∧ subnetOf text = some subnet

/-- No two files of the directory carry one subnet. -/
def DistinctSubnets (conf : κ → Prop) (subnetOf : String → Option String) (files : PlacedFiles κ) :
    Prop :=
  ∀ k k' subnet, conf k → conf k' → Carries subnetOf files k subnet →
    Carries subnetOf files k' subnet → k = k'

/-- What is written for a network is its subnet's file. -/
def WritesSubnet (toStringPretty : CniConfig → Except String String)
    (subnetOf : String → Option String) : Prop :=
  ∀ name octet, ∃ text,
    toStringPretty (CniManager.networkConfig name (subnetText octet)) = .ok text ∧
      subnetOf text = some (subnetText octet)

/-- What `ensure_network` may have done: nothing, where the file is there or
the pool is at its end; or written the file, of the octet that the name has or
that comes next. -/
inductive Ensured (subnetOf : String → Option String) (place : String → κ) (self : CniManager)
    (name : String) (files : PlacedFiles κ) : CniManager → PlacedFiles κ → Prop
  | present (found : (files (place (self.confPath name))).isSome) :
      Ensured subnetOf place self name files self files
  | exhausted (missing : files (place (self.confPath name)) = none)
      (new : self.subnetAllocator.allocations.lookup name = none)
      (none_left : self.subnetAllocator.nextOctet = 0) :
      Ensured subnetOf place self name files self files
  | again {octet : UInt8} {text : String} (missing : files (place (self.confPath name)) = none)
      (held : self.subnetAllocator.allocations.lookup name = some octet)
      (carries : subnetOf text = some (subnetText octet)) :
      Ensured subnetOf place self name files self
        (Function.update files (place (self.confPath name)) (some text))
  | fresh {text : String} (missing : files (place (self.confPath name)) = none)
      (new : self.subnetAllocator.allocations.lookup name = none)
      (left : self.subnetAllocator.nextOctet ≠ 0)
      (carries : subnetOf text = some (subnetText self.subnetAllocator.nextOctet)) :
      Ensured subnetOf place self name files
        { self with subnetAllocator := self.subnetAllocator.give name }
        (Function.update files (place (self.confPath name)) (some text))

theorem ensureNetwork_ensured (hserde : WritesSubnet toStringPretty subnetOf) {self manager : CniManager}
    {name : String} {files files' : PlacedFiles κ} {result : Except CniError Unit}
    (h : (self.ensureNetwork toStringPretty name).Exec (Succeeds place) files (result, manager) files') :
    Ensured subnetOf place self name files manager files' := by
  unfold CniManager.ensureNetwork at h
  cases h with
  | call answered h =>
  cases answered
  cases h with
  | call answered h =>
  cases answered
  cases hfound : files (place (self.confPath name)) with
  | some text =>
    rw [hfound] at h
    cases h
    exact .present (by rw [hfound]; rfl)
  | none =>
    rw [hfound] at h
    cases hlookup : self.subnetAllocator.allocations.lookup name with
    | some octet =>
      obtain ⟨text, hjson, hcarries⟩ := hserde name octet
      simp only [SubnetAllocator.allocate, hlookup, hjson, Option.isSome_none] at h
      cases h with
      | call answered h =>
      cases answered
      cases h
      exact .again hfound hlookup hcarries
    | none =>
      by_cases hleft : self.subnetAllocator.nextOctet = 0
      · simp only [SubnetAllocator.allocate, hlookup, if_pos hleft, Option.isSome_none] at h
        cases h
        exact .exhausted hfound hlookup hleft
      · obtain ⟨text, hjson, hcarries⟩ := hserde name self.subnetAllocator.nextOctet
        simp only [SubnetAllocator.allocate, hlookup, if_neg hleft, hjson, Option.isSome_none] at h
        cases h with
        | call answered h =>
        cases answered
        cases h
        exact .fresh hfound hlookup hleft hcarries

/-- `remove_network` lets go of the name, and at most of one file. -/
theorem removeNetwork_removed {self manager : CniManager} {name : String}
    {files files' : PlacedFiles κ} {result : Except CniError Unit}
    (h : (self.removeNetwork name).Exec (Succeeds place) files (result, manager) files') :
    manager = { self with subnetAllocator := self.subnetAllocator.release name } ∧
      ∀ k text, files' k = some text → files k = some text := by
  unfold CniManager.removeNetwork at h
  cases h with
  | call answered h =>
  cases answered
  cases hfound : files (place (self.confPath name)) with
  | some text =>
    rw [hfound] at h
    cases h with
    | call answered h =>
    cases answered
    cases h
    refine ⟨rfl, fun k text hk => ?_⟩
    by_cases heq : k = place (self.confPath name)
    · subst heq
      rw [Function.update_self] at hk
      cases hk
    · rwa [Function.update_of_ne heq] at hk
  | none =>
    rw [hfound] at h
    cases h
    exact ⟨rfl, fun _ _ hk => hk⟩

/-! ## Runs -/

theorem carries_update {files : PlacedFiles κ} {k k' : κ} {text subnet : String}
    (h : Carries subnetOf (Function.update files k' (some text)) k subnet) :
    (k = k' ∧ subnetOf text = some subnet) ∨ (k ≠ k' ∧ Carries subnetOf files k subnet) := by
  obtain ⟨text', hk, hsubnet⟩ := h
  by_cases heq : k = k'
  · subst heq
    rw [Function.update_self] at hk
    cases hk
    exact .inl ⟨rfl, hsubnet⟩
  · rw [Function.update_of_ne heq] at hk
    exact .inr ⟨heq, text', hk, hsubnet⟩

/-- The event allocates a subnet that a file of the directory still carries. -/
def Reissues (conf : κ → Prop) (subnetOf : String → Option String) (place : String → κ)
    (host : CniHost κ) (e : CniEvent) : Prop :=
  ∃ name, e = .ensure name ∧ host.files (place (host.manager.confPath name)) = none ∧
    conf (place (host.manager.confPath name)) ∧
    host.manager.subnetAllocator.allocations.lookup name = none ∧
    host.manager.subnetAllocator.nextOctet ≠ 0 ∧
    ∃ k, conf k ∧
      Carries subnetOf host.files k (subnetText host.manager.subnetAllocator.nextOctet)

/-- The files have different subnets, and only the file of a name carries the
octet that the allocator holds for it. -/
structure Settled (conf : κ → Prop) (subnetOf : String → Option String) (place : String → κ)
    (host : CniHost κ) : Prop where
  distinct : DistinctSubnets conf subnetOf host.files
  sound : host.manager.subnetAllocator.Sound
  own : ∀ name octet, host.manager.subnetAllocator.allocations.lookup name = some octet →
    conf (place (host.manager.confPath name)) → ∀ k, conf k →
    Carries subnetOf host.files k (subnetText octet) → k = place (host.manager.confPath name)

/-- A file that no other file of the directory shares its subnet with. -/
theorem DistinctSubnets.update {files : PlacedFiles κ} (h : DistinctSubnets conf subnetOf files)
    {k₀ : κ} {text subnet : String} (htext : subnetOf text = some subnet)
    (halone : conf k₀ → ∀ k, conf k → Carries subnetOf files k subnet → k = k₀) :
    DistinctSubnets conf subnetOf (Function.update files k₀ (some text)) := by
  intro k k' subnet' hk hk' hcarries hcarries'
  rcases carries_update hcarries with ⟨rfl, hsubnet⟩ | ⟨-, hold⟩
  · rcases carries_update hcarries' with ⟨rfl, -⟩ | ⟨-, hold'⟩
    · rfl
    · rw [htext] at hsubnet
      cases hsubnet
      exact (halone hk k' hk' hold').symm
  · rcases carries_update hcarries' with ⟨rfl, hsubnet⟩ | ⟨-, hold'⟩
    · rw [htext] at hsubnet
      cases hsubnet
      exact halone hk' k hk hold
    · exact h k k' subnet' hk hk' hold hold'

/-- An event that reissues nothing keeps the host settled. -/
theorem Settled.step (hserde : WritesSubnet toStringPretty subnetOf) {host host' : CniHost κ}
    {e : CniEvent} (hstep : CniStep toStringPretty dataDir place host e host')
    (hfresh : ¬ Reissues conf subnetOf place host e) (h : Settled conf subnetOf place host) :
    Settled conf subnetOf place host' := by
  cases hstep with
  | restart => exact ⟨h.distinct, SubnetAllocator.sound_new, nofun⟩
  | @remove name result manager files run =>
    obtain ⟨rfl, hkept⟩ := removeNetwork_removed run
    have hcarries : ∀ {k subnet}, Carries subnetOf files k subnet →
        Carries subnetOf host.files k subnet :=
      fun ⟨text, hk, hsubnet⟩ => ⟨text, hkept _ _ hk, hsubnet⟩
    exact ⟨fun k k' subnet hk hk' ha hb => h.distinct k k' subnet hk hk' (hcarries ha) (hcarries hb),
      h.sound.release name, fun other octet hother hconf k hk ha =>
        h.own other octet (SubnetAllocator.lookup_release hother) hconf k hk (hcarries ha)⟩
  | @ensure name result manager files run =>
    cases ensureNetwork_ensured hserde run with
    | present => exact h
    | exhausted => exact h
    | @again octet text missing held carries =>
      refine ⟨h.distinct.update carries (h.own name octet held), h.sound, ?_⟩
      intro other octet' hother hconf k hk ha
      rcases carries_update ha with ⟨rfl, hsubnet⟩ | ⟨-, hold⟩
      · rw [carries] at hsubnet
        have hoctet := subnetText_injective (Option.some.inj hsubnet)
        subst hoctet
        rw [h.sound.distinct other name octet hother held]
      · exact h.own other octet' hother hconf k hk hold
    | @fresh text missing new left carries =>
      have halone : conf (place (host.manager.confPath name)) → ∀ k, conf k →
          Carries subnetOf host.files k (subnetText host.manager.subnetAllocator.nextOctet) →
          k = place (host.manager.confPath name) :=
        fun hconf k hk hcarries =>
          absurd ⟨name, rfl, missing, hconf, new, left, k, hk, hcarries⟩ hfresh
      refine ⟨h.distinct.update carries halone, h.sound.give left name, ?_⟩
      intro other octet hother hconf k hk ha
      rcases SubnetAllocator.lookup_give hother with ⟨rfl, rfl⟩ | ⟨-, hheld⟩
      · rcases carries_update ha with ⟨rfl, -⟩ | ⟨-, hold⟩
        · rfl
        · exact halone hconf k hk hold
      · rcases carries_update ha with ⟨rfl, hsubnet⟩ | ⟨-, hold⟩
        · rw [carries] at hsubnet
          have hoctet := subnetText_injective (Option.some.inj hsubnet)
          subst hoctet
          exact absurd hheld (h.sound.next_free left other)
        · exact h.own other octet hheld hconf k hk hold

/-- Two files of the directory never share a subnet, in any run of networks made
and removed and of daemons restarted, exactly when no allocation of the run
comes to a subnet that a file still carries. -/
theorem subnets_distinct_iff (hserde : WritesSubnet toStringPretty subnetOf) {host₀ host : CniHost κ}
    {l : List (CniHost κ × CniEvent)} (hnew : host₀.manager = .new dataDir)
    (h₀ : DistinctSubnets conf subnetOf host₀.files)
    (hrun : Runs.Run (CniStep toStringPretty dataDir place) host₀ l host) :
    (∀ host', Runs.Visited l host host' → DistinctSubnets conf subnetOf host'.files) ↔
      ∀ host' e, (host', e) ∈ l → ¬ Reissues conf subnetOf place host' e := by
  constructor
  · rintro hdistinct host' e hmem ⟨name, rfl, missing, hconf, new, left, k, hk, hcarries⟩
    obtain ⟨host'', hstep, hvisited⟩ := hrun.around hmem
    have hafter := hdistinct host'' hvisited
    cases hstep with
    | ensure run =>
      cases ensureNetwork_ensured hserde run with
      | present found =>
        rw [missing] at found
        cases found
      | exhausted _ _ none_left => exact left none_left
      | again _ held => cases new.symm.trans held
      | @fresh text _ _ _ carries =>
        obtain ⟨text', htext', hsubnet⟩ := hcarries
        have hne : k ≠ place (host'.manager.confPath name) := by
          rintro rfl
          cases missing.symm.trans htext'
        refine hne (hafter k _ _ hk hconf ⟨text', ?_, hsubnet⟩ ⟨text, ?_, carries⟩)
        · exact (Function.update_of_ne hne ..).trans htext'
        · exact Function.update_self ..
  · intro hfresh host' hvisited
    have hsettled : Settled conf subnetOf place host₀ := by
      refine ⟨h₀, ?_, ?_⟩
      · rw [hnew]
        exact SubnetAllocator.sound_new
      · rw [hnew]
        exact nofun
    exact (Runs.Run.visited hrun hsettled (fun _ _ _ hstep hkept hbefore =>
      hbefore.step hserde hstep hkept) hfresh hvisited).distinct

section Daemon

/-- What stands before the subnet in the file of a network. -/
def beforeSubnet (config : CniConfig) (bridge : String) : String :=
  "\x7b\n  \"cniVersion\": \"" ++ config.cniVersion ++ "\",\n  \"name\": \"" ++ config.name ++
  "\",\n  \"plugins\": [\n    \x7b\n      \"type\": \"bridge\",\n      \"bridge\": \"" ++ bridge ++
  "\",\n      \"isGateway\": true,\n      \"ipam\": \x7b\n        \"type\": \"host-local\",\n" ++
  "        \"subnet\": "

/-- What stands after it. -/
def afterSubnet : String :=
  "\"\n      \x7d\n    \x7d,\n    \x7b\n      \"type\": \"loopback\"\n    \x7d\n  ]\n\x7d"

/-- The JSON of a network's configuration, for names without anything to escape. -/
def prettyJson (config : CniConfig) : Except String String :=
  match config.plugins with
  | [.bridge bridge _ ipam, .loopback] =>
    .ok (beforeSubnet config bridge ++ "\"" ++ ipam.subnet ++ afterSubnet)
  | _ => .error "not a network"

/-- The text in quotes before the end of a network's file. -/
def readSubnet (text : String) : Option String :=
  let reversed := text.toList.reverse.drop afterSubnet.toList.length
  some (String.ofList (reversed.takeWhile fun c => c ≠ '"').reverse)

private theorem quote_not_mem (octet : UInt8) : '"' ∉ (subnetText octet).toList := by
  intro hmem
  simp only [subnetText, String.toList_append, String.toList_ofList, List.mem_append] at hmem
  rcases hmem with (hmem | hmem) | hmem
  · exact absurd hmem (by decide)
  · have hdigit := List.all_eq_true.mp (Text.toDigits_all_isDigit octet.toNat) _ hmem
    exact absurd hdigit (by decide)
  · exact absurd hmem (by decide)

/-- The file of a network with this octet. -/
def networkFile (name : String) (octet : UInt8) : String :=
  beforeSubnet (CniManager.networkConfig name (subnetText octet)) ("cni-" ++ name) ++ "\"" ++
    subnetText octet ++ afterSubnet

private theorem readSubnet_networkFile (name : String) (octet : UInt8) :
    readSubnet (networkFile name octet) = some (subnetText octet) := by
  have hstop : ∀ c ∈ (subnetText octet).toList.reverse, decide (c ≠ '"') = true := by
    intro c hc
    refine decide_eq_true fun heq => quote_not_mem octet ?_
    rw [← heq]
    exact List.mem_reverse.mp hc
  unfold readSubnet networkFile
  simp only [String.toList_append, List.reverse_append, List.append_assoc]
  rw [List.drop_left' List.length_reverse, List.takeWhile_append_of_pos hstop]
  simp

private theorem prettyJson_writes : WritesSubnet prettyJson readSubnet :=
  fun name octet => ⟨networkFile name octet, rfl, readSubnet_networkFile name octet⟩

/-- The host before its first network. -/
def emptyHost : CniHost String := ⟨.new "/var/lib/nexa", fun _ => none⟩

/-- Events of daemons over `/var/lib/nexa`. -/
abbrev hostStep : CniHost String → CniEvent → CniHost String → Prop :=
  CniStep prettyJson "/var/lib/nexa" id

/-- A network without a file and without an octet gets the next one. -/
private theorem ensure_fresh {host : CniHost String} {name text : String}
    (missing : host.files (host.manager.confPath name) = none)
    (new : host.manager.subnetAllocator.allocations.lookup name = none)
    (left : host.manager.subnetAllocator.nextOctet ≠ 0)
    (hjson : prettyJson (CniManager.networkConfig name
      (subnetText host.manager.subnetAllocator.nextOctet)) = .ok text) :
    hostStep host (.ensure name)
      ⟨{ host.manager with subnetAllocator := host.manager.subnetAllocator.give name },
        Function.update host.files (host.manager.confPath name) (some text)⟩ := by
  have hexists : Succeeds id host.files (.exists (host.manager.confPath name)) false host.files := by
    have hanswered : Succeeds id host.files (.exists (host.manager.confPath name))
        (host.files (host.manager.confPath name)).isSome host.files := .exists _
    rwa [missing] at hanswered
  have hrun : (host.manager.ensureNetwork prettyJson name).Exec (Succeeds id) host.files
      (.ok (), { host.manager with subnetAllocator := host.manager.subnetAllocator.give name })
      (Function.update host.files (host.manager.confPath name) (some text)) := by
    refine .call (.createDirAll _) (.call hexists ?_)
    simp only [SubnetAllocator.allocate, new, if_neg left, hjson]
    exact .call (.write ..) (.ret _ _)
  exact .ensure hrun

/-- The host with its first network. -/
def shopHost : CniHost String where
  manager := { emptyHost.manager with subnetAllocator := emptyHost.manager.subnetAllocator.give "nexa-shop" }
  files := Function.update emptyHost.files (emptyHost.manager.confPath "nexa-shop")
    (some (networkFile "nexa-shop" 1))

private theorem ensure_shop : hostStep emptyHost (.ensure "nexa-shop") shopHost :=
  ensure_fresh rfl rfl (by decide) rfl

private theorem emptyHost_distinct : DistinctSubnets (fun _ => True) readSubnet emptyHost.files := by
  rintro k k' subnet - - ⟨text, hk, -⟩
  cases hk

/-- A network whose file is there is left alone. -/
private theorem ensure_present {host : CniHost String} {name : String}
    (found : (host.files (host.manager.confPath name)).isSome = true) :
    hostStep host (.ensure name) host := by
  have hexists : Succeeds id host.files (.exists (host.manager.confPath name)) true host.files := by
    have hanswered : Succeeds id host.files (.exists (host.manager.confPath name))
        (host.files (host.manager.confPath name)).isSome host.files := .exists _
    rwa [found] at hanswered
  exact .ensure (.call (.createDirAll _) (.call hexists (.ret _ _)))

/-- A network whose file is there is removed. -/
private theorem remove_present {host : CniHost String} {name : String}
    (found : (host.files (host.manager.confPath name)).isSome = true) :
    hostStep host (.remove name)
      ⟨{ host.manager with subnetAllocator := host.manager.subnetAllocator.release name },
        Function.update host.files (host.manager.confPath name) none⟩ := by
  have hexists : Succeeds id host.files (.exists (host.manager.confPath name)) true host.files := by
    have hanswered : Succeeds id host.files (.exists (host.manager.confPath name))
        (host.files (host.manager.confPath name)).isSome host.files := .exists _
    rwa [found] at hanswered
  exact .remove (.call hexists (.call (.removeFile found) (.ret _ _)))

/-- Where the file of a network is. -/
def conflist (name : String) : String := (CniManager.new "/var/lib/nexa").confPath name

/-- The files when one network is there. -/
def fileOf (name : String) (octet : UInt8) : PlacedFiles String :=
  Function.update (fun _ => none) (conflist name) (some (networkFile name octet))

private theorem octet_of_carries (octet octet' : UInt8) {files : PlacedFiles String} {k name : String}
    (h : Carries readSubnet (Function.update files (conflist name) (some (networkFile name octet))) k
      (subnetText octet')) : octet = octet' ∨ Carries readSubnet files k (subnetText octet') := by
  rcases carries_update h with ⟨-, hsubnet⟩ | ⟨-, hold⟩
  · rw [readSubnet_networkFile] at hsubnet
    exact .inl (subnetText_injective (Option.some.inj hsubnet))
  · exact .inr hold

/-- The host with a second network. -/
def twoHost : CniHost String where
  manager := { shopHost.manager with subnetAllocator := shopHost.manager.subnetAllocator.give "nexa-blog" }
  files := Function.update shopHost.files (conflist "nexa-blog") (some (networkFile "nexa-blog" 2))

/-- The host without the first one. -/
def oneHost : CniHost String where
  manager := { twoHost.manager with subnetAllocator := twoHost.manager.subnetAllocator.release "nexa-shop" }
  files := fileOf "nexa-blog" 2

/-- The host under the next daemon. -/
def nextHost : CniHost String := ⟨.new "/var/lib/nexa", oneHost.files⟩

/-- The host when that daemon has made the first network again. -/
def againHost : CniHost String where
  manager := { nextHost.manager with subnetAllocator := nextHost.manager.subnetAllocator.give "nexa-shop" }
  files := Function.update nextHost.files (conflist "nexa-shop") (some (networkFile "nexa-shop" 1))

/-- Two networks are made and the first is removed; after a restart the second
is still there, and the first gets the octet that it has left free. -/
def harmlessRestart : List (CniHost String × CniEvent) :=
  [(againHost, .ensure "nexa-blog"), (nextHost, .ensure "nexa-shop"), (oneHost, .restart),
    (twoHost, .remove "nexa-shop"), (shopHost, .ensure "nexa-blog"), (emptyHost, .ensure "nexa-shop")]

private theorem conflist_ne : conflist "nexa-blog" ≠ conflist "nexa-shop" := by decide

private theorem twoHost_files : twoHost.files =
    Function.update (fileOf "nexa-shop" 1) (conflist "nexa-blog") (some (networkFile "nexa-blog" 2)) :=
  rfl

private theorem againHost_files : againHost.files =
    Function.update (fileOf "nexa-blog" 2) (conflist "nexa-shop") (some (networkFile "nexa-shop" 1)) :=
  rfl

private theorem againHost_blog :
    againHost.files (conflist "nexa-blog") = some (networkFile "nexa-blog" 2) := by
  rw [againHost_files, Function.update_of_ne conflist_ne, fileOf, Function.update_self]

private theorem harmlessRestart_run : Runs.Run hostStep emptyHost harmlessRestart againHost := by
  have hblog : hostStep shopHost (.ensure "nexa-blog") twoHost := by
    have hmissing : fileOf "nexa-shop" 1 (conflist "nexa-blog") = none := by
      rw [fileOf, Function.update_of_ne conflist_ne]
    exact ensure_fresh hmissing rfl (by decide) rfl
  have hremove : hostStep twoHost (.remove "nexa-shop") oneHost := by
    have hfound : (twoHost.files (conflist "nexa-shop")).isSome = true := by
      rw [twoHost_files, Function.update_of_ne conflist_ne.symm, fileOf, Function.update_self]
      rfl
    have hfiles : Function.update twoHost.files (conflist "nexa-shop") none = oneHost.files := by
      rw [twoHost_files, Function.update_comm conflist_ne, fileOf, Function.update_idem,
        Function.update_eq_self]
      rfl
    have hstep := remove_present hfound
    rw [show twoHost.manager.confPath "nexa-shop" = conflist "nexa-shop" from rfl, hfiles] at hstep
    exact hstep
  have hshop : hostStep nextHost (.ensure "nexa-shop") againHost := by
    have hmissing : fileOf "nexa-blog" 2 (conflist "nexa-shop") = none := by
      rw [fileOf, Function.update_of_ne conflist_ne.symm]
    exact ensure_fresh hmissing rfl (by decide) rfl
  have hagain : hostStep againHost (.ensure "nexa-blog") againHost := by
    refine ensure_present ?_
    show (againHost.files (conflist "nexa-blog")).isSome = true
    rw [againHost_blog]
    rfl
  exact (((((Runs.Run.nil.cons ensure_shop).cons hblog).cons hremove).cons .restart).cons hshop).cons hagain

/-- No allocation of that run comes to an octet that a file still carries. -/
private theorem harmlessRestart_harmless (host : CniHost String) (e : CniEvent)
    (hmem : (host, e) ∈ harmlessRestart) : ¬ Reissues (fun _ => True) readSubnet id host e := by
  have hempty : ∀ {k : String} {subnet : String}, ¬ Carries readSubnet (fun _ => none) k subnet := by
    rintro k subnet ⟨text, hk, -⟩
    cases hk
  rintro ⟨name, rfl, hmissing, -, -, -, k, -, hcarries⟩
  simp only [harmlessRestart, List.mem_cons, Prod.mk.injEq, List.not_mem_nil, or_false] at hmem
  rcases hmem with ⟨rfl, he⟩ | ⟨rfl, he⟩ | ⟨-, he⟩ | ⟨-, he⟩ | ⟨rfl, he⟩ | ⟨rfl, he⟩
  · cases he
    cases againHost_blog.symm.trans hmissing
  · -- the second network's octet is 2, and the daemon counts from 1
    rcases octet_of_carries 2 1 hcarries with hoctet | hcarries
    · exact absurd hoctet (by decide)
    · exact hempty hcarries
  · cases he
  · cases he
  · rcases octet_of_carries 1 2 hcarries with hoctet | hcarries
    · exact absurd hoctet (by decide)
    · exact hempty hcarries
  · exact hempty hcarries

theorem subnets_distinct_shop : Runs.Run hostStep emptyHost harmlessRestart againHost ∧
    Carries readSubnet againHost.files "/var/lib/nexa/cni/conf/nexa-shop.conflist" "172.20.1.0/24" ∧
    Carries readSubnet againHost.files "/var/lib/nexa/cni/conf/nexa-blog.conflist" "172.20.2.0/24" ∧
    ∀ host', Runs.Visited harmlessRestart againHost host' →
      DistinctSubnets (fun _ => True) readSubnet host'.files := by
  have hshop : againHost.files (conflist "nexa-shop") = some (networkFile "nexa-shop" 1) := by
    rw [againHost_files, Function.update_self]
  exact ⟨harmlessRestart_run, ⟨_, hshop, readSubnet_networkFile "nexa-shop" 1⟩,
    ⟨_, againHost_blog, readSubnet_networkFile "nexa-blog" 2⟩,
    (subnets_distinct_iff prettyJson_writes rfl emptyHost_distinct harmlessRestart_run).mpr
      harmlessRestart_harmless⟩

/-- The host once its daemon has restarted. -/
def restartedHost : CniHost String := ⟨.new "/var/lib/nexa", shopHost.files⟩

/-- The host with a network that the second daemon made. -/
def blogHost : CniHost String where
  manager := { restartedHost.manager with
    subnetAllocator := restartedHost.manager.subnetAllocator.give "nexa-blog" }
  files := Function.update restartedHost.files (restartedHost.manager.confPath "nexa-blog")
    (some (networkFile "nexa-blog" 1))

private theorem ensure_blog : hostStep restartedHost (.ensure "nexa-blog") blogHost := by
  have hmissing : restartedHost.files (restartedHost.manager.confPath "nexa-blog") = none := by
    decide
  exact ensure_fresh hmissing rfl (by decide) rfl

/-- Two networks, one made before a restart and one after it, have one subnet. -/
theorem restart_reissues_subnet : ∃ l, Runs.Run hostStep emptyHost l blogHost ∧
    l.map Prod.snd = [.ensure "nexa-blog", .restart, .ensure "nexa-shop"] ∧
    Carries readSubnet blogHost.files "/var/lib/nexa/cni/conf/nexa-shop.conflist" "172.20.1.0/24" ∧
    Carries readSubnet blogHost.files "/var/lib/nexa/cni/conf/nexa-blog.conflist" "172.20.1.0/24" ∧
    ¬ DistinctSubnets (fun _ => True) readSubnet blogHost.files := by
  have hrun := ((Runs.Run.nil.cons ensure_shop).cons (.restart : hostStep _ .restart restartedHost)).cons
    ensure_blog
  have hshop : Carries readSubnet blogHost.files "/var/lib/nexa/cni/conf/nexa-shop.conflist"
      "172.20.1.0/24" :=
    ⟨networkFile "nexa-shop" 1, rfl, readSubnet_networkFile "nexa-shop" 1⟩
  have hblog : Carries readSubnet blogHost.files "/var/lib/nexa/cni/conf/nexa-blog.conflist"
      "172.20.1.0/24" :=
    ⟨networkFile "nexa-blog" 1, rfl, readSubnet_networkFile "nexa-blog" 1⟩
  refine ⟨_, hrun, rfl, hshop, hblog, fun hdistinct => ?_⟩
  exact absurd (hdistinct _ _ _ trivial trivial hshop hblog) (by decide)

end Daemon

end Nexad.Runtime
