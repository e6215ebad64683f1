import Mathlib.Data.List.ReduceOption
import Nexad.Base.Lowercase
import Nexad.Laws.Proxy.Removal
import Nexad.Laws.Proxy.Rendering

/-!
# Removing what was rendered

A Caddyfile is rendered as a text and edited as lines. Both are seen here as a
list of items, each the block of a route or a blank line (`Shows`): rendering
puts a blank line between two blocks, a removal drops the blocks of a domain and
the blank lines at the end. So whatever the order of removals, the lines that
are not blank are those of the routes that are left (`removal_agrees`).
-/

namespace Nexad.Proxy

open Interleave

/-! ## Characters -/

/-- Every character of the text is of a kind. -/
def AllOf (p : Char → Bool) (s : String) : Prop := ∀ c ∈ s.toList, p c = true

theorem AllOf.append {p : Char → Bool} {s t : String} (hs : AllOf p s) (ht : AllOf p t) :
    AllOf p (s ++ t) := by
  intro c hc
  rw [String.toList_append] at hc
  rcases List.mem_append.mp hc with hc | hc
  · exact hs c hc
  · exact ht c hc

theorem AllOf.literal {p : Char → Bool} {s : String} (h : s.toList.all p = true) : AllOf p s :=
  List.all_eq_true.mp h

theorem AllOf.imp {p q : Char → Bool} (hpq : ∀ c, p c = true → q c = true) {s : String}
    (h : AllOf p s) : AllOf q s :=
  fun c hc => hpq c (h c hc)

theorem AllOf.intercalate {p : Char → Bool} {sep : String} (hsep : AllOf p sep) {ss : List String}
    (hss : ∀ s ∈ ss, AllOf p s) : AllOf p (sep.intercalate ss) := by
  induction ss with
  | nil => exact fun c hc => absurd hc List.not_mem_nil
  | cons s ss ih =>
    have hs := hss s List.mem_cons_self
    by_cases hne : ss = []
    · subst hne
      rwa [String.intercalate_singleton]
    · rw [String.intercalate_cons_of_ne_nil hne]
      exact (hs.append hsep).append (ih fun t ht => hss t (List.mem_cons_of_mem _ ht))

/-- Neither a line break nor a brace. -/
def inText (c : Char) : Bool := c != '\n' && c != '\r' && c != '\x7b' && c != '\x7d'

theorem inText_iff {c : Char} : inText c = true ↔ c ≠ '\n' ∧ c ≠ '\r' ∧ c ≠ '\x7b' ∧ c ≠ '\x7d' := by
  simp only [inText, Bool.and_eq_true, bne_iff_ne, and_assoc]

/-- Neither white space nor a brace. -/
def inToken (c : Char) : Bool := !Text.isWhiteSpace c && c != '\x7b' && c != '\x7d'

theorem inToken_iff {c : Char} :
    inToken c = true ↔ Text.isWhiteSpace c = false ∧ c ≠ '\x7b' ∧ c ≠ '\x7d' := by
  simp only [inToken, Bool.and_eq_true, Bool.not_eq_true', bne_iff_ne, and_assoc]

theorem inText_of_inToken {c : Char} (h : inToken c = true) : inText c = true := by
  obtain ⟨hspace, hbraces⟩ := inToken_iff.mp h
  refine inText_iff.mpr ⟨?_, ?_, hbraces⟩
  · rintro rfl
    exact absurd hspace (by decide)
  · rintro rfl
    exact absurd hspace (by decide)

/-- The characters of a domain name in ASCII. -/
def inDomain (c : Char) : Bool := c.isAlphanum || c == '.' || c == '-'

theorem inToken_of_inDomain {c : Char} (h : inDomain c = true) : inToken c = true := by
  have hrange : 45 ≤ c.toNat ∧ c.toNat ≤ 46 ∨ 48 ≤ c.toNat ∧ c.toNat ≤ 57 ∨
      65 ≤ c.toNat ∧ c.toNat ≤ 90 ∨ 97 ≤ c.toNat ∧ c.toNat ≤ 122 := by
    rw [inDomain, Bool.or_eq_true, Bool.or_eq_true, Lowercase.isAlphanum_iff, beq_iff_eq, beq_iff_eq] at h
    rcases h with (h | rfl) | rfl
    · exact .inr h
    · decide
    · decide
  have hspace : Text.isWhiteSpace c = false := by
    unfold Text.isWhiteSpace
    simp only [List.mem_cons, List.not_mem_nil, or_false, decide_eq_false_iff_not]
    omega
  have hopen : c ≠ '\x7b' := by
    rintro rfl
    exact absurd hrange (by decide)
  have hclose : c ≠ '\x7d' := by
    rintro rfl
    exact absurd hrange (by decide)
  exact inToken_iff.mpr ⟨hspace, hopen, hclose⟩

/-- The characters of a domain that are not told apart from others by the kind. -/
theorem notMem_of_allOf {p : Char → Bool} {s : String} (h : AllOf p s) {c : Char} (hc : p c = false) :
    c ∉ s.toList := by
  intro hmem
  rw [h c hmem] at hc
  cases hc

/-! ## Routes with one reading -/

/-- A domain name in ASCII. -/
structure IsDomain (s : String) : Prop where
  nonempty : s ≠ ""
  chars : AllOf inDomain s

/-- The texts of a TLS mode are tokens. -/
def TlsConfig.Tokens : TlsConfig → Prop
  | .none => True
  | .auto email => AllOf inToken email
  | .manual cert key => AllOf inToken cert ∧ AllOf inToken key

/-- A route whose block holds nothing but what `apply_routes` means to put in it. -/
structure RouteConfig.Plain (route : RouteConfig) : Prop where
  domain : IsDomain route.domain
  upstream : route.upstream ≠ []
  addresses : ∀ up ∈ route.upstream, AllOf inToken up.address
  tls : route.tls.Tokens

namespace CaddyBackend

/-! ## A block as lines -/

/-- What the line that opens a block begins with. -/
def headerWord (domain : String) : TlsConfig → String
  | .none => "http://" ++ domain
  | .auto _ | .manual _ _ => domain

/-- The TLS directive. -/
def tlsLines : TlsConfig → List String
  | .none => []
  | .auto email => ["    tls " ++ email]
  | .manual cert key => ["    tls " ++ (cert ++ (" " ++ key))]

/-- The health checks, and the policy for weights. -/
def checkLines (weighted : Bool) : List String :=
  (if weighted then ["        lb_policy weighted_round_robin"] else []) ++
    ["        health_uri /health", "        health_interval 10s"]

/-- The directive that passes requests on. -/
def proxyLines (addresses : List String) (weighted : Bool) : List String :=
  if addresses.length > 1 then
    ("    reverse_proxy " ++ (" ".intercalate addresses ++ " \x7b")) :: (checkLines weighted ++ ["    \x7d"])
  else ["    reverse_proxy " ++ " ".intercalate addresses]

/-- The block of a route. -/
def blockLines (route : RouteConfig) : List String :=
  (headerWord route.domain route.tls ++ " \x7b") ::
    (tlsLines route.tls ++ (proxyLines route.addresses (hasWeights route) ++ ["\x7d"]))

/-- The text of some lines. -/
def linesText (ls : List String) : List Char := Lines.unlines (ls.map String.toList)

theorem linesText_cons (s : String) (ls : List String) :
    linesText (s :: ls) = (s ++ "\n").toList ++ linesText ls := by
  rw [String.toList_append]
  rfl

theorem linesText_append (ls ls' : List String) : linesText (ls ++ ls') = linesText ls ++ linesText ls' := by
  rw [linesText, List.map_append, Lines.unlines, List.flatMap_append]
  rfl

private theorem headerText_lines (domain : String) (tls : TlsConfig) :
    (headerText domain tls).toList = linesText ((headerWord domain tls ++ " \x7b") :: tlsLines tls) := by
  have hbrace : " \x7b\n" = " \x7b" ++ "\n" := by decide
  cases tls with
  | none =>
    rw [headerText, hbrace, linesText_cons, headerWord, String.append_assoc, String.append_assoc]
    exact (List.append_nil _).symm
  | auto email =>
    rw [headerText, hbrace, headerWord, tlsLines, linesText_cons, linesText_cons]
    simp only [String.append_assoc, String.toList_append, List.append_assoc]
    rw [linesText, List.map_nil, Lines.unlines, List.flatMap_nil, List.append_nil]
  | manual cert key =>
    rw [headerText, hbrace, headerWord, tlsLines, linesText_cons, linesText_cons]
    simp only [String.append_assoc, String.toList_append, List.append_assoc]
    rw [linesText, List.map_nil, Lines.unlines, List.flatMap_nil, List.append_nil]

private theorem proxyText_lines (addresses : List String) (weighted : Bool) :
    (proxyText addresses weighted).toList = linesText (proxyLines addresses weighted) := by
  have hnil : linesText [] = [] := rfl
  unfold proxyText proxyLines
  split
  · have hchecks : checksText weighted =
        " \x7b" ++ ("\n" ++ String.ofList (linesText (checkLines weighted ++ ["    \x7d"]))) := by
      cases weighted with
      | false => rfl
      | true => rfl
    rw [hchecks, linesText_cons]
    simp only [String.append_assoc, String.toList_append, List.append_assoc, String.toList_ofList]
  · rw [linesText_cons, hnil, List.append_nil, String.append_assoc]

/-- The text of a block is its lines. -/
theorem blockText_lines (route : RouteConfig) : (blockText route).toList = linesText (blockLines route) := by
  have hclose : "\x7d\n".toList = linesText ["\x7d"] := rfl
  rw [blockText, renderHeader_eq, blockLines, ← List.cons_append, linesText_append, linesText_append,
    String.toList_append, String.toList_append, headerText_lines, proxyText_lines, hclose]

theorem AllOf.text {s : String} (h : AllOf inToken s) : AllOf inText s := h.imp fun _ => inText_of_inToken

theorem headerWord_text {domain : String} (h : IsDomain domain) (tls : TlsConfig) :
    AllOf inText (headerWord domain tls) := by
  have hdomain : AllOf inText domain := AllOf.text (h.chars.imp fun _ => inToken_of_inDomain)
  cases tls with
  | none => exact AllOf.append (.literal rfl) hdomain
  | auto email => exact hdomain
  | manual cert key => exact hdomain

/-- Text without braces, and not blank. -/
structure TextLine (line : String) : Prop where
  text : AllOf inText line
  visible : ∃ c ∈ line.toList, Text.isWhiteSpace c = false

theorem TextLine.literal {s : String} (h : s.toList.all inText = true)
    (h' : (s.toList.any fun c => !Text.isWhiteSpace c) = true) : TextLine s where
  text := .literal h
  visible := by
    obtain ⟨c, hc, hspace⟩ := List.any_eq_true.mp h'
    exact ⟨c, hc, by simpa using hspace⟩

theorem TextLine.append {s t : String} (hs : TextLine s) (ht : AllOf inText t) : TextLine (s ++ t) where
  text := hs.text.append ht
  visible := by
    obtain ⟨c, hc, hspace⟩ := hs.visible
    refine ⟨c, ?_, hspace⟩
    rw [String.toList_append]
    exact List.mem_append_left _ hc

theorem tlsLines_text {tls : TlsConfig} (h : tls.Tokens) : ∀ line ∈ tlsLines tls, TextLine line := by
  intro line hline
  cases tls with
  | none => cases hline
  | auto email =>
    rw [List.mem_singleton.mp hline]
    exact TextLine.append (.literal rfl rfl) (AllOf.text h)
  | manual cert key =>
    rw [List.mem_singleton.mp hline]
    exact TextLine.append (.literal rfl rfl)
      (AllOf.append (AllOf.text h.1) (AllOf.append (.literal rfl) (AllOf.text h.2)))

theorem checkLines_text (weighted : Bool) : ∀ line ∈ checkLines weighted, TextLine line := by
  have hall : (checkLines weighted).all (fun s => s.toList.all inText) = true ∧
      (checkLines weighted).all (fun s => s.toList.any fun c => !Text.isWhiteSpace c) = true := by
    cases weighted with
    | false => exact ⟨rfl, rfl⟩
    | true => exact ⟨rfl, rfl⟩
  exact fun line hline => .literal (List.all_eq_true.mp hall.1 line hline) (List.all_eq_true.mp hall.2 line hline)

theorem joined_text {route : RouteConfig} (h : route.Plain) :
    AllOf inText (" ".intercalate route.addresses) := by
  refine .intercalate (.literal rfl) fun address haddress => ?_
  obtain ⟨up, hup, rfl⟩ := List.mem_map.mp haddress
  exact AllOf.text (h.addresses up hup)

/-- The kinds of lines of a block. -/
theorem blockLines_cases {route : RouteConfig} (h : route.Plain) {line : String}
    (hline : line ∈ blockLines route) :
    line = headerWord route.domain route.tls ++ " \x7b" ∨
      line = "    reverse_proxy " ++ (" ".intercalate route.addresses ++ " \x7b") ∨
      TextLine line ∨ line = "    \x7d" ∨ line = "\x7d" := by
  rcases List.mem_cons.mp hline with rfl | hline
  · exact .inl rfl
  rcases List.mem_append.mp hline with hline | hline
  · exact .inr (.inr (.inl (tlsLines_text h.tls line hline)))
  rcases List.mem_append.mp hline with hline | hline
  · unfold proxyLines at hline
    split at hline
    · rcases List.mem_cons.mp hline with rfl | hline
      · exact .inr (.inl rfl)
      rcases List.mem_append.mp hline with hline | hline
      · exact .inr (.inr (.inl (checkLines_text _ line hline)))
      · exact .inr (.inr (.inr (.inl (List.mem_singleton.mp hline))))
    · rw [List.mem_singleton.mp hline]
      exact .inr (.inr (.inl (TextLine.append (.literal rfl rfl) (joined_text h))))
  · exact .inr (.inr (.inr (.inr (List.mem_singleton.mp hline))))

/-- No line of a block is more than one line. -/
theorem blockLines_line {route : RouteConfig} (h : route.Plain) {line : String}
    (hline : line ∈ blockLines route) : '\n' ∉ line.toList ∧ '\r' ∉ line.toList := by
  have htext : ∀ {s : String}, AllOf inText s → '\n' ∉ s.toList ∧ '\r' ∉ s.toList :=
    fun hs => ⟨notMem_of_allOf hs (by decide), notMem_of_allOf hs (by decide)⟩
  have hbrace : ∀ {s : String}, AllOf inText s → '\n' ∉ (s ++ " \x7b").toList ∧ '\r' ∉ (s ++ " \x7b").toList := by
    intro s hs
    rw [String.toList_append, List.mem_append, List.mem_append, not_or, not_or]
    exact ⟨⟨(htext hs).1, by decide⟩, (htext hs).2, by decide⟩
  rcases blockLines_cases h hline with rfl | rfl | hline | rfl | rfl
  · exact hbrace (headerWord_text h.domain route.tls)
  · rw [← String.append_assoc]
    exact hbrace (AllOf.append (.literal rfl) (joined_text h))
  · exact htext hline.text
  · decide
  · decide

/-! ## Lines that open a block -/

theorem trim_brace {s : String} {c : Char} (hfirst : s.toList.head? = some c)
    (hc : Text.isWhiteSpace c = false) : Text.trim (s ++ " \x7b").toList = (s ++ " \x7b").toList := by
  have hlist : (s ++ " \x7b").toList = (s.toList ++ [' ']) ++ ['\x7b'] := by
    rw [String.toList_append, List.append_assoc]
    rfl
  have hhead : (s ++ " \x7b").toList.head? = some c := by
    rw [String.toList_append, List.head?_append, hfirst]
    rfl
  have hlast : (s ++ " \x7b").toList.getLast? = some '\x7b' := by
    rw [hlist, List.getLast?_concat]
  exact @Text.trim_indented [] _ _ _ nofun hhead hc hlast (by decide)

/-- The header of a block starts with no white space. -/
theorem headerWord_head {domain : String} (h : IsDomain domain) (tls : TlsConfig) :
    ∃ c, (headerWord domain tls).toList.head? = some c ∧ Text.isWhiteSpace c = false := by
  have hdomain : ∃ c, domain.toList.head? = some c ∧ Text.isWhiteSpace c = false := by
    cases hlist : domain.toList with
    | nil => exact absurd (String.toList_injective hlist) h.nonempty
    | cons c cs =>
      have htoken := inToken_of_inDomain (h.chars c (hlist ▸ List.mem_cons_self))
      exact ⟨c, rfl, (inToken_iff.mp htoken).1⟩
  cases tls with
  | none => exact ⟨'h', by rw [headerWord, String.toList_append]; rfl, by decide⟩
  | auto email => exact hdomain
  | manual cert key => exact hdomain

theorem headerWord_opens {domain : String} (h : IsDomain domain) (tls : TlsConfig) :
    opensBlock domain (headerWord domain tls ++ " \x7b").toList = true := by
  obtain ⟨c, hfirst, hc⟩ := headerWord_head h tls
  refine HeaderLine.opensBlock ?_
  rw [HeaderLine, trim_brace hfirst hc]
  cases tls with
  | none => exact .inr rfl
  | auto email => exact .inl rfl
  | manual cert key => exact .inl rfl

/-- A line without an opening brace opens no block. -/
theorem opensBlock_of_notMem {domain : String} {line : List Char} (h : '\x7b' ∉ line) :
    opensBlock domain line = false := by
  have hlast : (Text.trim line).getLast? ≠ some '\x7b' :=
    fun hlast => h (Text.trim_subset line (List.mem_of_getLast? hlast))
  simp only [opensBlock, hlast, decide_false, Bool.and_false]

/-- A line whose first word is another opens no block of the domain. -/
theorem opensBlock_of_word {domain word rest : String} {line : List Char} (h : IsDomain domain)
    (hline : Text.trim line = (word ++ (" " ++ rest)).toList) (hword : ' ' ∉ word.toList)
    (hbare : word ≠ domain) (hhttp : word ≠ "http://" ++ domain) (hhttps : word ≠ "https://" ++ domain) :
    opensBlock domain line = false := by
  have hblank : ' ' ∉ domain.toList := notMem_of_allOf h.chars (by decide)
  have hlist : (word ++ (" " ++ rest)).toList = word.toList ++ ' ' :: rest.toList := by
    rw [String.toList_append, String.toList_append]
    rfl
  -- a text before the first blank is the first word
  have hstart : ∀ {s : String}, ' ' ∉ s.toList → word ≠ s →
      (s ++ " ").toList.isPrefixOf (word.toList ++ ' ' :: rest.toList) = false := by
    intro s hs hne
    rw [Bool.eq_false_iff, ne_eq, List.isPrefixOf_iff_prefix]
    rintro ⟨more, hmore⟩
    rw [String.toList_append, List.append_assoc] at hmore
    have hcut : Text.splitOnce ' ' (word.toList ++ ' ' :: rest.toList) = some (s.toList, more) :=
      Text.splitOnce_eq_some_iff.mpr ⟨hmore.symm, hs⟩
    rw [Text.splitOnce_eq_some_iff.mpr ⟨rfl, hword⟩] at hcut
    exact hne (String.toList_injective (Prod.mk.inj (Option.some.inj hcut)).1)
  have hwhole : ∀ {s : String}, ' ' ∉ s.toList → ¬ word.toList ++ ' ' :: rest.toList = s.toList :=
    fun hs heq => hs (heq ▸ List.mem_append_right _ List.mem_cons_self)
  have hscheme : ∀ {scheme : String}, ' ' ∉ scheme.toList → ' ' ∉ (scheme ++ domain).toList := by
    intro scheme hscheme
    rw [String.toList_append, List.mem_append, not_or]
    exact ⟨hscheme, hblank⟩
  have hhttp' : ' ' ∉ ("http://" ++ domain).toList := hscheme (by decide)
  have hhttps' : ' ' ∉ ("https://" ++ domain).toList := hscheme (by decide)
  simp only [opensBlock, hline, hlist, hstart hblank hbare, hstart hhttp' hhttp, hstart hhttps' hhttps,
    hwhole hblank, hwhole hhttp', hwhole hhttps', decide_false, Bool.or_false, Bool.false_and]

theorem opensBlock_header {domain domain' : String} (h : IsDomain domain) (h' : IsDomain domain')
    (hne : domain ≠ domain') (tls : TlsConfig) :
    opensBlock domain' (headerWord domain tls ++ " \x7b").toList = false := by
  obtain ⟨c, hfirst, hc⟩ := headerWord_head h tls
  have hcolon : ∀ {s : String}, IsDomain s → ':' ∉ s.toList := fun hs => notMem_of_allOf hs.chars (by decide)
  -- a name with a scheme has a colon in it
  have hscheme : ∀ {scheme s s' : String}, ':' ∈ scheme.toList → IsDomain s' → scheme ++ s ≠ s' := by
    rintro scheme s s' hmem hs' rfl
    refine hcolon hs' ?_
    rw [String.toList_append]
    exact List.mem_append_left _ hmem
  have hblank : ' ' ∉ (headerWord domain tls).toList := by
    have hdomain : ' ' ∉ domain.toList := notMem_of_allOf h.chars (by decide)
    cases tls with
    | none =>
      rw [headerWord, String.toList_append, List.mem_append, not_or]
      exact ⟨by decide, hdomain⟩
    | auto email => exact hdomain
    | manual cert key => exact hdomain
  have htrim : Text.trim (headerWord domain tls ++ " \x7b").toList =
      (headerWord domain tls ++ (" " ++ "\x7b")).toList := trim_brace hfirst hc
  refine opensBlock_of_word h' htrim hblank ?_ ?_ ?_
  · cases tls with
    | none => exact hscheme (by decide) h'
    | auto email => exact hne
    | manual cert key => exact hne
  · cases tls with
    | none => exact fun heq => hne ((String.append_right_inj _).mp heq)
    | auto email => exact (hscheme (by decide) h).symm
    | manual cert key => exact (hscheme (by decide) h).symm
  · cases tls with
    | none => exact Text.append_ne_append 4 (by decide) (by decide) (by decide) _ _
    | auto email => exact (hscheme (by decide) h).symm
    | manual cert key => exact (hscheme (by decide) h).symm

theorem opensBlock_proxy {domain : String} (h : IsDomain domain) (joined : String) :
    opensBlock domain ("    reverse_proxy " ++ (joined ++ " \x7b")).toList = false := by
  have htrim : Text.trim ("    reverse_proxy " ++ (joined ++ " \x7b")).toList =
      ("reverse_proxy" ++ (" " ++ (joined ++ " \x7b"))).toList := by
    have hlist : ("    reverse_proxy " ++ (joined ++ " \x7b")).toList =
        "    ".toList ++ ("reverse_proxy" ++ (" " ++ (joined ++ " \x7b"))).toList := by
      simp only [String.toList_append]
      rfl
    have hlast : ("reverse_proxy" ++ (" " ++ (joined ++ " \x7b"))).toList.getLast? = some '\x7b' := by
      have hend : ("reverse_proxy" ++ (" " ++ (joined ++ " \x7b"))).toList =
          ("reverse_proxy" ++ (" " ++ (joined ++ " "))).toList ++ ['\x7b'] := by
        simp only [String.toList_append, List.append_assoc]
        rfl
      rw [hend, List.getLast?_concat]
    have hfirst : ("reverse_proxy" ++ (" " ++ (joined ++ " \x7b"))).toList.head? = some 'r' := by
      rw [String.toList_append]
      rfl
    rw [hlist]
    exact Text.trim_indented (List.all_eq_true.mp rfl) hfirst (by decide) hlast (by decide)
  have hother : ∀ {s : String}, '_' ∉ s.toList → "reverse_proxy" ≠ s := by
    rintro s hs rfl
    exact hs (by decide)
  have hdomain : '_' ∉ domain.toList := notMem_of_allOf h.chars (by decide)
  refine opensBlock_of_word h htrim (by decide) (hother hdomain) (hother ?_) (hother ?_)
  · rw [String.toList_append, List.mem_append, not_or]
    exact ⟨by decide, hdomain⟩
  · rw [String.toList_append, List.mem_append, not_or]
    exact ⟨by decide, hdomain⟩

/-- No line of a block opens a block of another domain. -/
theorem blockLines_closed {route : RouteConfig} (h : route.Plain) {domain : String} (hdomain : IsDomain domain)
    (hne : route.domain ≠ domain) {line : String} (hline : line ∈ blockLines route) :
    opensBlock domain line.toList = false := by
  rcases blockLines_cases h hline with rfl | rfl | hline | rfl | rfl
  · exact opensBlock_header h.domain hdomain hne route.tls
  · exact opensBlock_proxy hdomain _
  · exact opensBlock_of_notMem (notMem_of_allOf hline.text (by decide))
  · exact opensBlock_of_notMem (by decide)
  · exact opensBlock_of_notMem (by decide)

/-! ## The scan over blocks -/

/-- Lines that open no block are kept. -/
theorem scan_kept {domain : String} {ls : List String} (h : ∀ line ∈ ls, opensBlock domain line.toList = false)
    (result : List Char) (depth : Int) :
    (ls.map String.toList).foldl (scanLine domain) ⟨result, false, depth⟩ =
      ⟨result ++ linesText ls, false, depth⟩ := by
  induction ls generalizing result with
  | nil => rw [linesText, List.map_nil, Lines.unlines, List.flatMap_nil, List.append_nil, List.foldl_nil]
  | cons line ls ih =>
    have hline := h line List.mem_cons_self
    have hstep : scanLine domain ⟨result, false, depth⟩ line.toList =
        ⟨result ++ (line ++ "\n").toList, false, depth⟩ := by
      rw [String.toList_append, ← List.append_assoc]
      simp only [scanLine, hline, Bool.and_false, Bool.false_eq_true, if_false]
      rfl
    rw [List.map_cons, List.foldl_cons, hstep, ih fun l hl => h l (List.mem_cons_of_mem _ hl),
      linesText_cons, List.append_assoc]

theorem scan_skipped (domain : String) (result : List Char) (depth : Int) (line : List Char) :
    scanLine domain ⟨result, true, depth⟩ line =
      ⟨result, !decide (line.foldl brace depth ≤ 0), line.foldl brace depth⟩ := rfl

theorem brace_text {s : String} (h : AllOf inText s) (depth : Int) : s.toList.foldl brace depth = depth := by
  unfold AllOf at h
  generalize s.toList = cs at h
  induction cs with
  | nil => rfl
  | cons c cs ih =>
    obtain ⟨-, -, hopen, hclose⟩ := inText_iff.mp (h c List.mem_cons_self)
    rw [List.foldl_cons, brace, if_neg hopen, if_neg hclose]
    exact ih fun c hc => h c (List.mem_cons_of_mem _ hc)

/-- Lines without braces are skipped on the same depth. -/
theorem scan_text {domain : String} {ls : List String} (h : ∀ line ∈ ls, AllOf inText line)
    (result : List Char) {depth : Int} (hdepth : 0 < depth) :
    (ls.map String.toList).foldl (scanLine domain) ⟨result, true, depth⟩ = ⟨result, true, depth⟩ := by
  induction ls with
  | nil => rfl
  | cons line ls ih =>
    have hopen : ¬ depth ≤ 0 := Int.not_le.mpr hdepth
    rw [List.map_cons, List.foldl_cons, scan_skipped, brace_text (h line List.mem_cons_self),
      decide_eq_false hopen]
    exact ih fun l hl => h l (List.mem_cons_of_mem _ hl)

/-- The directive is skipped on the same depth. -/
theorem scan_proxy {domain : String} {route : RouteConfig} (h : route.Plain) (result : List Char) :
    ((proxyLines route.addresses (hasWeights route)).map String.toList).foldl (scanLine domain)
      ⟨result, true, 1⟩ = ⟨result, true, 1⟩ := by
  have hproxy : AllOf inText ("    reverse_proxy " ++ " ".intercalate route.addresses) :=
    AllOf.append (.literal rfl) (joined_text h)
  unfold proxyLines
  split
  · have hopened : ("    reverse_proxy " ++ (" ".intercalate route.addresses ++ " \x7b")).toList.foldl
        brace 1 = 2 := by
      rw [← String.append_assoc, String.toList_append, List.foldl_append, brace_text hproxy]
      decide
    have hclosed : scanLine domain ⟨result, true, 2⟩ "    \x7d".toList = ⟨result, true, 1⟩ := by
      have hdepth : "    \x7d".toList.foldl brace 2 = 1 := by decide
      rw [scan_skipped, hdepth]
      rfl
    have hskip : (!decide ((2 : Int) ≤ 0)) = true := rfl
    rw [List.map_cons, List.foldl_cons, scan_skipped, hopened, hskip, List.map_append, List.foldl_append,
      scan_text (fun line hline => (checkLines_text _ line hline).text) result (by decide)]
    exact hclosed
  · exact scan_text (fun line hline => List.mem_singleton.mp hline ▸ hproxy) result (by decide)

/-- A block of the domain is skipped. -/
theorem scan_block {route : RouteConfig} (h : route.Plain) (result : List Char) (depth : Int) :
    ((blockLines route).map String.toList).foldl (scanLine route.domain) ⟨result, false, depth⟩ =
      ⟨result, false, 0⟩ := by
  have hopened : scanLine route.domain ⟨result, false, depth⟩
      (headerWord route.domain route.tls ++ " \x7b").toList = ⟨result, true, 1⟩ := by
    simp only [scanLine, headerWord_opens h.domain, Bool.not_false, Bool.and_true, if_true]
  rw [blockLines, List.map_cons, List.foldl_cons, hopened, List.map_append, List.foldl_append,
    scan_text (fun line hline => (tlsLines_text h.tls line hline).text) result (by decide),
    List.map_append, List.foldl_append, scan_proxy h]
  rfl

/-! ## Files of blocks -/

/-- A blank line, or the block of a route. -/
def itemLines : Option RouteConfig → List String
  | none => [""]
  | some route => blockLines route

/-- The text of some items. -/
def itemsText (items : List (Option RouteConfig)) : List Char := linesText (items.flatMap itemLines)

theorem itemsText_append (items items' : List (Option RouteConfig)) :
    itemsText (items ++ items') = itemsText items ++ itemsText items' := by
  rw [itemsText, List.flatMap_append, linesText_append]
  rfl

theorem itemsText_singleton (item : Option RouteConfig) : itemsText [item] = linesText (itemLines item) := by
  rw [itemsText, List.flatMap_singleton]

/-- The file is made of the blocks of these routes, and of blank lines. -/
def Shows (content : String) (routes : List RouteConfig) : Prop :=
  ∃ items : List (Option RouteConfig), content.toList = itemsText items ∧ items.reduceOption = routes

/-- Rendered blocks are what the file is made of. -/
theorem shows_rendered (routes : List RouteConfig) :
    Shows ("\n".intercalate (routes.map blockText)) routes := by
  have hnewline : "\n".toList = itemsText [none] := rfl
  induction routes with
  | nil => exact ⟨[], rfl, rfl⟩
  | cons route routes ih =>
    have hblock : (blockText route).toList = itemsText [some route] := by
      rw [blockText_lines, itemsText_singleton, itemLines]
    obtain ⟨items, htext, hroutes⟩ := ih
    by_cases hne : routes = []
    · subst hne
      refine ⟨[some route], ?_, rfl⟩
      rw [List.map_cons, List.map_nil, String.intercalate_singleton, hblock]
    · refine ⟨[some route] ++ ([none] ++ items), ?_, ?_⟩
      · rw [List.map_cons, String.intercalate_cons_of_ne_nil (List.map_eq_nil_iff.not.mpr hne),
          String.toList_append, String.toList_append, htext, hblock, hnewline, itemsText_append,
          itemsText_append, List.append_assoc]
      · rw [← hroutes]
        rfl

section Plain

variable {items : List (Option RouteConfig)} (hplain : ∀ route ∈ items.reduceOption, route.Plain)

include hplain in
theorem lines_items : Lines.lines (itemsText items) = (items.flatMap itemLines).map String.toList := by
  refine Lines.lines_unlines fun cs hcs => ?_
  obtain ⟨line, hline, rfl⟩ := List.mem_map.mp hcs
  obtain ⟨item, hitem, hline⟩ := List.mem_flatMap.mp hline
  cases item with
  | none =>
    rw [List.mem_singleton.mp hline]
    decide
  | some route => exact blockLines_line (hplain route (List.reduceOption_mem_iff.mpr hitem)) hline

/-- The items without the blocks of a domain. -/
def withoutDomain (domain : String) (items : List (Option RouteConfig)) : List (Option RouteConfig) :=
  items.filter fun item => item.all fun route => route.domain ≠ domain

theorem reduceOption_withoutDomain (domain : String) (items : List (Option RouteConfig)) :
    (withoutDomain domain items).reduceOption =
      items.reduceOption.filter fun route => route.domain ≠ domain := by
  induction items with
  | nil => rfl
  | cons item items ih =>
    cases item with
    | none => exact ih
    | some route =>
      by_cases hdomain : route.domain = domain
      · simpa [withoutDomain, List.reduceOption_cons_of_some, hdomain] using ih
      · simpa [withoutDomain, List.reduceOption_cons_of_some, hdomain] using ih

include hplain in
/-- The scan keeps the items of other domains. -/
theorem scan_items {domain : String} (hdomain : IsDomain domain) (result : List Char) (depth : Int) :
    ∃ depth', ((items.flatMap itemLines).map String.toList).foldl (scanLine domain) ⟨result, false, depth⟩ =
      ⟨result ++ itemsText (withoutDomain domain items), false, depth'⟩ := by
  induction items generalizing result depth with
  | nil =>
    refine ⟨depth, ?_⟩
    rw [show itemsText (withoutDomain domain []) = [] from rfl, List.append_nil]
    rfl
  | cons item items ih =>
    rw [List.flatMap_cons, List.map_append, List.foldl_append]
    -- an item that is kept whole
    have hkept : withoutDomain domain (item :: items) = item :: withoutDomain domain items →
        (∀ line ∈ itemLines item, opensBlock domain line.toList = false) →
        (∀ route ∈ items.reduceOption, route.Plain) →
        ∃ depth', ((items.flatMap itemLines).map String.toList).foldl (scanLine domain)
          (((itemLines item).map String.toList).foldl (scanLine domain) ⟨result, false, depth⟩) =
            ⟨result ++ itemsText (withoutDomain domain (item :: items)), false, depth'⟩ := by
      intro hitems hclosed hrest
      have htext : itemsText (item :: withoutDomain domain items) =
          linesText (itemLines item) ++ itemsText (withoutDomain domain items) := by
        rw [← List.singleton_append, itemsText_append, itemsText_singleton]
      rw [scan_kept hclosed, hitems, htext, ← List.append_assoc]
      exact ih hrest _ depth
    cases item with
    | none =>
      refine hkept rfl (fun line hline => ?_) hplain
      rw [List.mem_singleton.mp hline]
      exact opensBlock_of_notMem (by decide)
    | some route =>
      have hroute : route.Plain := hplain route List.mem_cons_self
      have hrest : ∀ route ∈ items.reduceOption, route.Plain :=
        fun r hr => hplain r (List.mem_cons_of_mem _ hr)
      by_cases hsame : route.domain = domain
      · have hitems : withoutDomain domain (some route :: items) = withoutDomain domain items :=
          List.filter_cons_of_neg (by simp [hsame])
        subst hsame
        rw [itemLines, scan_block hroute, hitems]
        exact ih hrest result 0
      · refine hkept (List.filter_cons_of_pos (by simp [hsame])) (fun line hline => ?_) hrest
        exact blockLines_closed hroute hdomain hsame hline

end Plain

/-- What is written back of some items: the same without the blank lines at the end. -/
theorem trimmed_items (items : List (Option RouteConfig)) :
    ∃ kept : List (Option RouteConfig), kept.reduceOption = items.reduceOption ∧
      (if Text.trimEnd (itemsText items) = [] then [] else Text.trimEnd (itemsText items) ++ ['\n']) =
        itemsText kept := by
  induction items using List.reverseRecOn with
  | nil => exact ⟨[], rfl, rfl⟩
  | append_singleton items item ih =>
    cases item with
    | none =>
      have hblank : itemsText [none] = ['\n'] := rfl
      rw [itemsText_append, hblank, Text.trimEnd_append _ newline_blank, List.reduceOption_append]
      obtain ⟨kept, hkept, htext⟩ := ih
      exact ⟨kept, by rw [hkept]; exact (List.append_nil _).symm, htext⟩
    | some route =>
      have hclose : linesText ["\x7d"] = ['\x7d'] ++ ['\n'] := rfl
      have hbrace : Text.trimEnd ['\x7d'] = ['\x7d'] := rfl
      obtain ⟨front, hfront⟩ : ∃ front, itemsText (items ++ [some route]) = front ++ (['\x7d'] ++ ['\n']) := by
        rw [itemsText_append, itemsText_singleton, itemLines, blockLines, ← List.cons_append,
          ← List.append_assoc, linesText_append, hclose, ← List.append_assoc]
        exact ⟨_, rfl⟩
      have hne : Text.trimEnd ['\x7d'] ≠ [] := by
        rw [hbrace]
        exact List.cons_ne_nil _ _
      have htrim : Text.trimEnd (itemsText (items ++ [some route])) = front ++ ['\x7d'] := by
        rw [hfront, ← List.append_assoc, Text.trimEnd_append _ newline_blank,
          Text.trimEnd_append_of_ne hne, hbrace]
      refine ⟨items ++ [some route], rfl, ?_⟩
      rw [htrim, if_neg (List.append_ne_nil_of_right_ne_nil _ (List.cons_ne_nil _ _)), hfront,
        List.append_assoc]

/-- A removal takes out the blocks of its domain. -/
theorem Shows.removed {content : String} {routes : List RouteConfig} (h : Shows content routes)
    (hplain : ∀ route ∈ routes, route.Plain) {domain : String} (hdomain : IsDomain domain) :
    Shows (withoutBlock domain content) (routes.filter fun route => route.domain ≠ domain) := by
  obtain ⟨items, htext, rfl⟩ := h
  obtain ⟨depth, hscan⟩ := scan_items hplain hdomain [] 0
  obtain ⟨kept, hkept, hwritten⟩ := trimmed_items (withoutDomain domain items)
  refine ⟨kept, ?_, by rw [hkept, reduceOption_withoutDomain]⟩
  rw [withoutBlock, htext, lines_items hplain, hscan, List.nil_append, ← hwritten]
  dsimp only
  split
  · rfl
  · exact String.toList_ofList

/-- The lines of the file that are not blank. -/
def nonBlankLines (content : String) : List (List Char) :=
  (Lines.lines content.toList).filter fun line => Text.trim line ≠ []

theorem blockLines_visible {route : RouteConfig} (h : route.Plain) {line : String}
    (hline : line ∈ blockLines route) : Text.trim line.toList ≠ [] := by
  have hmem : ∀ {s : String} {c : Char}, c ∈ s.toList → Text.isWhiteSpace c = false → Text.trim s.toList ≠ [] :=
    fun hc hspace => List.ne_nil_of_mem (Text.mem_trim hspace hc)
  have hbrace : ∀ s : String, Text.trim (s ++ " \x7b").toList ≠ [] := by
    intro s
    refine hmem (c := '\x7b') ?_ (by decide)
    rw [String.toList_append]
    exact List.mem_append_right _ (by decide)
  rcases blockLines_cases h hline with rfl | rfl | hline | rfl | rfl
  · exact hbrace _
  · rw [← String.append_assoc]
    exact hbrace _
  · obtain ⟨c, hc, hspace⟩ := hline.visible
    exact hmem hc hspace
  · decide
  · decide

/-- They are those of the blocks. -/
theorem Shows.nonBlankLines_eq {content : String} {routes : List RouteConfig} (h : Shows content routes)
    (hplain : ∀ route ∈ routes, route.Plain) :
    nonBlankLines content = (routes.flatMap blockLines).map String.toList := by
  obtain ⟨items, htext, rfl⟩ := h
  rw [nonBlankLines, htext, lines_items hplain]
  clear htext
  induction items with
  | nil => rfl
  | cons item items ih =>
    rw [List.flatMap_cons, List.map_append, List.filter_append]
    cases item with
    | none => exact ih hplain
    | some route =>
      have hblock : ((blockLines route).map String.toList).filter (fun line => Text.trim line ≠ []) =
          (blockLines route).map String.toList := by
        refine List.filter_eq_self.mpr fun cs hcs => ?_
        obtain ⟨line, hline, rfl⟩ := List.mem_map.mp hcs
        exact decide_eq_true (blockLines_visible (hplain route List.mem_cons_self) hline)
      rw [itemLines, hblock, ih fun r hr => hplain r (List.mem_cons_of_mem _ hr), ← List.map_append]
      rfl

/-! ## Runs -/

variable {self : CaddyBackend} {fs fs' : Files} {a : Except ProxyError Unit}

/-- Routes with upstreams are written, as they are rendered. -/
theorem applied_shows {routes : List RouteConfig} (hplain : ∀ route ∈ routes, route.Plain)
    {program : Prog fileSig (Except ProxyError Unit)} (hprogram : self.applyRoutes routes = .ok program)
    (h : program.ExecWell fs a fs') :
    ∃ content, fs'.lookup self.caddyfilePath = some content ∧ Shows content routes := by
  rw [applyRoutes, renderCaddyfile_blocks fun route hroute => (hplain route hroute).upstream] at hprogram
  cases hprogram
  cases h.write
  exact ⟨_, Finmap.lookup_insert _, shows_rendered routes⟩

theorem removed_shows {routes : List RouteConfig} (hplain : ∀ route ∈ routes, route.Plain)
    {domain : String} (hdomain : IsDomain domain) {content : String}
    (hcontent : fs.lookup self.caddyfilePath = some content) (hshows : Shows content routes)
    (h : (self.removeRoute domain).ExecWell fs a fs') :
    ∃ content', fs'.lookup self.caddyfilePath = some content' ∧
      Shows content' (routes.filter fun route => route.domain ≠ domain) := by
  obtain ⟨content', hread, h⟩ := h.read
  rw [hcontent] at hread
  cases hread
  cases h.write
  exact ⟨_, Finmap.lookup_insert _, hshows.removed hplain hdomain⟩

theorem removals_show {routes : List RouteConfig} (hplain : ∀ route ∈ routes, route.Plain)
    {domains : List String} (hdomains : ∀ domain ∈ domains, IsDomain domain) {content : String}
    (hcontent : fs.lookup self.caddyfilePath = some content) (hshows : Shows content routes)
    (h : (ProxyBackend.caddy self).Serves fs (domains.map .removeRoute) fs') :
    ∃ content', fs'.lookup self.caddyfilePath = some content' ∧
      Shows content' (routes.filter fun route => route.domain ∉ domains) := by
  induction domains generalizing routes fs content with
  | nil =>
    cases h
    refine ⟨content, hcontent, ?_⟩
    simpa using hshows
  | cons domain domains ih =>
    cases h with
    | cons renders runs rest =>
      cases renders
      obtain ⟨content', hcontent', hshows'⟩ :=
        removed_shows hplain (hdomains domain List.mem_cons_self) hcontent hshows runs
      obtain ⟨content'', hcontent'', hshows''⟩ := ih
        (fun route hroute => hplain route (List.mem_of_mem_filter hroute))
        (fun d hd => hdomains d (List.mem_cons_of_mem _ hd)) hcontent' hshows' rest
      refine ⟨content'', hcontent'', ?_⟩
      rw [List.filter_filter] at hshows''
      have hboth : (routes.filter fun route => route.domain ∉ domain :: domains) =
          routes.filter fun route => decide (route.domain ∉ domains) && decide (route.domain ≠ domain) := by
        refine List.filter_congr fun route _ => ?_
        simp only [List.mem_cons, not_or, Bool.decide_and]
        exact Bool.and_comm ..
      rw [hboth]
      exact hshows''

/-- Applying routes and then removing domains one by one leaves, blank lines
aside, the rendering of the routes of the other domains. -/
theorem removal_agrees (self : CaddyBackend) {routes : List RouteConfig} {domains : List String}
    {fs fs' : Files} (hplain : ∀ route ∈ routes, route.Plain)
    (hdomains : ∀ domain ∈ domains, IsDomain domain)
    (h : (ProxyBackend.caddy self).Serves fs (.applyRoutes routes :: domains.map .removeRoute) fs') :
    ∃ content rendered, fs'.lookup self.caddyfilePath = some content ∧
      renderCaddyfile (routes.filter fun route => route.domain ∉ domains) = .ok rendered ∧
      nonBlankLines content = nonBlankLines rendered := by
  cases h with
  | cons renders runs rest =>
    obtain ⟨content, hcontent, hshows⟩ := applied_shows hplain renders runs
    obtain ⟨content', hcontent', hshows'⟩ := removals_show hplain hdomains hcontent hshows rest
    have hleft : ∀ route ∈ routes.filter (fun route => route.domain ∉ domains), route.Plain :=
      fun route hroute => hplain route (List.mem_of_mem_filter hroute)
    refine ⟨content', _, hcontent', renderCaddyfile_blocks fun route hroute => (hleft route hroute).upstream, ?_⟩
    rw [hshows'.nonBlankLines_eq hleft, (shows_rendered _).nonBlankLines_eq hleft]

/-- What can be rendered is written. -/
private theorem applyRoutes_runs (self : CaddyBackend) {routes : List RouteConfig} {content : String}
    (h : renderCaddyfile routes = .ok content) (fs : Files) : ∃ program,
      self.applyRoutes routes = .ok program ∧
      program.ExecWell fs (.ok ()) (fs.insert self.caddyfilePath content) := by
  rw [applyRoutes, h]
  exact ⟨_, rfl, .call ⟨.write _ _, rfl⟩ (.ret _ _)⟩

def etcCaddy : CaddyBackend := ⟨"/etc/caddy/Caddyfile"⟩

/-- Two routes, of which one has a block in its block, and the domain of the
other goes on where its own ends. -/
def nestedRoutes : List RouteConfig :=
  [⟨"app.example", [⟨"10.0.0.1:80", 2⟩, ⟨"10.0.0.2:80", 1⟩], .auto "ops@app.example"⟩,
    ⟨"app.example.org", [⟨"10.0.0.3:80", 1⟩], .none⟩]

private theorem nestedRoutes_plain : ∀ route ∈ nestedRoutes, route.Plain := by
  intro route hroute
  rcases List.mem_cons.mp hroute with rfl | hroute
  · refine ⟨⟨by decide, .literal rfl⟩, List.cons_ne_nil _ _, fun up hup => ?_, .literal rfl⟩
    rcases List.mem_cons.mp hup with rfl | hup
    · exact .literal rfl
    · rw [List.mem_singleton.mp hup]
      exact .literal rfl
  · rw [List.mem_singleton.mp hroute]
    exact ⟨⟨by decide, .literal rfl⟩, List.cons_ne_nil _ _, fun up hup => List.mem_singleton.mp hup ▸ .literal rfl,
      trivial⟩

private theorem nestedRoutes_served : ∃ fs', (ProxyBackend.caddy etcCaddy).Serves ∅
    [.applyRoutes nestedRoutes, .removeRoute "app.example"] fs' := by
  obtain ⟨program, hprogram, hrun⟩ := applyRoutes_runs etcCaddy
    (renderCaddyfile_blocks fun route hroute => (nestedRoutes_plain route hroute).upstream) ∅
  exact ⟨_, .cons hprogram hrun
    (.cons rfl (.call ⟨.read (Finmap.lookup_insert _), rfl⟩ (.call ⟨.write _ _, rfl⟩ (.ret _ _))) (.nil _))⟩

/-- The other route's block is what is left. -/
theorem removal_agrees_app : ∃ (fs' : Files) (content rendered : String),
    (ProxyBackend.caddy etcCaddy).Serves ∅ [.applyRoutes nestedRoutes, .removeRoute "app.example"] fs' ∧
    fs'.lookup "/etc/caddy/Caddyfile" = some content ∧
    renderCaddyfile [⟨"app.example.org", [⟨"10.0.0.3:80", 1⟩], .none⟩] = .ok rendered ∧
    nonBlankLines content = nonBlankLines rendered := by
  obtain ⟨fs', hserved⟩ := nestedRoutes_served
  have hdomain : ∀ domain ∈ ["app.example"], IsDomain domain :=
    fun domain hdomain => List.mem_singleton.mp hdomain ▸ ⟨by decide, .literal rfl⟩
  obtain ⟨content, rendered, hcontent, hrendered, hlines⟩ :=
    removal_agrees etcCaddy nestedRoutes_plain hdomain hserved
  exact ⟨fs', content, rendered, hserved, hcontent, hrendered, hlines⟩

end CaddyBackend

end Nexad.Proxy
